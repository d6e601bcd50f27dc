import Mathlib.Data.List.Nodup
import Mathlib.Data.List.Pairwise
import Mathlib.Data.List.Sort
import Mathlib.Order.Lattice
import Mathlib.Tactic.Common

/-!
# Tables

Finite maps with ordered keys, as a balanced tree provides them: searching a
key, finding the next larger one, inserting, and changing a value in place.

A *sweep* visits all entries from some key on, in order, by repeatedly asking
for the next key, and changes some of the values while it goes along.
-/

namespace LuaJack

universe u v w

variable {K : Type u} {V : Type v} {ε : Type w} [LinearOrder K]

/-- A finite map. The entries are in the order of their keys. -/
structure Table (K : Type u) (V : Type v) [LinearOrder K] where
  entries : List (K × V)
  sorted : entries.Pairwise fun first second => first.1 < second.1

namespace Table

/-- The table without entries. -/
def empty : Table K V := ⟨[], .nil⟩

/-- The keys, in order. -/
def keys (table : Table K V) : List K := table.entries.map Prod.fst

/-- The value of a key (`RB_FIND`). -/
def find? (table : Table K V) (key : K) : Option V :=
  (table.entries.find? fun entry => entry.1 = key).map Prod.snd

/-- The least key that is not less than the given one (`RB_NFIND`). -/
def nfind? (table : Table K V) (key : K) : Option K :=
  table.keys.find? fun other => key ≤ other

/-- The least key that is greater than the given one (`RB_NEXT`). -/
def next? (table : Table K V) (key : K) : Option K :=
  table.keys.find? fun other => key < other

/-- Change the value of a key, if it has one. -/
def modify (table : Table K V) (key : K) (change : V → V) : Table K V where
  entries := table.entries.map fun entry =>
    (entry.1, if entry.1 = key then change entry.2 else entry.2)
  sorted := List.pairwise_map.mpr table.sorted

/-- Insert a new key; a key that has a value keeps it (`RB_INSERT`). -/
def insert (table : Table K V) (key : K) (value : V) : Table K V :=
  if (table.find? key).isSome then
    table
  else
    { entries := table.entries.filter (fun entry => entry.1 < key) ++
        (key, value) :: table.entries.filter fun entry => key < entry.1
      sorted := by
        rw [List.pairwise_append, List.pairwise_cons]
        refine ⟨table.sorted.filter _, ⟨?_, table.sorted.filter _⟩, ?_⟩
        · intro second member
          simpa using (List.mem_filter.mp member).2
        · intro first less second member
          have less : first.1 < key := by simpa using (List.mem_filter.mp less).2
          rcases List.mem_cons.mp member with rfl | greater
          · exact less
          · have greater : key < second.1 := by simpa using (List.mem_filter.mp greater).2
            exact lt_trans less greater }

/-- Remove a key (`RB_REMOVE`). -/
def erase (table : Table K V) (key : K) : Table K V where
  entries := table.entries.filter fun entry => entry.1 ≠ key
  sorted := table.sorted.filter _

/-! ## Searching -/

section

variable {table : Table K V} {key other : K} {value : V}

theorem nodup_keys (table : Table K V) : table.keys.Nodup := by
  rw [keys, List.nodup_iff_pairwise_ne, List.pairwise_map]
  exact table.sorted.imp ne_of_lt

theorem eq_of_mem {value' : V} (first : (key, value) ∈ table.entries)
    (second : (key, value') ∈ table.entries) : value = value' := by
  have same := List.inj_on_of_nodup_map table.nodup_keys first second rfl
  exact congrArg Prod.snd same

theorem find?_eq_some : table.find? key = some value ↔ (key, value) ∈ table.entries := by
  constructor
  · intro found
    simp only [find?, Option.map_eq_some_iff] at found
    rcases found with ⟨entry, found, rfl⟩
    have isKey : entry.1 = key := by simpa using List.find?_some found
    subst isKey
    exact List.mem_of_find?_eq_some found
  · intro member
    cases found : table.entries.find? fun entry => entry.1 = key with
    | none =>
        have absent := List.find?_eq_none.mp found _ member
        simp at absent
    | some entry =>
        have isKey : entry.1 = key := by simpa using List.find?_some found
        subst isKey
        have same : value = entry.2 := eq_of_mem member (List.mem_of_find?_eq_some found)
        rw [find?, found, same]
        rfl

theorem mem_keys : key ∈ table.keys ↔ ∃ value, table.find? key = some value := by
  simp [keys, find?_eq_some]

theorem mem_keys_iff_isSome : key ∈ table.keys ↔ (table.find? key).isSome = true := by
  rw [mem_keys, Option.isSome_iff_exists]

theorem find?_eq_none : table.find? key = none ↔ key ∉ table.keys := by
  rw [mem_keys, Option.eq_none_iff_forall_ne_some]
  simp

@[simp] theorem find?_empty : (empty : Table K V).find? key = none := rfl

@[simp] theorem keys_empty : (empty : Table K V).keys = [] := rfl

/-- The entry of a key is the only one with that key. -/
theorem filter_key : table.entries.filter (fun entry => entry.1 = key) =
    ((table.find? key).map fun value => (key, value)).toList := by
  cases found : table.find? key with
  | none =>
      apply List.filter_eq_nil_iff.mpr
      intro entry member isKey
      apply find?_eq_none.mp found
      rw [← of_decide_eq_true isKey]
      exact List.mem_map_of_mem member
  | some value =>
      rcases List.append_of_mem (find?_eq_some.mp found) with ⟨before, after, isSplit⟩
      have sorted := table.sorted
      rw [isSplit, List.pairwise_append, List.pairwise_cons] at sorted
      rcases sorted with ⟨_, ⟨greater, _⟩, less⟩
      have noneBefore : before.filter (fun entry => entry.1 = key) = [] := by
        apply List.filter_eq_nil_iff.mpr
        intro entry member isKey
        exact (less entry member _ (List.mem_cons_self ..)).ne (of_decide_eq_true isKey)
      have noneAfter : after.filter (fun entry => entry.1 = key) = [] := by
        apply List.filter_eq_nil_iff.mpr
        intro entry member isKey
        exact (greater entry member).ne' (of_decide_eq_true isKey)
      rw [isSplit, List.filter_append, List.filter_cons_of_pos (by simp),
        noneBefore, noneAfter]
      rfl

/-! ## Changing and inserting -/

theorem find?_modify (change : V → V) : (table.modify key change).find? other =
    if other = key then (table.find? other).map change else table.find? other := by
  apply Option.ext
  intro value
  simp only [find?_eq_some, modify, List.mem_map, Prod.mk.injEq]
  split
  next same =>
    subst same
    simp only [Option.map_eq_some_iff, find?_eq_some]
    constructor
    · rintro ⟨entry, member, isKey, rfl⟩
      refine ⟨entry.2, ?_, by rw [if_pos isKey]⟩
      rw [← isKey]
      exact member
    · rintro ⟨old, member, rfl⟩
      exact ⟨(other, old), member, rfl, if_pos rfl⟩
  next different =>
    simp only [find?_eq_some]
    constructor
    · rintro ⟨entry, member, rfl, rfl⟩
      rw [if_neg different]
      exact member
    · intro member
      exact ⟨(other, value), member, rfl, if_neg different⟩

theorem eq_of_entries {one other : Table K V} (same : one.entries = other.entries) :
    one = other := by
  cases one with
  | mk entries sorted =>
      cases other with
      | mk others _ =>
          cases same
          rfl

/-- A value that is changed twice. -/
theorem modify_comp (first second : V → V) :
    (table.modify key first).modify key second = table.modify key (second ∘ first) := by
  apply eq_of_entries
  simp only [modify, List.map_map]
  apply List.map_congr_left
  intro entry _
  by_cases isKey : entry.1 = key
  · simp only [Function.comp, isKey, if_true]
  · simp only [Function.comp, isKey, if_false]

/-- A value that is changed to itself. -/
theorem modify_same {change : V → V} (found : table.find? key = some value)
    (same : change value = value) : table.modify key change = table := by
  apply eq_of_entries
  simp only [modify]
  conv_rhs => rw [← List.map_id table.entries]
  apply List.map_congr_left
  intro entry member
  by_cases isKey : entry.1 = key
  · have isValue : entry.2 = value := by
      apply eq_of_mem _ (find?_eq_some.mp found)
      rw [← isKey]
      exact member
    simp only [isKey, if_true, isValue, same, id]
    rw [← isKey, ← isValue]
  · simp only [isKey, if_false, id]

/-- A value that is changed and changed back. -/
theorem modify_modify {first second : V → V} (found : table.find? key = some value)
    (back : second (first value) = value) :
    (table.modify key first).modify key second = table := by
  rw [modify_comp]
  exact modify_same found back

theorem find?_insert (absent : table.find? key = none) :
    (table.insert key value).find? other =
    if other = key then some value else table.find? other := by
  apply Option.ext
  intro found
  have keyAbsent : ∀ {old}, (key, old) ∉ table.entries := by
    intro old member
    rw [find?_eq_some.mpr member] at absent
    cases absent
  rw [insert, absent, if_neg (by simp)]
  simp only [find?_eq_some, List.mem_append,
    List.mem_cons, List.mem_filter, decide_eq_true_eq, Prod.mk.injEq]
  split
  next same =>
    subst same
    simp [keyAbsent, eq_comm]
  next different =>
    have ordered := lt_or_gt_of_ne different
    simp only [different, false_and, false_or, find?_eq_some]
    tauto

/-- Inserting adds at most one entry. -/
theorem length_insert_le (table : Table K V) (key : K) (value : V) :
    (table.insert key value).entries.length ≤ table.entries.length + 1 := by
  rw [insert]
  split
  next => exact Nat.le_succ _
  next =>
    have disjoint : ∀ entries : List (K × V),
        (entries.filter fun entry => entry.1 < key).length +
        (entries.filter fun entry => key < entry.1).length ≤ entries.length := by
      intro entries
      induction entries with
      | nil => exact le_refl 0
      | cons entry rest inductionHypothesis =>
          rw [List.filter_cons, List.filter_cons, List.length_cons]
          by_cases less : entry.1 < key
          · have notGreater : ¬key < entry.1 := less.not_gt
            simp only [less, notGreater, decide_true, decide_false,
              if_true, Bool.false_eq_true, if_false, List.length_cons]
            omega
          · by_cases greater : key < entry.1
            · simp only [less, greater, decide_true, decide_false,
                if_true, Bool.false_eq_true, if_false, List.length_cons]
              omega
            · simp only [less, greater, decide_false, Bool.false_eq_true, if_false]
              omega
    have both := disjoint table.entries
    simp only [List.length_append, List.length_cons]
    omega

theorem find?_erase : (table.erase key).find? other =
    if other = key then none else table.find? other := by
  apply Option.ext
  intro value
  simp only [find?_eq_some, erase, List.mem_filter]
  split
  next same => simp [same]
  next different => simp [find?_eq_some, different]

/-- The least key, when the search starts at the least possible one. -/
theorem nfind?_least (least : ∀ other, key ≤ other) :
    table.nfind? key = table.entries.head?.map Prod.fst := by
  rw [nfind?, keys]
  cases table.entries with
  | nil => rfl
  | cons entry rest => exact List.find?_cons_of_pos (by simpa using least entry.1)

/-- Removing a key that has a value leaves fewer entries. -/
theorem length_erase (found : table.find? key = some value) :
    (table.erase key).entries.length < table.entries.length := by
  apply List.length_filter_lt_length_iff_exists.mpr
  exact ⟨(key, value), find?_eq_some.mp found, by simp⟩

/-- Removing a key takes its entry out, and leaves the entries before and behind it. -/
theorem erase_entries {before after : List (K × V)}
    (isSplit : table.entries = before ++ (key, value) :: after) :
    (table.erase key).entries = before ++ after := by
  have sorted := table.sorted
  rw [isSplit, List.pairwise_append, List.pairwise_cons] at sorted
  rcases sorted with ⟨_, ⟨greater, _⟩, less⟩
  have keepsBefore : before.filter (fun entry => entry.1 ≠ key) = before := by
    apply List.filter_eq_self.mpr
    intro entry member
    exact decide_eq_true (less entry member _ (List.mem_cons_self ..)).ne
  have keepsAfter : after.filter (fun entry => entry.1 ≠ key) = after := by
    apply List.filter_eq_self.mpr
    intro entry member
    exact decide_eq_true (greater entry member).ne'
  rw [erase]
  simp only
  rw [isSplit, List.filter_append, List.filter_cons_of_neg (by simp),
    keepsBefore, keepsAfter]

/-- Tables with entries for the same keys have the same list of keys. -/
theorem keys_eq {second : Table K V}
    (same : ∀ key, (table.find? key).isSome = (second.find? key).isSome) :
    table.keys = second.keys := by
  have sorted (table : Table K V) : table.keys.Pairwise (· < ·) :=
    List.pairwise_map.mpr table.sorted
  apply (sorted table).eq_of_mem_iff (sorted second)
  intro key
  rw [mem_keys_iff_isSome, mem_keys_iff_isSome, same]

/-- The first key with a property that larger keys inherit is the least one with it. -/
theorem keys_find?_eq_some {property : K → Bool}
    (found : table.keys.find? property = some key) :
    property key = true ∧ key ∈ table.keys ∧
      ∀ other ∈ table.keys, property other = true → key ≤ other := by
  rw [List.find?_eq_some_iff_append] at found
  rcases found with ⟨holds, before, after, isSplit, fails⟩
  have sorted : table.keys.Pairwise (· < ·) := List.pairwise_map.mpr table.sorted
  rw [isSplit, List.pairwise_append, List.pairwise_cons] at sorted
  have isKey : key ∈ table.keys := by
    rw [isSplit]
    exact List.mem_append_right _ List.mem_cons_self
  refine ⟨holds, isKey, ?_⟩
  intro other member alsoHolds
  rw [isSplit] at member
  cases List.mem_append.mp member with
  | inl isBefore =>
      have failed := fails other isBefore
      simp [alsoHolds] at failed
  | inr isAfter =>
      cases List.mem_cons.mp isAfter with
      | inl same => exact same.ge
      | inr later => exact (sorted.2.1.1 other later).le

end

/-! ## Sweeping -/

section Sweep

variable (owned : V → Bool) (release : V → V) (effect : K → V → List ε)

/-- Visit the entries from a key on, at most `fuel` of them: release those that are
owned, in place, and log the effects of that. -/
def sweepFrom : (fuel : Nat) → Option K → Table K V × List ε → Table K V × List ε
  | 0, _, state => state
  | _ + 1, none, state => state
  | fuel + 1, some key, (table, log) =>
      let (table, log) :=
        match table.find? key with
        | none => (table, log)
        | some value =>
            if owned value then
              (table.modify key release, log ++ effect key value)
            else
              (table, log)
      sweepFrom fuel (table.next? key) (table, log)

/-- Visit all entries from the key `start` on. -/
def sweep (table : Table K V) (start : K) (log : List ε) : Table K V × List ε :=
  sweepFrom owned release effect table.entries.length (table.nfind? start) (table, log)

/-- What a sweep leaves of an entry. -/
def swept (entry : K × V) : K × V :=
  (entry.1, if owned entry.2 then release entry.2 else entry.2)

/-- What a sweep logs for an entry. -/
def logged (entry : K × V) : List ε :=
  if owned entry.2 then effect entry.1 entry.2 else []

/-- The keys behind a given one are those that are left to visit. -/
theorem next?_eq {table : Table K V} {before after : List (K × V)} {entry : K × V}
    (isSplit : table.entries = before ++ entry :: after) :
    table.next? entry.1 = after.head?.map Prod.fst := by
  have sorted := table.sorted
  rw [isSplit, List.pairwise_append, List.pairwise_cons] at sorted
  rcases sorted with ⟨_, ⟨greater, _⟩, less⟩
  have skipped : ∀ other ∈ before.map Prod.fst, ¬entry.1 < other := by
    intro other member
    rcases List.mem_map.mp member with ⟨first, isFirst, rfl⟩
    exact (less first isFirst entry (List.mem_cons_self ..)).not_gt
  rw [next?, keys, isSplit, List.map_append, List.map_cons, List.find?_append]
  rw [List.find?_eq_none.mpr (by simpa using skipped), Option.none_or]
  rw [List.find?_cons_of_neg (by simp)]
  cases after with
  | nil => rfl
  | cons second rest => exact List.find?_cons_of_pos (by simpa using greater second)

@[simp] theorem keys_modify (table : Table K V) (key : K) (change : V → V) :
    (table.modify key change).keys = table.keys := by
  rw [keys, modify, List.map_map]
  rfl

theorem modify_entries {table : Table K V} {before after : List (K × V)} {entry : K × V}
    (isSplit : table.entries = before ++ entry :: after) :
    (table.modify entry.1 release).entries =
      before ++ (entry.1, release entry.2) :: after := by
  have sorted := table.sorted
  rw [isSplit, List.pairwise_append, List.pairwise_cons] at sorted
  rcases sorted with ⟨_, ⟨greater, _⟩, less⟩
  have unchanged : ∀ entries : List (K × V), (∀ other ∈ entries, other.1 ≠ entry.1) →
      entries.map
        (fun other => (other.1, if other.1 = entry.1 then release other.2 else other.2)) =
        entries := by
    intro entries different
    conv_rhs => rw [← List.map_id entries]
    apply List.map_congr_left
    intro other member
    rw [if_neg (different other member)]
    rfl
  simp only [modify, isSplit, List.map_append, List.map_cons, if_true]
  rw [unchanged before fun other member =>
    (less other member _ (List.mem_cons_self ..)).ne,
    unchanged after fun other member => (greater other member).ne']

/-- One step of a sweep. -/
theorem sweepFrom_cons {table : Table K V} {before after : List (K × V)} {entry : K × V}
    (fuel : Nat) (log : List ε) (isSplit : table.entries = before ++ entry :: after) :
    ∃ table' : Table K V, table'.entries = before ++ swept owned release entry :: after ∧
      sweepFrom owned release effect (fuel + 1) (some entry.1) (table, log) =
        sweepFrom owned release effect fuel (after.head?.map Prod.fst)
          (table', log ++ logged owned effect entry) := by
  have found : table.find? entry.1 = some entry.2 := by
    rw [find?_eq_some, isSplit]
    exact List.mem_append_right _ (List.mem_cons_self ..)
  simp only [sweepFrom, found, swept, logged]
  cases owned entry.2 with
  | true =>
      have isSplit' := modify_entries release isSplit
      have next := next?_eq isSplit'
      refine ⟨_, isSplit', ?_⟩
      simp only [if_true]
      rw [← next]
  | false =>
      refine ⟨table, isSplit, ?_⟩
      simp only [Bool.false_eq_true, if_false, List.append_nil]
      rw [next?_eq isSplit]

/-- A sweep over the rest of a table. -/
theorem sweepFrom_eq {table : Table K V} {before after : List (K × V)}
    {fuel : Nat} {log : List ε}
    (isSplit : table.entries = before ++ after) (enough : after.length ≤ fuel) :
    (sweepFrom owned release effect fuel (after.head?.map Prod.fst)
      (table, log)).1.entries =
        before ++ after.map (swept owned release) ∧
    (sweepFrom owned release effect fuel (after.head?.map Prod.fst) (table, log)).2 =
        log ++ after.flatMap (logged owned effect) := by
  induction after generalizing table before fuel log with
  | nil => cases fuel <;> simp [sweepFrom, isSplit]
  | cons entry rest ih =>
      cases fuel with
      | zero => cases enough
      | succ fuel =>
          rcases sweepFrom_cons owned release effect fuel log isSplit with
            ⟨table', isSplit', step⟩
          rw [List.append_cons] at isSplit'
          have tail := @ih table' _ fuel (log ++ logged owned effect entry) isSplit'
            (Nat.le_of_succ_le_succ enough)
          rw [List.head?_cons, Option.map_some, step, tail.1, tail.2]
          simp

variable {table : Table K V} {start : K} (log : List ε)

/-- A sweep from the least key visits every entry. -/
theorem sweep_eq (least : ∀ key, start ≤ key) :
    (table.sweep owned release effect start log).1.entries =
        table.entries.map (swept owned release) ∧
    (table.sweep owned release effect start log).2 =
        log ++ table.entries.flatMap (logged owned effect) := by
  rw [sweep, nfind?_least least]
  have whole : table.entries = [] ++ table.entries := rfl
  exact sweepFrom_eq owned release effect whole (Nat.le_refl _)

@[simp] theorem keys_sweep (least : ∀ key, start ≤ key) :
    (table.sweep owned release effect start log).1.keys = table.keys := by
  rw [keys, (sweep_eq owned release effect log least).1, List.map_map]
  rfl

theorem find?_sweep (least : ∀ key, start ≤ key) (key : K) :
    (table.sweep owned release effect start log).1.find? key =
      (table.find? key).map fun value =>
        if owned value then release value else value := by
  apply Option.ext
  intro value
  simp only [find?_eq_some, (sweep_eq owned release effect log least).1,
    List.mem_map, swept, Option.map_eq_some_iff, Prod.mk.injEq]
  constructor
  · rintro ⟨entry, member, rfl, rfl⟩
    exact ⟨entry.2, member, rfl⟩
  · rintro ⟨old, member, rfl⟩
    exact ⟨(key, old), member, rfl, rfl⟩

/-- Where effects only belong to one key, and to some of its values, a sweep logs one of
them if the key has such a value to release. -/
theorem countP_logged_of (belongs : ε → Bool) (key : K) (counts : V → Bool)
    (once : ∀ entry ∈ table.entries, (effect entry.1 entry.2).countP belongs =
      if entry.1 = key ∧ counts entry.2 = true then 1 else 0) :
    (table.entries.flatMap (logged owned effect)).countP belongs =
      if (table.find? key).any (fun value => owned value && counts value) then 1
        else 0 := by
  have isCount : ∀ entries : List (K × V), (∀ entry ∈ entries, entry ∈ table.entries) →
      (entries.flatMap (logged owned effect)).countP belongs =
        (entries.filter fun entry =>
          (owned entry.2 && counts entry.2) && entry.1 = key).length := by
    intro entries members
    induction entries with
    | nil => rfl
    | cons entry rest ih =>
        rw [List.flatMap_cons, List.countP_append, logged, List.filter_cons,
          ih fun other member => members other (List.mem_cons_of_mem _ member)]
        have isOnce := once entry (members entry List.mem_cons_self)
        cases isOwned : owned entry.2 with
        | false => simp
        | true =>
            rw [if_pos rfl, isOnce]
            by_cases isKey : entry.1 = key
            · cases isCounted : counts entry.2 with
              | false => simp [isKey]
              | true => simp [isKey, Nat.add_comm]
            · simp [isKey]
  rw [isCount _ fun _ => id, ← List.filter_filter, filter_key]
  cases table.find? key with
  | none => rfl
  | some value => cases isOwned : owned value <;> cases isCounted : counts value <;>
      simp [isOwned, isCounted]

/-- Where each effect belongs to the key that it is logged for, a sweep logs one for
a key that has a value to release, and none for the other keys. -/
theorem countP_logged (belongs : ε → Bool) (key : K)
    (once : ∀ other value, (effect other value).countP belongs =
      if other = key then 1 else 0) :
    (table.entries.flatMap (logged owned effect)).countP belongs =
      if (table.find? key).any owned then 1 else 0 := by
  rw [countP_logged_of owned effect belongs key fun _ => true]
  · simp only [Bool.and_true]
  · intro entry _
    simp only [once, and_true]

end Sweep

end Table

end LuaJack
