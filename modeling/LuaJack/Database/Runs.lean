import LuaJack.Database.Nodes

/-!
# Databases over time

What the program asks of a database, one request after the other.  The nodes answer as
the table does that they make up, whatever is asked, as long as the allocator hands out
what is not allocated and the pointers that are passed point to entries.  References to
objects come from Lua and may be any integers. -/

namespace LuaJack.Database

open RedBlack

variable {V : Type}

/-- What is asked of a database. -/
inductive Request (V : Type) where
  | new (malloc : Option Addr) (value : V)
  | check (ref : Addr)
  | search (key : Addr)
  | first (key : Addr)
  | next (node : Addr)
  | assign (node : Addr) (change : V → V)
  | sweep (owned : V → Bool) (release : V → V)
  | free (node : Addr)
  | freeAll

/-- What a database answers. -/
inductive Answer (V : Type) where
  | entry (node : Option Addr)
  | released (entries : List (Addr × V))
  | freed (nodes : List Addr)
  | done

namespace Request

/-- Do what is asked for. -/
def perform (isValid : V → Bool) (rounds count : Nat) : Request V → Call V (Answer V)
  | new malloc value => do return .entry (← Database.new rounds malloc value)
  | check ref => do return .entry (← Database.check isValid rounds ref)
  | search key => do return .entry (← Database.search rounds key)
  | first key => do return .entry (← Database.first rounds key)
  | next node => do return .entry (← Database.next rounds node)
  | assign node change => do
      Database.assign node change
      return .done
  | sweep owned release => do
      return .released (← Database.sweep owned release (fun key value => [(key, value)])
        rounds count)
  | free node => do
      Database.free rounds node
      return .done
  | freeAll => do return .freed (← Database.freeAll rounds count)

/-- The allocator hands out what is not allocated, and pointers to entries are valid. -/
def Permitted (nodes : Nodes V) : Request V → Prop
  | new malloc _ => ∀ key, malloc = some key → nodes.node key = none
  | next node | assign node _ | free node => (nodes.node node).isSome = true
  | _ => True

/-- What a table answers, and what becomes of it. -/
def answer (isValid : V → Bool) (table : Table Addr V) :
    Request V → Answer V × Table Addr V
  | new none _ => (.entry none, table)
  | new (some key) value => (.entry (some key), table.insert key value)
  | check ref => (.entry (((table.find? ref).filter isValid).map fun _ => ref), table)
  | search key => (.entry ((table.find? key).map fun _ => key), table)
  | first key => (.entry (table.nfind? key), table)
  | next node => (.entry (table.next? node), table)
  | assign node change => (.done, table.modify node change)
  | sweep owned release =>
      let swept := table.sweep owned release (fun key value => [(key, value)]) 0 []
      (.released swept.2, swept.1)
  | free node => (.done, table.erase node)
  | freeAll => (.freed table.keys, .empty)

end Request

/-- One request after the other. -/
def run (isValid : V → Bool) (rounds count : Nat) :
    List (Request V) → Call V (List (Answer V))
  | [] => return []
  | request :: requests => do
      let answer ← request.perform isValid rounds count
      return answer :: (← run isValid rounds count requests)

/-- All requests are permitted when they are made. -/
def Allowed (isValid : V → Bool) (rounds count : Nat) : List (Request V) → Nodes V → Prop
  | [], _ => True
  | request :: requests, nodes => request.Permitted nodes ∧
      Allowed isValid rounds count requests (request.perform isValid rounds count nodes).2

/-- The answers of a table to one request after the other, and what becomes of it. -/
def answers (isValid : V → Bool) :
    List (Request V) → Table Addr V → List (Answer V) × Table Addr V
  | [], table => ([], table)
  | request :: requests, table =>
      let later := answers isValid requests (request.answer isValid table).2
      ((request.answer isValid table).1 :: later.1, later.2)

variable {isValid : V → Bool} {rounds count : Nat}
  {nodes : Nodes V} {table : Table Addr V}

/-- A sweep keeps the number of entries. -/
theorem length_sweep {ε : Type} (owned : V → Bool) (release : V → V)
    (effect : Addr → V → List ε) (table : Table Addr V) :
    (table.sweep owned release effect 0 []).1.entries.length = table.entries.length := by
  rw [(Table.sweep_eq owned release effect [] Addr.zero_le).1, List.length_map]

/-- A request adds at most one entry. -/
theorem Request.length_answer (request : Request V) (table : Table Addr V) :
    (request.answer isValid table).2.entries.length ≤ table.entries.length + 1 := by
  cases request with
  | new malloc value =>
      cases malloc with
      | none => exact Nat.le_succ _
      | some key => exact table.length_insert_le key value
  | check ref => exact Nat.le_succ _
  | search key => exact Nat.le_succ _
  | first key => exact Nat.le_succ _
  | next node => exact Nat.le_succ _
  | assign node change =>
      rw [answer, Table.modify, List.length_map]
      exact Nat.le_succ _
  | sweep owned release =>
      exact (length_sweep owned release _ table).le.trans (Nat.le_succ _)
  | free node => exact (List.length_filter_le _ _).trans (Nat.le_succ _)
  | freeAll => exact Nat.zero_le _

/-- The nodes answer a request as their table does. -/
theorem Request.perform_spec {request : Request V} (realizes : Realizes nodes table)
    (enough : Enough rounds table) (less : table.entries.length < count)
    (permitted : request.Permitted nodes) :
    ∃ after, request.perform isValid rounds count nodes =
        (.ok (request.answer isValid table).1, after) ∧
      Realizes after (request.answer isValid table).2 := by
  cases request with
  | new malloc value =>
      cases malloc with
      | none => exact ⟨nodes, rfl, realizes⟩
      | some key =>
          have fresh : key ∉ table.keys := by
            rw [← realizes.allocated_iff, permitted key rfl]
            exact Bool.false_ne_true
          rcases realizes.new_spec enough fresh value with ⟨after, isAfter, realizes⟩
          exact ⟨after, Fallible.bind_of_ok isAfter, realizes⟩
  | check ref =>
      exact ⟨nodes, Fallible.bind_of_ok
        (realizes.check_spec enough isValid ref), realizes⟩
  | search key =>
      exact ⟨nodes, Fallible.bind_of_ok (realizes.search_spec enough key), realizes⟩
  | first key =>
      exact ⟨nodes, Fallible.bind_of_ok (realizes.first_spec enough key), realizes⟩
  | next node =>
      have member := realizes.allocated_iff.mp permitted
      exact ⟨nodes, Fallible.bind_of_ok (realizes.next_spec enough member), realizes⟩
  | assign node change =>
      rcases realizes.assign_spec (realizes.allocated_iff.mp permitted) change with
        ⟨after, isAfter, realizes⟩
      exact ⟨after, Fallible.bind_of_ok isAfter, realizes⟩
  | sweep owned release =>
      rcases realizes.sweep_spec owned release
        (fun key value => [(key, value)]) enough less with
        ⟨after, isAfter, realizes⟩
      exact ⟨after, Fallible.bind_of_ok isAfter, realizes⟩
  | free node =>
      rcases realizes.free_spec enough (realizes.allocated_iff.mp permitted) with
        ⟨after, isAfter, realizes⟩
      exact ⟨after, Fallible.bind_of_ok isAfter, realizes⟩
  | freeAll =>
      rcases realizes.freeAll_spec enough less with ⟨after, isAfter, realizes⟩
      exact ⟨after, Fallible.bind_of_ok isAfter, realizes⟩

/-- The nodes answer all requests as their table does. -/
theorem run_spec {requests : List (Request V)}
    {bound : Nat} (realizes : Realizes nodes table)
    (within : table.entries.length + requests.length ≤ bound)
    (enough : 2 * Nat.log2 (bound + 1) < rounds) (less : bound < count)
    (allowed : Allowed isValid rounds count requests nodes) :
    ∃ after, run isValid rounds count requests nodes =
        (.ok (answers isValid requests table).1, after) ∧
      Realizes after (answers isValid requests table).2 := by
  induction requests generalizing nodes table with
  | nil => exact ⟨nodes, rfl, realizes⟩
  | cons request requests inductionHypothesis =>
      rw [List.length_cons] at within
      have isBelow : table.entries.length ≤ bound := by omega
      rcases @Request.perform_spec _ isValid _ _ _ _ request realizes
        (.of_length enough isBelow)
        (Nat.lt_of_le_of_lt isBelow less) allowed.1 with ⟨middle, isMiddle, realizes⟩
      have grown := @Request.length_answer _ isValid request table
      have later := allowed.2
      rw [isMiddle] at later
      rcases inductionHypothesis realizes (by omega) later with ⟨after, isAfter, realizes⟩
      refine ⟨after, ?_, realizes⟩
      rw [run, Fallible.bind_of_ok isMiddle, Fallible.bind_of_ok isAfter]
      rfl

/-- Whatever is asked of a database, in any order, its red-black tree answers as a table
does. No loop over the tree takes more rounds than twice the logarithm of the number of
entries. -/
theorem tree_answers_as_table (isValid : V → Bool) (rounds count : Nat)
    (requests : List (Request V)) (enough : 2 * Nat.log2 (requests.length + 1) < rounds)
    (less : requests.length < count)
    (allowed : Allowed isValid rounds count requests ⟨none, fun _ => none⟩) :
    ∃ after, run isValid rounds count requests ⟨none, fun _ => none⟩ =
        (.ok (answers isValid requests .empty).1, after) ∧
      Realizes after (answers isValid requests .empty).2 :=
  run_spec .initial (Nat.zero_add _).le enough less allowed

/-- Entries are inserted in the middle, freed and visited. -/
def someRequests : List (Request Nat) :=
  [.new (some 0x602010) 1, .new (some 0x601010) 2,
    .new (some 0x603010) 3, .new (some 0x602810) 4,
    .check 5, .free 0x602010, .sweep (· = 3) (· + 1),
    .next 0x602810, .first 0x601011, .freeAll]

theorem tree_answers_as_table_some : ∃ after,
    run (· ≠ 0) 12 12 someRequests ⟨none, fun _ => none⟩ =
      (.ok (answers (· ≠ 0) someRequests .empty).1, after) ∧
    Realizes after (answers (· ≠ 0) someRequests .empty).2 := by
  refine tree_answers_as_table _ 12 12 someRequests (by decide) (by decide) ?_
  refine ⟨?_, ?_, ?_, ?_, trivial, rfl, trivial, rfl, trivial, trivial, trivial⟩
  all_goals
    intro key isKey
    cases isKey
    rfl

end LuaJack.Database
