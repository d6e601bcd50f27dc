import LuaJack.Basic
import LuaJack.RedBlack.Insert
import LuaJack.RedBlack.Remove
import LuaJack.Table

/-!
# Databases in memory

The functions of `cud.c`, `pud.c`, `rud.c` and `tud.c` on the nodes of a red-black tree.
They are the same up to names: an entry is allocated, its key is its address, and it is
inserted; searching and visiting go through the tree; freeing an entry takes it out of
the tree first.  Each function does to the nodes what it is said to do to a table. -/

namespace LuaJack.Database

open RedBlack

/-- The head of a database, and the allocated entries, whose members are values. -/
abbrev Nodes (V : Type) := Store Addr Addr V

/-- A function on a database. -/
abbrev Call (V β : Type) := Macro Addr Addr V β

variable {V : Type}

/-! ## The functions of the source -/

/-- `cud_search`, `pud_search`, `rud_search` and `tud_search`. -/
def search (rounds : Nat) (key : Addr) : Call V (Option Addr) := find rounds key

/-- `cud_first`, `pud_first`, `rud_first` and `tud_first`. -/
def first (rounds : Nat) (key : Addr) : Call V (Option Addr) := nfind rounds key

/-- `cud_next`, `pud_next`, `rud_next` and `tud_next`. -/
def next (rounds : Nat) (node : Addr) :
    Call V (Option Addr) := RedBlack.next rounds (some node)

/-- What `Malloc`, `memset` and the assignment of the key make of the memory. -/
def allocate (key : Addr) (value : V) :
    Call V PUnit := Fallible.modify fun store => { store with
  node := Function.update store.node key (some ⟨key, value, none, none, none, .black⟩) }

/-- `Free`. -/
def release (node : Addr) : Call V PUnit := do
  let _ ← load (some node)
  Fallible.modify fun store => { store with node := Function.update store.node node none }

/-- `cud_new`, `pud_new`, `rud_new` and `tud_new`, given the answer of the allocator and
the other members.  Nothing is returned without memory, and if there is an entry with
the key already. -/
def new (rounds : Nat) (malloc : Option Addr) (value : V) : Call V (Option Addr) := do
  match malloc with
  | none => return none
  | some key =>
      allocate key value
      if (← search rounds key).isSome then
        release key
        return none
      else
        let _ ← insert rounds (some key)
        return some key

/-- What `cud_free`, `pud_free`, `rud_free` and `tud_free` do first. -/
def detach (rounds : Nat) (node : Addr) : Call V PUnit := do
  let key := (← load (some node)).key
  if (← search rounds key) = some node then
    let _ ← remove rounds (some node)

/-- `rud_free` and `tud_free`. -/
def free (rounds : Nat) (node : Addr) : Call V PUnit := do
  detach rounds node
  release node

/-- The loops that free the first entry as long as there is one, for less than `count`
entries: the freed entries. -/
def drain {State : Type} (first : Fallible State HeapFault (Option Addr))
    (free : Addr → Fallible State HeapFault PUnit) :
    Nat → Fallible State HeapFault (List Addr)
  | 0 => Fallible.error .rounds
  | count + 1 => do
      match ← first with
      | none => return []
      | some node =>
          free node
          return node :: (← drain first free count)

/-- `rud_free_all` and `tud_free_all`. -/
def freeAll (rounds : Nat) :
    Nat → Call V (List Addr) := drain (first rounds 0) (free rounds)

/-- Assign to members of an entry. -/
def assign (node : Addr) (change : V → V) : Call V PUnit :=
  write (some node) fun members => { members with value := change members.value }

/-- The database part of `cud_check`, `pud_check`, `rud_check` and `tud_check`: the
entry, unless there is none or it is not marked valid. -/
def check (isValid : V → Bool) (rounds : Nat) (ref : Addr) : Call V (Option Addr) := do
  match ← search rounds ref with
  | none => return none
  | some node => return if isValid (← load (some node)).value then some node else none

/-- The members of an entry. -/
def members (node : Addr) : Call V V := do return (← load (some node)).value

/-- The loops of `thread_free_all`, `rbuf_free_all` and `port_close_all`, from an entry
on, for less than `count` entries: the entries that are owned are released, and it is
logged how. -/
def sweepFrom {State ε : Type} (members : Addr → Fallible State HeapFault V)
    (next : Addr → Fallible State HeapFault (Option Addr)) (owned : V → Bool)
    (release : Addr → V → Fallible State HeapFault (List ε)) :
    Nat → Option Addr → List ε → Fallible State HeapFault (List ε)
  | 0, _, _ => Fallible.error .rounds
  | _ + 1, none, log => return log
  | count + 1, some node, log => do
      let value ← members node
      let logged ← (if owned value then release node value else pure [])
      sweepFrom members next owned release count (← next node) (log ++ logged)

/-- `thread_free_all` and `rbuf_free_all`: what is logged about the entries that are
released. -/
def sweep {ε : Type} (owned : V → Bool) (cancel : V → V) (effect : Addr → V → List ε)
    (rounds count : Nat) : Call V (List ε) := do
  let release (node : Addr) (value : V) : Call V (List ε) := do
    assign node cancel
    return effect node value
  sweepFrom members (next rounds) owned release count (← first rounds 0) []

/-! ## Tables in memory -/

/-- The nodes make up a table: they are in a red-black tree, in the order of their keys,
which are their addresses.  Beside them some other nodes may be allocated. -/
structure Holds (others : Addr → Option (Node Addr Addr V)) (nodes : Nodes V)
    (table : Table Addr V) (tree : RedBlack.Tree (Entry Addr Addr V)) : Prop where
  isTree : SearchTree others nodes tree
  entries : table.entries = tree.toList.map fun entry => (entry.key, entry.value)
  keys : ∀ entry ∈ tree.toList, entry.key = entry.address

/-- A number of rounds that is enough for a table. -/
def Enough (rounds : Nat) (table : Table Addr V) : Prop :=
  2 * Nat.log2 (table.entries.length + 1) < rounds

theorem log2_le_log2 {smaller greater : Nat} (below : smaller + 1 ≤ greater + 1) :
    Nat.log2 (smaller + 1) ≤ Nat.log2 (greater + 1) :=
  (Nat.le_log2 (Nat.succ_ne_zero _)).mpr
    ((Nat.log2_self_le (Nat.succ_ne_zero _)).trans below)

/-- A number of rounds that is enough for so many entries. -/
theorem Enough.of_length {rounds bound : Nat} {table : Table Addr V}
    (enough : 2 * Nat.log2 (bound + 1) < rounds) (within : table.entries.length ≤ bound) :
    Enough rounds table := by
  exact Nat.lt_of_le_of_lt
    (Nat.mul_le_mul_left 2 (log2_le_log2 (Nat.succ_le_succ within))) enough

/-- Only the entries of the table are allocated. -/
def Realizes (nodes : Nodes V) (table : Table Addr V) : Prop :=
  ∃ tree, Holds (fun _ => none) nodes table tree

variable {others : Addr → Option (Node Addr Addr V)}
  {nodes : Nodes V} {table : Table Addr V}
variable {tree : RedBlack.Tree (Entry Addr Addr V)} {rounds : Nat}

namespace Holds

/-- The tree is not higher than the number of rounds. -/
theorem height_lt (holds : Holds others nodes table tree) (enough : Enough rounds table) :
    tree.height < rounds := by
  have high := holds.isTree.redBlack.height_le
  rw [Enough, holds.entries, List.length_map] at enough
  exact Nat.lt_of_le_of_lt high enough

theorem table_keys (holds : Holds others nodes table tree) :
    table.keys = tree.toList.map Entry.key := by
  rw [Table.keys, holds.entries, List.map_map]
  rfl

/-- The addresses of the entries are the keys of the table. -/
theorem addresses_eq (holds : Holds others nodes table tree) :
    addresses tree.toList = table.keys := by
  rw [holds.table_keys]
  exact List.map_congr_left fun entry member => (holds.keys entry member).symm

/-- The entry of a key. -/
theorem exists_entry (holds : Holds others nodes table tree)
    {key : Addr} (member : key ∈ table.keys) :
    ∃ entry ∈ tree.toList, entry.key = key ∧ entry.address = key := by
  rw [holds.table_keys] at member
  rcases List.mem_map.mp member with ⟨entry, isEntry, rfl⟩
  exact ⟨entry, isEntry, rfl, (holds.keys entry isEntry).symm⟩

/-- The entry of a key is allocated, at the key. -/
theorem node_eq (holds : Holds others nodes table tree) {key : Addr} {value : V}
    (found : table.find? key = some value) :
    ∃ node, nodes.node key = some node ∧ node.key = key ∧ node.value = value := by
  have member := Table.find?_eq_some.mp found
  rw [holds.entries] at member
  rcases List.mem_map.mp member with ⟨entry, isEntry, same⟩
  rcases Path.exists_fill isEntry with ⟨path, color, left, right, rfl⟩
  have isNode := node_of_represents ⟨.left, color, entry, right⟩ path left
    holds.isTree.represents
  have isKey : entry.key = key := congrArg Prod.fst same
  rw [← holds.keys entry isEntry, isKey] at isNode
  exact ⟨_, isNode, isKey, congrArg Prod.snd same⟩

/-- What a search for the first entry with a property finds. -/
theorem find_address (holds : Holds others nodes table tree) (test : Addr → Bool) :
    (tree.toList.find? fun entry => test entry.key).map Entry.address =
      table.keys.find? test := by
  rw [holds.table_keys, List.find?_map]
  cases found : tree.toList.find? (test ∘ Entry.key) with
  | none =>
      have found : (tree.toList.find? fun entry => test entry.key) = none := found
      rw [found]
      rfl
  | some entry =>
      have isFound : (tree.toList.find? fun entry => test entry.key) = some entry := found
      rw [isFound]
      exact congrArg some (holds.keys entry (List.mem_of_find?_eq_some found)).symm

/-! ## Searching and visiting -/

theorem search_spec (holds : Holds others nodes table tree)
    (enough : Enough rounds table) (key : Addr) :
    search rounds key nodes = (.ok ((table.find? key).map fun _ => key), nodes) := by
  have found : find rounds key nodes =
      (.ok (table.keys.find? fun other => other = key), nodes) := by
    rw [← holds.find_address fun other => other = key]
    convert find_spec holds.isTree key (holds.height_lt enough)
  rw [search, found]
  cases isFound : table.find? key with
  | none =>
      have absent := Table.find?_eq_none.mp isFound
      rw [List.find?_eq_none.mpr]
      · rfl
      · intro other member same
        rw [decide_eq_true_eq] at same
        exact absent (same ▸ member)
  | some value =>
      have member : key ∈ table.keys := Table.mem_keys.mpr ⟨value, isFound⟩
      cases isFirst : table.keys.find? fun other => other = key with
      | none =>
          have differs := List.find?_eq_none.mp isFirst key member
          simp at differs
      | some other =>
          have same := List.find?_some isFirst
          rw [decide_eq_true_eq] at same
          rw [same]
          rfl

theorem first_spec (holds : Holds others nodes table tree)
    (enough : Enough rounds table) (key : Addr) :
    first rounds key nodes = (.ok (table.nfind? key), nodes) := by
  have found := nfind_spec holds.isTree key (holds.height_lt enough)
  rw [holds.find_address fun other => key ≤ other] at found
  exact found

theorem next_spec (holds : Holds others nodes table tree)
    (enough : Enough rounds table) {node : Addr}
    (member : node ∈ table.keys) :
    next rounds node nodes = (.ok (table.next? node), nodes) := by
  rcases holds.exists_entry member with ⟨entry, isEntry, isKey, isAddress⟩
  rcases Path.exists_fill isEntry with ⟨path, color, left, right, rfl⟩
  have found := RedBlack.next_spec path color left right entry holds.isTree.represents
    (holds.height_lt enough)
  have listed := Path.toList_fill path (.node color left entry right)
  have split : table.entries =
      (path.before ++ left.toList).map (fun entry => (entry.key, entry.value)) ++
        (entry.key, entry.value) ::
        (right.toList ++ path.after).map fun entry => (entry.key, entry.value) := by
    rw [holds.entries, listed]
    simp [Tree.toList]
  have later : ∀ other ∈ right.toList ++ path.after, other.key = other.address := by
    intro other isLater
    apply holds.keys
    rw [listed]
    simp only [Tree.toList, List.mem_append, List.mem_cons] at isLater ⊢
    tauto
  have isNext := Table.next?_eq split
  simp only at isNext
  rw [isKey] at isNext
  rw [isAddress] at found
  rw [isNext, next, found]
  cases isRest : right.toList ++ path.after with
  | nil => rfl
  | cons following rest =>
      rw [isRest] at later
      have same := later following (List.mem_cons_self ..)
      simp [same]

/-! ## Changing -/

/-- Something else is allocated, or freed. -/
theorem elsewhere (holds : Holds others nodes table tree)
    {key : Addr} (absent : key ∉ table.keys) (node : Option (Node Addr Addr V)) :
    Holds (Function.update others key node)
      { nodes with node := Function.update nodes.node key node } table tree := by
  have outside : key ∉ addresses tree.toList := by
    rw [holds.addresses_eq]
    exact absent
  rcases holds with ⟨⟨represents, redBlack, ordered⟩, entries, keys⟩
  refine ⟨⟨⟨represents.root, ?_, represents.distinct, ?_⟩, redBlack, ordered⟩,
    entries, keys⟩
  · apply represents.cells.update
    rw [Tree.cells_addresses]
    exact outside
  · intro address absent
    by_cases isKey : address = key
    · rw [isKey, Function.update_self]
      exact Function.update_self key _ nodes.node
    · rw [Function.update_of_ne isKey]
      exact (Function.update_of_ne isKey _ nodes.node).trans
        (represents.outside address absent)

/-- Assigning to the members of an entry changes its value in the table. -/
theorem assign_spec (holds : Holds others nodes table tree) {key : Addr}
    (member : key ∈ table.keys) (change : V → V) :
    ∃ after tree', assign key change nodes = (.ok ⟨⟩, after) ∧
      Holds others after (table.modify key change) tree' := by
  rcases holds.exists_entry member with ⟨entry, isEntry, isKey, isAddress⟩
  rcases Path.exists_fill isEntry with ⟨path, color, left, right, rfl⟩
  rcases holds with ⟨⟨represents, redBlack, ordered⟩, entries, keys⟩
  rcases setValue_spec ⟨.left, color, entry, right⟩ path left represents change with
    ⟨after, isAfter, represents⟩
  have redBlack : IsRedBlack
      (Path.fill (⟨.left, color, entry, right⟩ :: path) left) := redBlack
  have listed (value : V) : (Path.fill
      (⟨.left, color, { entry with value }, right⟩ :: path) left).toList =
      path.before ++ left.toList ++ { entry with value } ::
        (right.toList ++ path.after) := by
    rw [Path.fill_cons, Path.toList_fill]
    simp [Frame.plug, Tree.make, Tree.toList]
  have before : (Path.fill path (.node color left entry right)).toList =
      path.before ++ left.toList ++ entry :: (right.toList ++ path.after) :=
        listed entry.value
  rw [before] at entries keys
  refine ⟨after, _, ?_, ⟨represents, Path.Fits.redBlack_rename redBlack _, ?_⟩, ?_, ?_⟩
  · rw [← isAddress]
    exact isAfter
  · rw [Ordered, before] at ordered
    rw [Ordered, listed]
    rw [← List.pairwise_map] at ordered ⊢
    simpa using ordered
  · have split : table.entries = (path.before ++ left.toList).map (fun entry =>
        (entry.key, entry.value)) ++ (entry.key, entry.value) ::
        (right.toList ++ path.after).map fun entry => (entry.key, entry.value) := by
      rw [entries]
      simp
    rw [← isKey, Table.modify_entries change split, listed]
    simp
  · intro other isOther
    rw [listed, List.mem_append, List.mem_cons] at isOther
    rcases isOther with isBefore | rfl | isAfter
    · exact keys other (List.mem_append_left _ isBefore)
    · exact keys entry (List.mem_append_right _ (List.mem_cons_self ..))
    · exact keys other (List.mem_append_right _ (List.mem_cons_of_mem _ isAfter))

/-- Assigning to the members of an entry that is not in the table yet. -/
theorem assign_outside {key : Addr} {node : Node Addr Addr V}
    (holds : Holds (Function.update others key (some node)) nodes table tree)
    (absent : key ∉ table.keys) (change : V → V) :
    ∃ after, assign key change nodes = (.ok ⟨⟩, after) ∧ Holds (Function.update others key
      (some { node with value := change node.value })) after table tree := by
  have outside := absent
  rw [← holds.addresses_eq] at outside
  have isNode : nodes.node key = some node := by
    rw [holds.isTree.represents.outside key outside, Function.update_self]
  have changed := holds.elsewhere absent (some { node with value := change node.value })
  rw [Function.update_idem] at changed
  exact ⟨_, write_of_node isNode _, changed⟩

/-- Inserting an allocated node with a new key. -/
theorem insert_spec {key : Addr} {value : V}
    {color : Color} {left right parent : Option Addr}
    (holds : Holds (Function.update (fun _ => none) key
      (some ⟨key, value, left, right, parent, color⟩)) nodes table tree)
    (enough : Enough rounds table) (absent : key ∉ table.keys) :
    ∃ after, insert rounds (some key) nodes = (.ok none, after) ∧
      Realizes after (table.insert key value) := by
  have outside : key ∉ addresses tree.toList := by
    rw [holds.addresses_eq]
    exact absent
  have isNode : nodes.node key = some ⟨key, value, left, right, parent, color⟩ := by
    rw [holds.isTree.represents.outside key outside, Function.update_self]
  rcases RedBlack.insert_spec holds.isTree isNode outside (holds.height_lt enough) with
    ⟨entry, isEntry, isKey, _⟩ | ⟨after, larger,
      smaller, greater, isAfter, isLarger, isSplit, isListed, isSmaller, isGreater⟩
  · refine absurd ?_ absent
    rw [holds.table_keys, List.mem_map]
    exact ⟨entry, isEntry, isKey⟩
  · refine ⟨after, isAfter, larger, ⟨isLarger.represents.congr ?_, isLarger.redBlack,
      isLarger.ordered⟩, ?_, ?_⟩
    · intro address notListed
      apply Function.update_of_ne
      rintro rfl
      apply notListed
      rw [isListed]
      simp [Node.entry]
    · have isNone : table.find? key = none := Table.find?_eq_none.mpr absent
      rw [Table.insert, isNone]
      simp only [Option.isSome_none, Bool.false_eq_true, if_false]
      rw [holds.entries, isSplit, isListed]
      have less : (smaller.map fun entry => (entry.key, entry.value)).filter (fun entry =>
          entry.1 < key) = smaller.map fun entry => (entry.key, entry.value) := by
        apply List.filter_eq_self.mpr
        intro entry member
        rcases List.mem_map.mp member with ⟨first, isFirst, rfl⟩
        exact decide_eq_true (isSmaller first isFirst)
      have notLess : (greater.map fun entry => (entry.key, entry.value)).filter
          (fun entry =>
          entry.1 < key) = [] := by
        apply List.filter_eq_nil_iff.mpr
        intro entry member
        rcases List.mem_map.mp member with ⟨second, isSecond, rfl⟩
        simpa using (isGreater second isSecond).le
      have notGreater : (smaller.map fun entry => (entry.key, entry.value)).filter
          (fun entry =>
          key < entry.1) = [] := by
        apply List.filter_eq_nil_iff.mpr
        intro entry member
        rcases List.mem_map.mp member with ⟨first, isFirst, rfl⟩
        simpa using (isSmaller first isFirst).le
      have more : (greater.map fun entry => (entry.key, entry.value)).filter (fun entry =>
          key < entry.1) = greater.map fun entry => (entry.key, entry.value) := by
        apply List.filter_eq_self.mpr
        intro entry member
        rcases List.mem_map.mp member with ⟨second, isSecond, rfl⟩
        exact decide_eq_true (isGreater second isSecond)
      simp only [List.map_append, List.filter_append, less, notLess, notGreater, more,
        List.append_nil, List.nil_append, List.map_cons]
      rfl
    · intro entry isEntry
      rw [isListed, List.mem_append, List.mem_cons] at isEntry
      rcases isEntry with inSmaller | rfl | inGreater
      · exact holds.keys entry (by simp [isSplit, inSmaller])
      · rfl
      · exact holds.keys entry (by simp [isSplit, inGreater])

/-- Removing an entry, which stays allocated. -/
theorem remove_spec (holds : Holds (fun _ => none) nodes table tree)
    (enough : Enough rounds table) {key : Addr} (member : key ∈ table.keys) :
    ∃ after node smaller, remove rounds (some key) nodes = (.ok (some key), after) ∧
      table.find? key = some node.value ∧
      Holds (Function.update (fun _ => none) key (some node)) after
        (table.erase key) smaller := by
  rcases holds.exists_entry member with ⟨entry, isEntry, isKey, isAddress⟩
  rcases RedBlack.remove_spec holds.isTree isEntry (holds.height_lt enough) with
    ⟨after, smallerTree, node, smaller, greater,
      isAfter, isTree, _, isValue, isSplit, isListed⟩
  rw [isAddress] at isAfter isTree
  have split : table.entries = smaller.map (fun entry => (entry.key, entry.value)) ++
      (key, entry.value) :: greater.map fun entry => (entry.key, entry.value) := by
    rw [holds.entries, isSplit, ← isKey]
    simp
  refine ⟨after, node, smallerTree, isAfter, ?_, isTree, ?_, ?_⟩
  · rw [isValue, Table.find?_eq_some, split]
    exact List.mem_append_right _ (List.mem_cons_self ..)
  · rw [Table.erase_entries split, isListed, List.map_append]
  · intro other isOther
    apply holds.keys other
    rw [isListed, List.mem_append] at isOther
    rw [isSplit, List.mem_append, List.mem_cons]
    tauto

end Holds

/-! ## Creating and freeing -/

namespace Realizes

variable {key : Addr}

theorem initial : Realizes ⟨none, fun _ => none⟩ (.empty : Table Addr V) :=
  ⟨.leaf, ⟨⟨rfl, .nil, List.nodup_nil, fun _ _ => rfl⟩, .leaf, .nil⟩, rfl,
    fun _ member => by cases member⟩

theorem search_spec (realizes : Realizes nodes table)
    (enough : Enough rounds table) (key : Addr) :
    search rounds key nodes = (.ok ((table.find? key).map fun _ => key), nodes) := by
  rcases realizes with ⟨tree, holds⟩
  exact holds.search_spec enough key

theorem first_spec (realizes : Realizes nodes table)
    (enough : Enough rounds table) (key : Addr) :
    first rounds key nodes = (.ok (table.nfind? key), nodes) := by
  rcases realizes with ⟨tree, holds⟩
  exact holds.first_spec enough key

theorem next_spec (realizes : Realizes nodes table) (enough : Enough rounds table)
    (member : key ∈ table.keys) :
    next rounds key nodes = (.ok (table.next? key), nodes) := by
  rcases realizes with ⟨tree, holds⟩
  exact holds.next_spec enough member

theorem assign_spec (realizes : Realizes nodes table) (member : key ∈ table.keys)
    (change : V → V) : ∃ after, assign key change nodes = (.ok ⟨⟩, after) ∧
      Realizes after (table.modify key change) := by
  rcases realizes with ⟨tree, holds⟩
  rcases holds.assign_spec member change with ⟨after, tree', isAfter, holds⟩
  exact ⟨after, isAfter, tree', holds⟩

/-- A node is allocated exactly if its address is a key of the table. -/
theorem allocated_iff (realizes : Realizes nodes table) :
    (nodes.node key).isSome = true ↔ key ∈ table.keys := by
  rcases realizes with ⟨tree, holds⟩
  constructor
  · intro allocated
    by_contra absent
    rw [← holds.addresses_eq] at absent
    rw [holds.isTree.represents.outside key absent] at allocated
    cases allocated
  · intro member
    rcases Table.mem_keys.mp member with ⟨value, found⟩
    rcases holds.node_eq found with ⟨node, isNode, _, _⟩
    rw [isNode]
    rfl

/-- An entry that has been allocated is not in the table yet. -/
theorem allocate_spec (realizes : Realizes nodes table)
    (fresh : key ∉ table.keys) (value : V) :
    ∃ after tree, allocate key value nodes = (.ok ⟨⟩, after) ∧
      Holds (Function.update (fun _ => none) key
        (some ⟨key, value, none, none, none, .black⟩))
        after table tree := by
  rcases realizes with ⟨tree, holds⟩
  exact ⟨_, tree, rfl, holds.elsewhere fresh _⟩

/-- A new entry gets into the table. -/
theorem new_spec (realizes : Realizes nodes table) (enough : Enough rounds table)
    (fresh : key ∉ table.keys) (value : V) :
    ∃ after, new rounds (some key) value nodes = (.ok (some key), after) ∧
      Realizes after (table.insert key value) := by
  rcases realizes.allocate_spec fresh value with ⟨middle, tree, isMiddle, allocated⟩
  have searched := allocated.search_spec enough key
  rw [Table.find?_eq_none.mpr fresh] at searched
  rcases allocated.insert_spec enough fresh with ⟨after, isAfter, realizes⟩
  refine ⟨after, ?_, realizes⟩
  rw [new, Fallible.bind_of_ok isMiddle, Fallible.bind_of_ok searched]
  simp only [Option.map_none, Option.isSome_none, Bool.false_eq_true, if_false]
  rw [Fallible.bind_of_ok isAfter]
  rfl

/-- An entry that is taken out of the tree is still allocated. -/
theorem detach_spec (realizes : Realizes nodes table) (enough : Enough rounds table)
    (member : key ∈ table.keys) :
    ∃ after node, detach rounds key nodes = (.ok ⟨⟩, after) ∧
      after.node key = some node ∧ table.find? key = some node.value ∧
      ∃ tree, Holds (Function.update (fun _ => none) key (some node)) after
        (table.erase key)
        tree := by
  rcases realizes with ⟨tree, holds⟩
  rcases Table.mem_keys.mp member with ⟨value, found⟩
  rcases holds.node_eq found with ⟨node, isNode, isKey, _⟩
  have searched := holds.search_spec enough key
  rw [found] at searched
  rcases holds.remove_spec enough member with
    ⟨after, removed, smaller, isAfter, isValue, still⟩
  have absent : key ∉ (table.erase key).keys := by
    rw [← Table.find?_eq_none, Table.find?_erase, if_pos rfl]
  have isRemoved : after.node key = some removed := by
    rw [← still.addresses_eq] at absent
    rw [still.isTree.represents.outside key absent, Function.update_self]
  refine ⟨after, removed, ?_, isRemoved, isValue, smaller, still⟩
  rw [detach, Fallible.bind_of_ok (load_of_node isNode),
    isKey, Fallible.bind_of_ok searched]
  rw [Option.map_some, if_pos rfl, Fallible.bind_of_ok isAfter]
  rfl

/-- The memory of an entry that is not in the table is freed. -/
theorem release_spec {node : Node Addr Addr V} {tree : RedBlack.Tree (Entry Addr Addr V)}
    (holds : Holds (Function.update (fun _ => none) key (some node)) nodes table tree)
    (absent : key ∉ table.keys) :
    ∃ after, release key nodes = (.ok ⟨⟩, after) ∧ Realizes after table := by
  have outside := absent
  rw [← holds.addresses_eq] at outside
  have isNode : nodes.node key = some node := by
    rw [holds.isTree.represents.outside key outside, Function.update_self]
  have gone := holds.elsewhere absent none
  rw [Function.update_idem, Function.update_eq_self] at gone
  exact ⟨_, Fallible.bind_of_ok (load_of_node isNode), tree, gone⟩

theorem not_mem_erase (table : Table Addr V) (key : Addr) :
    key ∉ (table.erase key).keys := by
  rw [← Table.find?_eq_none, Table.find?_erase, if_pos rfl]

/-- A freed entry is neither in the table nor allocated any more. -/
theorem free_spec (realizes : Realizes nodes table) (enough : Enough rounds table)
    (member : key ∈ table.keys) : ∃ after, free rounds key nodes = (.ok ⟨⟩, after) ∧
      Realizes after (table.erase key) := by
  rcases realizes.detach_spec enough member with
    ⟨middle, node, isMiddle, _, _, tree, holds⟩
  rcases release_spec holds (not_mem_erase table key) with ⟨after, isAfter, realizes⟩
  exact ⟨after, (Fallible.bind_of_ok isMiddle).trans isAfter, realizes⟩

/-! ## Checking, sweeping and freeing all -/

theorem load_spec (realizes : Realizes nodes table) {value : V}
    (found : table.find? key = some value) :
    ∃ node, load (some key) nodes = (.ok node, nodes) ∧ node.value = value := by
  rcases realizes with ⟨tree, holds⟩
  rcases holds.node_eq found with ⟨node, isNode, _, isValue⟩
  exact ⟨node, load_of_node isNode, isValue⟩

theorem members_spec (realizes : Realizes nodes table) {value : V}
    (found : table.find? key = some value) : members key nodes = (.ok value, nodes) := by
  rcases realizes.load_spec found with ⟨node, isLoaded, rfl⟩
  exact Fallible.bind_of_ok isLoaded

/-- Whatever reference is checked, only entries are accessed. -/
theorem check_spec (realizes : Realizes nodes table) (enough : Enough rounds table)
    (isValid : V → Bool) (ref : Addr) : check isValid rounds ref nodes =
      (.ok (((table.find? ref).filter isValid).map fun _ => ref), nodes) := by
  have searched := realizes.search_spec enough ref
  rw [check]
  cases found : table.find? ref with
  | none =>
      rw [found] at searched
      rw [Fallible.bind_of_ok searched]
      rfl
  | some value =>
      rw [found] at searched
      rcases realizes.load_spec found with ⟨node, isLoaded, rfl⟩
      rw [Fallible.bind_of_ok searched]
      refine (Fallible.bind_of_ok isLoaded).trans ?_
      cases valid : isValid node.value <;> simp [Option.filter, valid]

end Realizes

/-- What is freed one after the other are the keys of a table, if the first function
finds its least key and the second one removes a key from it, for any way in which a
state makes up a table. -/
theorem drain_spec {State : Type} {makesUp : State → Table Addr V → Prop}
    {first : Fallible State HeapFault (Option Addr)}
    {free : Addr → Fallible State HeapFault PUnit}
    {state : State} {bound count : Nat} (found : ∀ {state table}, makesUp state table →
      table.entries.length ≤ bound → first state = (.ok (table.nfind? 0), state))
    (freed : ∀ {state table key}, makesUp state table → table.entries.length ≤ bound →
      key ∈ table.keys → ∃ after, free key state = (.ok ⟨⟩, after) ∧
        makesUp after (table.erase key))
    (isTable : makesUp state table) (within : table.entries.length ≤ bound)
    (less : table.entries.length < count) :
    ∃ final, drain first free count state = (.ok table.keys, final) ∧
      makesUp final .empty := by
  induction count generalizing state table with
  | zero => cases less
  | succ count inductionHypothesis =>
      have found := found isTable within
      rw [Table.nfind?_least Addr.zero_le] at found
      rw [drain, Fallible.bind_of_ok found]
      cases isList : table.entries with
      | nil =>
          have isEmpty : table = .empty := Table.eq_of_entries isList
          refine ⟨state, ?_, isEmpty ▸ isTable⟩
          rw [Table.keys, isList]
          rfl
      | cons entry rest =>
          have member : entry.1 ∈ table.keys := by
            rw [Table.keys, isList]
            exact List.mem_cons_self ..
          have remaining : (table.erase entry.1).entries = rest :=
            @Table.erase_entries _ _ _ table entry.1 entry.2 [] rest isList
          rw [isList, List.length_cons] at within less
          rcases freed isTable (isList ▸ within) member with ⟨middle, isMiddle, isSmaller⟩
          rcases inductionHypothesis isSmaller (by rw [remaining]; omega)
            (by rw [remaining]; omega) with ⟨final, isFinal, isEmpty⟩
          refine ⟨final, ?_, isEmpty⟩
          refine (Fallible.bind_of_ok isMiddle).trans ?_
          rw [Fallible.bind_of_ok isFinal, Table.keys, Table.keys, remaining, isList]
          rfl

/-- What visits one entry after the other sweeps a table, if it reads the members of
entries, finds the next key, and releases entries, for any way in which a state makes up
a table. The induction is on the entries that are left to visit. -/
theorem sweepFrom_spec {State ε : Type} {makesUp : State → Table Addr V → Prop}
    {members : Addr → Fallible State HeapFault V}
    {next : Addr → Fallible State HeapFault (Option Addr)} {owned : V → Bool}
    {release : Addr → V → Fallible State HeapFault (List ε)} {cancel : V → V}
    {effect : Addr → V → List ε} {state : State}
    {count : Nat} {before after : List (Addr × V)} {log : List ε}
    (isMembers : ∀ {state table key value}, makesUp state table →
      table.find? key = some value →
      members key state = (.ok value, state))
    (isNext : ∀ {state table key}, makesUp state table → key ∈ table.keys →
      next key state = (.ok (table.next? key), state))
    (isRelease : ∀ {state table key value}, makesUp state table →
      table.find? key = some value → owned value = true →
      ∃ after, release key value state = (.ok (effect key value), after) ∧
        makesUp after (table.modify key cancel))
    (isTable : makesUp state table) (isSplit : table.entries = before ++ after)
    (less : after.length < count) :
    ∃ final, sweepFrom members next owned release count
      (after.head?.map Prod.fst) log state =
        (.ok (Table.sweepFrom owned cancel effect after.length (after.head?.map Prod.fst)
          (table, log)).2, final) ∧
      makesUp final
        (Table.sweepFrom owned cancel effect after.length (after.head?.map Prod.fst)
        (table, log)).1 := by
  induction after generalizing state table before count log with
  | nil =>
      cases count with
      | zero => cases less
      | succ count => exact ⟨state, rfl, isTable⟩
  | cons entry rest inductionHypothesis =>
      cases count with
      | zero => cases less
      | succ count =>
          have fewer : rest.length < count := Nat.lt_of_succ_lt_succ less
          have found : table.find? entry.1 = some entry.2 := by
            rw [Table.find?_eq_some, isSplit]
            exact List.mem_append_right _ (List.mem_cons_self ..)
          simp only [List.head?_cons, Option.map_some,
            List.length_cons, Table.sweepFrom, found]
          rw [sweepFrom, Fallible.bind_of_ok (isMembers isTable found)]
          cases isOwned : owned entry.2 with
          | true =>
              simp only [if_true]
              have changed := Table.modify_entries cancel isSplit
              have still : entry.1 ∈ (table.modify entry.1 cancel).keys := by
                rw [Table.keys, changed]
                simp
              rcases isRelease isTable found isOwned with ⟨middle, isMiddle, isSmaller⟩
              rw [Fallible.bind_of_ok isMiddle, Fallible.bind_of_ok
                (isNext isSmaller still),
                Table.next?_eq changed]
              exact inductionHypothesis isSmaller
                (by rw [changed, List.append_cons]) fewer
          | false =>
              have member : entry.1 ∈ table.keys := Table.mem_keys.mpr ⟨entry.2, found⟩
              simp only [Bool.false_eq_true, if_false]
              have nothing : (pure [] : Fallible State HeapFault (List ε)) state =
                  (.ok [], state) :=
                rfl
              rw [Fallible.bind_of_ok nothing, Fallible.bind_of_ok
                (isNext isTable member),
                Table.next?_eq isSplit, List.append_nil]
              exact inductionHypothesis isTable (by rw [isSplit, List.append_cons]) fewer

/-- The loops over all entries sweep the table. -/
theorem Realizes.sweep_spec {ε : Type} (owned : V → Bool) (cancel : V → V)
    (effect : Addr → V → List ε) {count : Nat} (realizes : Realizes nodes table)
    (enough : Enough rounds table) (less : table.entries.length < count) :
    ∃ final, sweep owned cancel effect rounds count nodes =
        (.ok (table.sweep owned cancel effect 0 []).2, final) ∧
      Realizes final (table.sweep owned cancel effect 0 []).1 := by
  let makesUp (nodes : Nodes V) (other : Table Addr V) : Prop :=
    Realizes nodes other ∧ other.entries.length ≤ table.entries.length
  let release (node : Addr) (value : V) : Call V (List ε) := do
    assign node cancel
    return effect node value
  have swept := @sweepFrom_spec V table _ ε makesUp members
      (next rounds) owned release cancel effect
    nodes count [] table.entries [] (fun isTable found => isTable.1.members_spec found)
    (fun isTable member => isTable.1.next_spec (.of_length enough isTable.2) member)
    (fun {state other key value} isTable found _ => by
      rcases isTable.1.assign_spec (Table.mem_keys.mpr ⟨value, found⟩) cancel with
        ⟨after, isAfter, realizes⟩
      refine ⟨after, Fallible.bind_of_ok isAfter, realizes, ?_⟩
      rw [Table.modify, List.length_map]
      exact isTable.2)
    ⟨realizes, le_rfl⟩ (List.nil_append _).symm less
  rw [sweep, Fallible.bind_of_ok (realizes.first_spec enough 0), Table.sweep,
    Table.nfind?_least Addr.zero_le]
  rcases swept with ⟨final, isFinal, realizes, _⟩
  exact ⟨final, isFinal, realizes⟩

/-- Freeing all entries takes them in the order of their keys, and leaves nothing
allocated. -/
theorem Realizes.freeAll_spec {count : Nat} (realizes : Realizes nodes table)
    (enough : Enough rounds table) (less : table.entries.length < count) :
    ∃ final, freeAll rounds count nodes = (.ok table.keys, final) ∧
      Realizes final .empty := by
  apply drain_spec _ _ realizes le_rfl less
  · intro nodes smaller realizes within
    exact realizes.first_spec (.of_length enough within) 0
  · intro nodes smaller key realizes within member
    exact realizes.free_spec (.of_length enough within) member

end LuaJack.Database
