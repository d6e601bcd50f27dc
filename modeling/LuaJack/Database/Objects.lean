import LuaJack.Database.Ports

/-!
# What the functions do to objects in memory

The entries in memory are those of the databases of a process, and the queues in memory
are its queues of ports.  Each function does to the memory what it is said to do to the
process. -/

namespace LuaJack.Database

open RedBlack SimpleQueue

/-- The memory is that of a process. -/
structure Heap.Realizes (heap : Heap) (process : Process) : Prop where
  nodes : ∀ kind, Database.Realizes (heap.nodes kind) (process.world.table kind)
  wired : Wired heap.links process
  linked : process.Linked

/-- There are at most so many objects of each kind. -/
def Bounded (process : Process) (bound : Nat) : Prop :=
  ∀ kind, (process.world.table kind).entries.length ≤ bound

/-- The process with another database of a kind of objects. -/
def withTable (process : Process) (kind : ObjectKind)
    (table : Table Addr kind.Entry) : Process :=
  { process with world := process.world.setTable kind table }

/-- The function does not assign to the member `cud` of a port. -/
def Keeps : (kind : ObjectKind) → (kind.Entry → kind.Entry) → Prop
  | .port, change => ∀ pud : Pud, (change pud).cud = pud.cud
  | _, _ => True

/-! ## Functions on parts of the memory -/

section

variable {β : Type} {kind : ObjectKind} {base : (kind : ObjectKind) → Nodes kind.Entry}
variable {nodes after : Nodes kind.Entry} {links links' : Links Addr Addr} {value : β}

theorem on_of_ok {function : Call kind.Entry β}
    (returns : function (base kind) = (.ok value, after)) :
    on kind function ⟨base, links⟩ =
      (.ok value, ⟨Function.update base kind after, links⟩) :=
  Fallible.focus_of_ok returns

theorem on_update {function : Call kind.Entry β}
    (returns : function nodes = (.ok value, after)) :
    on kind function ⟨Function.update base kind nodes, links⟩ =
      (.ok value, ⟨Function.update base kind after, links⟩) := by
  rw [← Function.update_self kind nodes base] at returns
  rw [on_of_ok returns, Function.update_idem]

/-- A function that changes nothing. -/
theorem on_same {function : Call kind.Entry β}
    (returns : function (base kind) = (.ok value, base kind)) :
    on kind function ⟨base, links⟩ = (.ok value, ⟨base, links⟩) := by
  rw [on_of_ok returns, Function.update_eq_self]

theorem onLinks_of_ok {function : Macro Addr Addr β}
    (returns : function links = (.ok value, links')) :
    onLinks function ⟨base, links⟩ = (.ok value, ⟨base, links'⟩) :=
      Fallible.focus_of_ok returns

end

variable {heap after : Heap} {process : Process} {kind : ObjectKind} {key cud : Addr}
variable {rounds bound count : Nat}

/-- The databases, after one of them has changed. -/
theorem nodes_update
    (realizes : ∀ kind, Database.Realizes (heap.nodes kind) (process.world.table kind))
    {nodes : Nodes kind.Entry} {table : Table Addr kind.Entry}
    (isTable : Database.Realizes nodes table) (other : ObjectKind) :
    Database.Realizes (Function.update heap.nodes kind nodes other)
      ((withTable process kind table).world.table other) := by
  by_cases isKind : other = kind
  · subst isKind
    rw [Function.update_self, withTable, World.table_setTable]
    exact isTable
  · rw [Function.update_of_ne isKind, withTable, World.table_setTable_of_ne _ isKind]
    exact realizes other

/-- A key is in a database exactly if there is an entry. -/
theorem mem_keys_iff : key ∈ (process.world.table kind).keys ↔
    (process.world.search kind key).isSome = true := Table.mem_keys_iff_isSome

theorem not_mem_keys (absent : process.world.search kind key = none) :
    key ∉ (process.world.table kind).keys := Table.find?_eq_none.mp absent

namespace Heap.Realizes

theorem initial (descriptors : Finset Int) :
    Heap.empty.Realizes (.initial descriptors) where
  nodes := fun kind => by cases kind <;> exact Database.Realizes.initial
  wired := .initial descriptors
  linked := Process.linked_initial descriptors

/-! ## Creating -/

/-- `rud_new` and `tud_new`. -/
theorem new_spec (realizes : heap.Realizes process) (bounded : Bounded process bound)
    (enough : 2 * Nat.log2 (bound + 1) < rounds) (notClient : kind ≠ .client)
    (notPort : kind ≠ .port) (absent : process.world.search kind key = none)
    (entry : kind.Entry) :
    ∃ after, on kind (new rounds (some key) entry) heap = (.ok (some key), after) ∧
      after.Realizes (process.insertEntry kind key entry) := by
  rcases (realizes.nodes kind).new_spec (.of_length enough (bounded kind))
    (not_mem_keys absent)
    entry with ⟨nodes, isNodes, isTable⟩
  have others {other : ObjectKind} (different : other ≠ kind) (otherKey : Addr) :=
    @search_insertEntry_of_ne process key kind other different entry otherKey
  refine ⟨_, on_of_ok isNodes, nodes_update realizes.nodes isTable,
    realizes.wired.congr rfl ?_ ?_, realizes.linked.congr rfl ?_ ?_⟩
  · exact fun cud => by rw [others notClient.symm]
  · exact fun pud => by rw [others notPort.symm]
  · exact fun pud => congrArg (Option.map Pud.cud) (others notPort.symm pud)
  · exact fun cud present => by rwa [others notClient.symm]

/-- `cud_new`. -/
theorem cudNew_spec (realizes : heap.Realizes process) (bounded : Bounded process bound)
    (enough : 2 * Nat.log2 (bound + 1) < rounds)
    (absent : process.world.search .client key = none) :
    ∃ after, cudNew rounds (some key) heap = (.ok (some key), after) ∧
      after.Realizes ((process.insertEntry .client key Cud.new).cudFifoInit key) := by
  rcases heap with ⟨base, links⟩
  have fresh := not_mem_keys absent
  have enough := Enough.of_length enough (bounded .client)
  rcases (realizes.nodes .client).allocate_spec fresh Cud.new with
    ⟨middle, tree, isMiddle, allocated⟩
  have searched := allocated.search_spec enough key
  rw [Table.find?_eq_none.mpr fresh] at searched
  rcases allocated.insert_spec enough fresh with ⟨nodes, isNodes, isTable⟩
  rcases realizes.wired.cudInit absent Cud.new with ⟨wires, isWires, wired⟩
  have headed : allocateHead key links = (.ok ⟨⟩, (allocateHead key links).2) := rfl
  refine ⟨⟨Function.update base .client nodes, wires⟩,
    ?_, nodes_update realizes.nodes isTable, wired, ?_⟩
  · rw [cudNew, Fallible.bind_of_ok (on_of_ok isMiddle),
      Fallible.bind_of_ok (onLinks_of_ok headed),
      Fallible.bind_of_ok (on_update searched)]
    simp only [Option.map_none, Option.isSome_none, Bool.false_eq_true, if_false]
    rw [Fallible.bind_of_ok (onLinks_of_ok isWires),
      Fallible.bind_of_ok (on_update isNodes)]
    rfl
  · apply realizes.linked.init absent rfl
    · intro pud
      have still :=
        @search_insertEntry_of_ne process key .client .port (by simp) Cud.new pud
      exact congrArg (Option.map Pud.cud) still
    · exact fun cud present =>
        (isSome_insertEntry absent Cud.new .client cud).mpr (.inr present)

/-- `pud_new`. -/
theorem pudNew_spec (realizes : heap.Realizes process) (bounded : Bounded process bound)
    (enough : 2 * Nat.log2 (bound + 1) < rounds)
    (absent : process.world.search .port key = none)
    (client : (process.world.search .client cud).isSome = true) :
    ∃ after, pudNew rounds cud (some key) heap = (.ok (some key), after) ∧
      after.Realizes
        ((process.insertEntry .port key (Pud.new cud)).cudFifoInsert cud key) := by
  rcases heap with ⟨base, links⟩
  have fresh := not_mem_keys absent
  have enough := Enough.of_length enough (bounded .port)
  rcases (realizes.nodes .port).allocate_spec fresh (Pud.new 0) with
    ⟨first, tree, isFirst, allocated⟩
  have searched := allocated.search_spec enough key
  rw [Table.find?_eq_none.mpr fresh] at searched
  rcases allocated.assign_outside fresh (fun pud => { pud with cud }) with
    ⟨second, isSecond, assigned⟩
  rcases assigned.insert_spec enough fresh with ⟨nodes, isNodes, isTable⟩
  rcases realizes.wired.pudInsert realizes.linked absent client (Pud.new cud) with
    ⟨wires, isWires, wired⟩
  have linking : allocateElm key links = (.ok ⟨⟩, (allocateElm key links).2) := rfl
  refine ⟨⟨Function.update base .port nodes, wires⟩,
    ?_, nodes_update realizes.nodes isTable, wired, ?_⟩
  · rw [pudNew, Fallible.bind_of_ok (on_of_ok isFirst),
      Fallible.bind_of_ok (onLinks_of_ok linking),
      Fallible.bind_of_ok (on_update searched)]
    simp only [Option.map_none, Option.isSome_none, Bool.false_eq_true, if_false]
    have inserted : cudFifoInsert cud key ⟨Function.update base .port first,
        (allocateElm key links).2⟩ = (.ok ⟨⟩,
        ⟨Function.update base .port second, wires⟩) := by
      rw [cudFifoInsert, Fallible.bind_of_ok (on_update isSecond)]
      exact onLinks_of_ok isWires
    rw [Fallible.bind_of_ok inserted, Fallible.bind_of_ok (on_update isNodes)]
    rfl
  · have isSome := isSome_insertEntry absent (Pud.new cud)
    apply realizes.linked.insert client (congrArg (Option.map Pud.cud) absent) rfl
    · intro pud
      have found := search_insertEntry absent (Pud.new cud) pud
      exact (congrArg (Option.map Pud.cud) found).trans
        (apply_ite (Option.map Pud.cud) _ _ _)
    · exact fun cud present => (isSome .client cud).mpr (.inr present)

/-! ## Checking and assigning -/

theorem check_spec (realizes : heap.Realizes process) (bounded : Bounded process bound)
    (enough : 2 * Nat.log2 (bound + 1) < rounds) (ref : Addr) :
    on kind (check kind.isValid rounds ref) heap =
      (.ok (((process.world.search kind ref).filter kind.isValid).map fun _ => ref),
        heap) :=
  on_same
    ((realizes.nodes kind).check_spec (.of_length enough (bounded kind)) kind.isValid ref)

theorem members_spec (realizes : heap.Realizes process) {entry : kind.Entry}
    (found : process.world.search kind key = some entry) :
    on kind (members key) heap = (.ok entry, heap) :=
  on_same ((realizes.nodes kind).members_spec found)

theorem first_spec (realizes : heap.Realizes process) (bounded : Bounded process bound)
    (enough : 2 * Nat.log2 (bound + 1) < rounds) (start : Addr) :
    on kind (first rounds start) heap =
      (.ok ((process.world.table kind).nfind? start), heap) :=
  on_same ((realizes.nodes kind).first_spec (.of_length enough (bounded kind)) start)

theorem next_spec (realizes : heap.Realizes process) (bounded : Bounded process bound)
    (enough : 2 * Nat.log2 (bound + 1) < rounds)
    (member : key ∈ (process.world.table kind).keys) :
    on kind (next rounds key) heap = (.ok ((process.world.table kind).next? key), heap) :=
  on_same ((realizes.nodes kind).next_spec (.of_length enough (bounded kind)) member)

/-- Only `cud_fifo_insert` assigns to the member `cud` of a port. -/
theorem assign_spec (realizes : heap.Realizes process)
    (member : key ∈ (process.world.table kind).keys)
    {change : kind.Entry → kind.Entry} (keeps : Keeps kind change) :
    ∃ after, on kind (assign key change) heap = (.ok ⟨⟩, after) ∧
      after.Realizes
        (withTable process kind ((process.world.table kind).modify key change)) := by
  rcases (realizes.nodes kind).assign_spec member change with ⟨nodes, isNodes, isTable⟩
  have searched (other : ObjectKind) (otherKey : Addr) :
      ((process.world.modifyEntry kind key change).search other otherKey).isSome =
        (process.world.search other otherKey).isSome := by
    by_cases isKind : other = kind
    · subst isKind
      rw [World.search_modifyEntry]
      split <;> simp
    · rw [World.search_modifyEntry_of_ne _ _ isKind]
  refine ⟨_, on_of_ok isNodes, nodes_update realizes.nodes isTable,
    realizes.wired.congr rfl ?_ ?_, realizes.linked.congr rfl ?_ ?_⟩
  · exact fun cud => by rw [← searched .client cud]; rfl
  · exact fun pud => by rw [← searched .port pud]; rfl
  · intro pud
    by_cases isPort : kind = .port
    · subst isPort
      have found := @World.search_modifyEntry process.world .port key change pud
      by_cases isKey : pud = key
      · rw [if_pos isKey] at found
        exact Process.portOwner_of_change found keeps
      · rw [if_neg isKey] at found
        exact congrArg (Option.map Pud.cud) found
    · exact congrArg (Option.map Pud.cud)
        (World.search_modifyEntry_of_ne _ _ (Ne.symm isPort) pud)
  · intro cud present
    rw [← searched .client cud] at present
    exact present

/-- Only the databases and the queues matter. -/
theorem congr {other : Process} (realizes : heap.Realizes process)
    (tables : ∀ kind, other.world.table kind = process.world.table kind)
    (fifo : other.fifo = process.fifo) : heap.Realizes other := by
  have searched (kind : ObjectKind) (key : Addr) :
      other.world.search kind key = process.world.search kind key := by
    rw [World.search, tables]
    rfl
  refine ⟨fun kind => ?_, realizes.wired.congr fifo ?_ ?_,
    realizes.linked.congr fifo ?_ ?_⟩
  · rw [tables]
    exact realizes.nodes kind
  · exact fun cud => by rw [searched]
  · exact fun pud => by rw [searched]
  · exact fun pud => congrArg (Option.map Pud.cud) (searched .port pud)
  · exact fun cud present => by rwa [searched]

end Heap.Realizes

/-! ## Closing -/

theorem withTable_self (process : Process) (kind : ObjectKind) :
    withTable process kind (process.world.table kind) = process := by
  cases kind <;> rfl

theorem withTable_withTable (process : Process) (kind : ObjectKind)
    (first second : Table Addr kind.Entry) :
    withTable (withTable process kind first) kind second =
      withTable process kind second := by
  cases kind <;> rfl

@[simp] theorem table_withTable (process : Process) (kind : ObjectKind)
    (table : Table Addr kind.Entry) :
    (withTable process kind table).world.table kind = table :=
  World.table_setTable ..

theorem search_withTable (process : Process)
    (kind : ObjectKind) (table : Table Addr kind.Entry)
    (key : Addr) :
    (withTable process kind table).world.search kind key = table.find? key := by
  rw [World.search, table_withTable]

theorem Bounded.withTable (bounded : Bounded process bound)
    {table : Table Addr kind.Entry}
    (within : table.entries.length ≤ bound) :
    Bounded (withTable process kind table) bound := by
  intro other
  by_cases isKind : other = kind
  · subst isKind
    rw [table_withTable]
    exact within
  · rw [Database.withTable, World.table_setTable_of_ne _ isKind]
    exact bounded other

theorem keeps_cancelValid (kind : ObjectKind) : Keeps kind kind.cancelValid := by
  cases kind with
  | port => exact Process.cancelValid_cud
  | client => trivial
  | ringbuffer => trivial
  | thread => trivial

/-- The loop over the objects that belong to a client does what releasing them one after
the other does to the databases, if each is released and marked as not valid. -/
theorem Heap.Realizes.closeAll_spec (realizes : heap.Realizes process)
    (bounded : Bounded process bound) (enough : 2 * Nat.log2 (bound + 1) < rounds)
    (less : bound < count) {free : Addr → kind.Entry → HeapCall (List Effect)}
    {effect : Addr → kind.Entry → Effect}
    (isFree : ∀ {heap table key entry}, heap.Realizes (withTable process kind table) →
      table.find? key = some entry → ∃ after, free key entry heap =
        (.ok [effect key entry], after) ∧
        after.Realizes (withTable process kind (table.modify key kind.cancelValid))) :
    ∃ effects after, closeAll kind rounds count cud free heap = (.ok effects, after) ∧
      after.Realizes { process with world := process.world.freeAll kind cud effect } ∧
      (process.world.freeAll kind cud effect).trace = process.world.trace ++ effects := by
  let makesUp (heap : Heap) (table : Table Addr kind.Entry) : Prop :=
    heap.Realizes (withTable process kind table) ∧ table.entries.length ≤ bound
  have swept := @sweepFrom_spec kind.Entry (process.world.table kind) _ _ makesUp
    (fun node => on kind (members node)) (fun node => on kind (next rounds node))
    (kind.ownedBy cud) free kind.cancelValid
      (fun key entry => [effect key entry]) heap count []
    (process.world.table kind).entries []
    (fun {heap table key entry} isTable found => by
      rw [← search_withTable process kind] at found
      exact isTable.1.members_spec found)
    (fun {heap table key} isTable member => by
      rw [← table_withTable process kind table] at member ⊢
      exact isTable.1.next_spec (bounded.withTable isTable.2) enough member)
    (fun {heap table key entry} isTable found _ => by
      rcases isFree isTable.1 found with ⟨after, isAfter, realizes⟩
      refine ⟨after, isAfter, realizes, ?_⟩
      rw [Table.modify, List.length_map]
      exact isTable.2)
    ⟨(withTable_self process kind).symm ▸ realizes, bounded kind⟩ (List.nil_append _).symm
    (Nat.lt_of_le_of_lt (bounded kind) less)
  have whole : (process.world.table kind).entries =
      [] ++ (process.world.table kind).entries := rfl
  have eqs := @Table.sweepFrom_eq _ _ _ _ (kind.ownedBy cud) kind.cancelValid
    (fun key entry => [effect key entry]) (process.world.table kind)
      [] _ _ [] whole le_rfl
  rcases swept with ⟨after, isAfter, final, _⟩
  refine ⟨(process.world.table kind).entries.flatMap
    (Table.logged (kind.ownedBy cud) fun key entry => [effect key entry]), after, ?_,
    final.congr ?_ rfl, World.freeAll_trace ..⟩
  · rw [closeAll, Fallible.bind_of_ok (realizes.first_spec bounded enough 0),
      Table.nfind?_least Addr.zero_le]
    refine isAfter.trans ?_
    rw [eqs.2]
    rfl
  · intro other
    by_cases isKind : other = kind
    · subst isKind
      rw [table_withTable]
      refine (World.freeAll_table ..).trans (Table.eq_of_entries ?_)
      rw [(Table.sweep_eq _ _ _ _ Addr.zero_le).1, eqs.1]
      rfl
    · rw [withTable, World.table_setTable_of_ne _ isKind]
      exact World.freeAll_table_of_ne _ _ _ _ isKind

/-- An object is marked as not valid. -/
theorem Heap.Realizes.cancel_spec {entry : kind.Entry} {table : Table Addr kind.Entry}
    (realizes : heap.Realizes (withTable process kind table))
    (found : table.find? key = some entry) :
    ∃ after, on kind (assign key kind.cancelValid) heap = (.ok ⟨⟩, after) ∧
      after.Realizes (withTable process kind (table.modify key kind.cancelValid)) := by
  have member : key ∈ ((withTable process kind table).world.table kind).keys := by
    rw [table_withTable]
    exact Table.mem_keys.mpr ⟨entry, found⟩
  have assigned := realizes.assign_spec member (keeps_cancelValid kind)
  rw [table_withTable, withTable_withTable] at assigned
  exact assigned

section

variable (realizes : heap.Realizes process) (bounded : Bounded process bound)
variable (enough : 2 * Nat.log2 (bound + 1) < rounds) (less : bound < count) (cud : Addr)
include realizes bounded enough less

theorem Heap.Realizes.threadFreeAll_spec :
    ∃ effects after, threadFreeAll rounds count cud heap = (.ok effects, after) ∧
      after.Realizes { process with
        world := process.world.freeAll .thread cud threadFree } ∧
      (process.world.freeAll .thread cud threadFree).trace =
        process.world.trace ++ effects := by
  apply realizes.closeAll_spec bounded enough less
  intro heap table key entry isTable found
  rcases isTable.cancel_spec found with ⟨after, isAfter, realizes⟩
  exact ⟨after, Fallible.bind_of_ok isAfter, realizes⟩

theorem Heap.Realizes.rbufFreeAll_spec :
    ∃ effects after, rbufFreeAll rounds count cud heap = (.ok effects, after) ∧
      after.Realizes { process with
        world := process.world.freeAll .ringbuffer cud rbufFree } ∧
      (process.world.freeAll .ringbuffer cud rbufFree).trace =
        process.world.trace ++ effects := by
  apply realizes.closeAll_spec bounded enough less
  intro heap table key entry isTable found
  rcases isTable.cancel_spec found with ⟨after, isAfter, realizes⟩
  exact ⟨after, Fallible.bind_of_ok isAfter, realizes⟩

/-- The client of a port is read when the port is closed; it has an entry. -/
theorem Heap.Realizes.portCloseAll_spec :
    ∃ effects after, portCloseAll rounds count cud heap = (.ok effects, after) ∧
      after.Realizes
        { process with world :=
          process.world.freeAll .port cud (portClose process.world) } ∧
      (process.world.freeAll .port cud (portClose process.world)).trace =
        process.world.trace ++ effects := by
  apply realizes.closeAll_spec bounded enough less
  intro heap table key pud isTable found
  have isOwner : (withTable process .port table).portOwner key = some pud.cud := by
    rw [Process.portOwner, search_withTable, found]
    rfl
  rcases Option.isSome_iff_exists.mp (isTable.linked.owned pud.cud key isOwner) with
    ⟨client, isClient⟩
  have isHandle : process.world.client pud.cud = client.client := by
    have same : process.world.search .client pud.cud = some client := isClient
    rw [World.client, same]
    rfl
  rcases isTable.cancel_spec found with ⟨after, isAfter, realizes⟩
  refine ⟨after, ?_, realizes⟩
  refine (Fallible.bind_of_ok (isTable.members_spec isClient)).trans ?_
  refine (Fallible.bind_of_ok isAfter).trans ?_
  rw [portClose, isHandle]
  rfl

end

theorem Bounded.freeAll (bounded : Bounded process bound) (kind : ObjectKind) (cud : Addr)
    (free : Addr → kind.Entry → Effect) :
    Bounded { process with world := process.world.freeAll kind cud free } bound := by
  intro other
  by_cases isKind : other = kind
  · subst isKind
    rw [World.freeAll_table, (Table.sweep_eq _ _ _ _ Addr.zero_le).1, List.length_map]
    exact bounded other
  · rw [World.freeAll_table_of_ne _ _ _ _ isKind]
    exact bounded other

/-- What `client_close` does to the databases. -/
def closeClient (rounds count : Nat) (cud : Addr) : HeapCall (List Effect) := do
  let threads ← threadFreeAll rounds count cud
  let ringbuffers ← rbufFreeAll rounds count cud
  let ports ← portCloseAll rounds count cud
  on .client (assign cud ObjectKind.client.cancelValid)
  return threads ++ ringbuffers ++ ports

/-- The process after the databases have been closed for a client. -/
def closedClient (process : Process) (cud : Addr) : Process :=
  { process with
    world := (process.world.freeObjects cud).modifyEntry
      .client cud ObjectKind.client.cancelValid }

theorem Heap.Realizes.closeClient_spec (realizes : heap.Realizes process)
    (bounded : Bounded process bound) (enough : 2 * Nat.log2 (bound + 1) < rounds)
    (less : bound < count) (present : (process.world.search .client cud).isSome = true) :
    ∃ effects after, closeClient rounds count cud heap = (.ok effects, after) ∧
      after.Realizes (closedClient process cud) ∧
      (process.world.freeObjects cud).trace = process.world.trace ++ effects := by
  rcases realizes.threadFreeAll_spec bounded enough less cud with
    ⟨threads, first, isFirst, realizes, threadTrace⟩
  have bounded := bounded.freeAll .thread cud threadFree
  rcases realizes.rbufFreeAll_spec bounded enough less cud with
    ⟨ringbuffers, second, isSecond, realizes, rbufTrace⟩
  have bounded := bounded.freeAll .ringbuffer cud rbufFree
  rcases realizes.portCloseAll_spec bounded enough less cud with
    ⟨ports, third, isThird, realizes, portTrace⟩
  have clients : (process.world.freeObjects cud).table .client =
      process.world.table .client := rfl
  have member : cud ∈ ((process.world.freeObjects cud).table .client).keys := by
    rw [clients]
    exact mem_keys_iff.mpr present
  rcases realizes.assign_spec member (keeps_cancelValid .client) with
    ⟨after, isAfter, realizes⟩
  refine ⟨threads ++ ringbuffers ++ ports, after, ?_, realizes, ?_⟩
  · rw [closeClient, Fallible.bind_of_ok isFirst, Fallible.bind_of_ok isSecond,
      Fallible.bind_of_ok isThird, Fallible.bind_of_ok isAfter]
    rfl
  · rw [World.freeObjects]
    simp only at rbufTrace portTrace
    simp only [portTrace, rbufTrace, threadTrace, List.append_assoc]

/-! ## Dropping buffers -/

/-- The process after the buffers of some ports have been dropped. -/
def dropped (process : Process) (puds : List Addr) : Process :=
  puds.foldl (fun process pud =>
    withTable process .port ((process.world.table .port).modify pud dropBuffer)) process

/-- The rest of the loop over the ports of a client. The induction is on the ports that
are left to visit. -/
theorem Heap.Realizes.dropFrom_spec {before rest : List Addr}
    (realizes : heap.Realizes process)
    (present : (process.world.search .client cud).isSome = true)
    (isSplit : process.fifo cud = before ++ rest) (less : rest.length < count) :
    ∃ after, dropFrom count rest.head? heap = (.ok ⟨⟩, after) ∧
      after.Realizes (dropped process rest) := by
  induction rest generalizing heap process before count with
  | nil =>
      cases count with
      | zero => cases less
      | succ count => exact ⟨heap, rfl, realizes⟩
  | cons pud rest inductionHypothesis =>
      cases count with
      | zero => cases less
      | succ count =>
          have listed : pud ∈ process.fifo cud := by
            rw [isSplit]
            exact List.mem_append_right _ (List.mem_cons_self ..)
          have isOwner := (realizes.linked.listed cud pud).mp listed
          have member : pud ∈ (process.world.table .port).keys := by
            rw [Process.portOwner, Option.map_eq_some_iff] at isOwner
            rcases isOwner with ⟨entry, found, _⟩
            exact Table.mem_keys.mpr ⟨entry, found⟩
          have keeps : Keeps .port dropBuffer := fun _ => rfl
          rcases realizes.assign_spec member keeps with ⟨middle, isMiddle, realizes⟩
          have queue := realizes.wired.queues cud present
          have still : (withTable process .port
              ((process.world.table .port).modify pud dropBuffer)).fifo cud =
                before ++ pud :: rest :=
            isSplit
          rw [still] at queue
          have isNext : onLinks (SimpleQueue.next pud) middle =
              (.ok rest.head?, middle) :=
            onLinks_of_ok queue.next_spec
          rcases inductionHypothesis realizes present (by rw [still, List.append_cons])
            (Nat.lt_of_succ_lt_succ less) with ⟨after, isAfter, realizes⟩
          refine ⟨after, ?_, realizes⟩
          rw [List.head?_cons, dropFrom, Fallible.bind_of_ok isMiddle,
            Fallible.bind_of_ok isNext]
          exact isAfter

/-- The ports of a client are among all ports. -/
theorem length_fifo_le (linked : process.Linked)
    (bounded : Bounded process bound) (cud : Addr) :
    (process.fifo cud).length ≤ bound := by
  have among : process.fifo cud ⊆ (process.world.table .port).keys := by
    intro pud listed
    have isOwner := (linked.listed cud pud).mp listed
    rw [Process.portOwner, Option.map_eq_some_iff] at isOwner
    rcases isOwner with ⟨entry, found, _⟩
    exact Table.mem_keys.mpr ⟨entry, found⟩
  have fewer := ((linked.nodup cud).subperm among).length_le
  rw [Table.keys, List.length_map] at fewer
  exact fewer.trans (bounded .port)

theorem Heap.Realizes.bufferDropAll_spec (realizes : heap.Realizes process)
    (bounded : Bounded process bound) (less : bound < count)
    (present : (process.world.search .client cud).isSome = true) :
    ∃ after, bufferDropAll count cud heap = (.ok ⟨⟩, after) ∧
      after.Realizes (dropped process (process.fifo cud)) := by
  have isFirst : onLinks (SimpleQueue.first cud) heap =
      (.ok (process.fifo cud).head?, heap) :=
    onLinks_of_ok (realizes.wired.queues cud present).first_spec
  have fewer := Nat.lt_of_le_of_lt (length_fifo_le realizes.linked bounded cud) less
  rw [bufferDropAll, Fallible.bind_of_ok isFirst]
  exact realizes.dropFrom_spec present (List.nil_append _).symm fewer

end LuaJack.Database
