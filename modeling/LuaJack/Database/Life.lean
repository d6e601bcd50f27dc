import LuaJack.Database.Teardown

/-!
# Objects in memory over time

What the program asks of its databases, one request after the other.  As long as the
allocator hands out what is not allocated, and pointers that are passed point to
entries, the memory answers as the functions do that work on the databases of a process.
References come from Lua and may be any integers. -/

namespace LuaJack.Database

open RedBlack SimpleQueue

/-- What is asked of the databases. -/
inductive ObjectRequest where
  | cudNew (malloc : Option Addr)
  | pudNew (cud : Addr) (malloc : Option Addr)
  | rudNew (malloc : Option Addr)
  | tudNew (malloc : Option Addr)
  | check (kind : ObjectKind) (ref : LuaInteger)
  | assign (kind : ObjectKind) (node : Addr) (change : kind.Entry → kind.Entry)
  | close (cud : Addr)
  | drop (cud : Addr)

/-- What the databases answer. -/
inductive Reply where
  | entry (node : Option Addr)
  | closed (effects : List Effect)
  | done

namespace ObjectRequest

/-- Do what is asked for. -/
def perform (rounds count : Nat) : ObjectRequest → HeapCall Reply
  | cudNew malloc => do return .entry (← Database.cudNew rounds malloc)
  | pudNew cud malloc => do return .entry (← Database.pudNew rounds cud malloc)
  | rudNew malloc => do return .entry (← Database.rudNew rounds malloc)
  | tudNew malloc => do return .entry (← Database.tudNew rounds malloc)
  | check kind ref =>
      do return .entry (← on kind (Database.check kind.isValid rounds ref))
  | assign kind node change => do
      on kind (Database.assign node change)
      return .done
  | close cud => do return .closed (← closeClient rounds count cud)
  | drop cud => do
      bufferDropAll count cud
      return .done

/-- The allocator hands out what is not allocated, and pointers to entries are valid. -/
def Permitted (heap : Heap) : ObjectRequest → Prop
  | cudNew malloc => ∀ key, malloc = some key → (heap.nodes .client).node key = none
  | pudNew cud malloc => ((heap.nodes .client).node cud).isSome = true ∧
      ∀ key, malloc = some key → (heap.nodes .port).node key = none
  | rudNew malloc => ∀ key, malloc = some key → (heap.nodes .ringbuffer).node key = none
  | tudNew malloc => ∀ key, malloc = some key → (heap.nodes .thread).node key = none
  | check _ _ => True
  | assign kind node change =>
      ((heap.nodes kind).node node).isSome = true ∧ Keeps kind change
  | close cud | drop cud => ((heap.nodes .client).node cud).isSome = true

/-- What a function on a process answers that creates an entry, and what becomes of the
process. -/
def created (function : Proc (Option Addr)) (process : Process) : Reply × Process :=
  match function process with
  | (.ok node, after) => (.entry node, after)
  | (.error _, after) => (.entry none, after)

/-- What the functions on a process answer, and what becomes of it. -/
def answer (process : Process) : ObjectRequest → Reply × Process
  | cudNew malloc => created (Proc.cudNew malloc) process
  | pudNew cud malloc => created (Proc.pudNew malloc cud) process
  | rudNew malloc => created (Proc.lift (LuaJack.new .ringbuffer malloc Rud.new)) process
  | tudNew malloc => created (Proc.lift (LuaJack.new .thread malloc Tud.new)) process
  | check kind ref => (.entry (LuaJack.check kind ref process.world).1.toOption, process)
  | assign kind node change =>
      (.done, { process with world := process.world.modifyEntry kind node change })
  | close cud =>
      (.closed ((process.world.freeObjects cud).trace.drop process.world.trace.length),
      closedClient process cud)
  | drop cud => (.done, dropped process (process.fifo cud))

end ObjectRequest

/-- One request after the other. -/
def runObjects (rounds count : Nat) : List ObjectRequest → HeapCall (List Reply)
  | [] => return []
  | request :: requests => do
      let reply ← request.perform rounds count
      return reply :: (← runObjects rounds count requests)

/-- All requests are permitted when they are made. -/
def AllPermitted (rounds count : Nat) : List ObjectRequest → Heap → Prop
  | [], _ => True
  | request :: requests, heap => request.Permitted heap ∧
      AllPermitted rounds count requests (request.perform rounds count heap).2

/-- What the functions on a process answer to one request after the other. -/
def replies : List ObjectRequest → Process → List Reply × Process
  | [], process => ([], process)
  | request :: requests, process =>
      let later := replies requests (request.answer process).2
      ((request.answer process).1 :: later.1, later.2)

variable {heap : Heap} {process : Process} {kind : ObjectKind} {key cud : Addr}
variable {rounds bound count : Nat}

/-- A node is allocated exactly if there is an entry. -/
theorem Heap.Realizes.allocated_iff (realizes : heap.Realizes process) :
    ((heap.nodes kind).node key).isSome = true ↔
      (process.world.search kind key).isSome = true :=
  (realizes.nodes kind).allocated_iff.trans mem_keys_iff

theorem Heap.Realizes.absent (realizes : heap.Realizes process)
    (free : (heap.nodes kind).node key = none) :
    process.world.search kind key = none := by
  apply Option.not_isSome_iff_eq_none.mp
  rw [← realizes.allocated_iff, free]
  exact Bool.false_ne_true

/-- A reference is checked as the databases of the process check it. -/
theorem toOption_check (kind : ObjectKind) (ref : Addr) (world : World) :
    ((world.search kind ref).filter kind.isValid).map (fun _ => ref) =
      (LuaJack.check kind ref world).1.toOption := by
  rw [LuaJack.check, Lua.asks_bind]
  cases world.search kind ref with
  | none => rfl
  | some entry =>
      cases valid : kind.isValid entry with
      | true =>
          simp only [if_true, Option.filter, valid]
          rfl
      | false =>
          simp only [Bool.false_eq_true, if_false, Option.filter, valid]
          rfl

/-- What a request makes of the process has at most one entry more of each kind. -/
theorem Bounded.insertEntry (bounded : Bounded process bound)
    (kind : ObjectKind) (key : Addr)
    (entry : kind.Entry) : Bounded (process.insertEntry kind key entry) (bound + 1) := by
  intro other
  by_cases isKind : other = kind
  · subst isKind
    rw [Process.insertEntry, World.table_setTable]
    exact (Table.length_insert_le _ key entry).trans (Nat.succ_le_succ (bounded other))
  · rw [Process.insertEntry, World.table_setTable_of_ne _ isKind]
    exact (bounded other).trans (Nat.le_succ _)

theorem Bounded.succ (bounded : Bounded process bound) : Bounded process (bound + 1) :=
  fun kind => (bounded kind).trans (Nat.le_succ _)

theorem keys_dropped (process : Process) (puds : List Addr) (kind : ObjectKind) :
    ((dropped process puds).world.table kind).keys = (process.world.table kind).keys := by
  induction puds generalizing process with
  | nil => rfl
  | cons pud puds inductionHypothesis =>
      refine (inductionHypothesis _).trans ?_
      by_cases isPort : kind = .port
      · subst isPort
        rw [table_withTable, Table.keys_modify]
      · exact congrArg Table.keys (World.table_setTable_of_ne _ isPort _)

/-- An entry is created if the allocator hands out an address that no entry has. -/
theorem lift_new (absent : process.world.search kind key = none) (entry : kind.Entry) :
    Proc.lift (LuaJack.new kind (some key) entry) process =
      (.ok (some key), process.insertEntry kind key entry) := by
  apply Proc.lift_of_ok
  rw [LuaJack.new]
  simp only [Lua.asks_bind, absent]
  rfl

/-- The memory answers a request as the functions on the process do. -/
theorem ObjectRequest.perform_spec {request : ObjectRequest}
    (realizes : heap.Realizes process)
    (bounded : Bounded process bound) (enough : 2 * Nat.log2 (bound + 1) < rounds)
    (less : bound < count) (permitted : request.Permitted heap) :
    ∃ after, request.perform rounds count heap = (.ok (request.answer process).1, after) ∧
      after.Realizes (request.answer process).2 ∧
      Bounded (request.answer process).2 (bound + 1) := by
  cases request with
  | cudNew malloc =>
      cases malloc with
      | none => exact ⟨heap, rfl, realizes, bounded.succ⟩
      | some key =>
          have absent := realizes.absent (permitted key rfl)
          rcases realizes.cudNew_spec bounded enough absent with
            ⟨after, isAfter, realizes⟩
          have isNew : Proc.cudNew (some key) process = (.ok (some key),
              (process.insertEntry .client key Cud.new).cudFifoInit key) :=
            Fallible.bind_of_ok (lift_new absent Cud.new)
          rw [answer, created, isNew]
          exact ⟨after, Fallible.bind_of_ok isAfter,
            realizes, bounded.insertEntry .client key _⟩
  | pudNew cud malloc =>
      cases malloc with
      | none => exact ⟨heap, rfl, realizes, bounded.succ⟩
      | some key =>
          have absent := realizes.absent (permitted.2 key rfl)
          rcases realizes.pudNew_spec bounded enough absent
            (realizes.allocated_iff.mp permitted.1)
            with ⟨after, isAfter, realizes⟩
          have isNew : Proc.pudNew (some key) cud process = (.ok (some key),
              (process.insertEntry .port key (Pud.new cud)).cudFifoInsert cud key) :=
            Fallible.bind_of_ok (lift_new absent (Pud.new cud))
          rw [answer, created, isNew]
          exact ⟨after, Fallible.bind_of_ok isAfter,
            realizes, bounded.insertEntry .port key _⟩
  | rudNew malloc =>
      cases malloc with
      | none =>
          have nothing : on .ringbuffer (new rounds none Rud.new) heap =
              (.ok none, heap) := on_same rfl
          exact ⟨heap, Fallible.bind_of_ok nothing, realizes, bounded.succ⟩
      | some key =>
          have absent := realizes.absent (permitted key rfl)
          rcases realizes.new_spec bounded enough (by simp) (by simp) absent Rud.new with
            ⟨after, isAfter, realizes⟩
          rw [answer, created, lift_new absent]
          exact
            ⟨after, Fallible.bind_of_ok isAfter, realizes,
              bounded.insertEntry .ringbuffer key _⟩
  | tudNew malloc =>
      cases malloc with
      | none =>
          have nothing : on .thread (new rounds none Tud.new) heap =
              (.ok none, heap) := on_same rfl
          exact ⟨heap, Fallible.bind_of_ok nothing, realizes, bounded.succ⟩
      | some key =>
          have absent := realizes.absent (permitted key rfl)
          rcases realizes.new_spec bounded enough (by simp) (by simp) absent Tud.new with
            ⟨after, isAfter, realizes⟩
          rw [answer, created, lift_new absent]
          exact ⟨after, Fallible.bind_of_ok isAfter,
            realizes, bounded.insertEntry .thread key _⟩
  | check kind ref =>
      refine ⟨heap, ?_, realizes, bounded.succ⟩
      rw [perform, Fallible.bind_of_ok (realizes.check_spec bounded enough ref),
        toOption_check]
      rfl
  | assign kind node change =>
      have member := mem_keys_iff.mpr (realizes.allocated_iff.mp permitted.1)
      rcases realizes.assign_spec member permitted.2 with ⟨after, isAfter, realizes⟩
      refine ⟨after, Fallible.bind_of_ok isAfter,
        realizes, Bounded.succ (bounded.withTable ?_)⟩
      rw [Table.modify, List.length_map]
      exact bounded kind
  | close cud =>
      rcases realizes.closeClient_spec bounded enough less
        (realizes.allocated_iff.mp permitted)
        with ⟨effects, after, isAfter, realizes, isTrace⟩
      refine ⟨after, ?_, realizes, (bounded.of_keys (keys_closedClient process cud)).succ⟩
      rw [answer, isTrace, List.drop_left]
      exact Fallible.bind_of_ok isAfter
  | drop cud =>
      rcases realizes.bufferDropAll_spec bounded less
        (realizes.allocated_iff.mp permitted) with
        ⟨after, isAfter, realizes⟩
      exact ⟨after, Fallible.bind_of_ok isAfter, realizes,
        (bounded.of_keys (keys_dropped process _)).succ⟩

/-- The memory answers all requests as the functions on the process do. -/
theorem runObjects_spec {requests : List ObjectRequest} {size : Nat}
    (realizes : heap.Realizes process) (bounded : Bounded process size)
    (within : size + requests.length ≤ bound) (enough : 2 * Nat.log2 (bound + 1) < rounds)
    (less : bound < count) (permitted : AllPermitted rounds count requests heap) :
    ∃ after, runObjects rounds count requests heap =
      (.ok (replies requests process).1, after) ∧
      after.Realizes (replies requests process).2 ∧
        Bounded (replies requests process).2 bound := by
  induction requests generalizing heap process size with
  | nil => exact ⟨heap, rfl, realizes, fun kind => (bounded kind).trans within⟩
  | cons request requests inductionHypothesis =>
      rw [List.length_cons] at within
      have isBelow : Nat.log2 (size + 1) ≤ Nat.log2 (bound + 1) := log2_le_log2 (by omega)
      have stillEnough : 2 * Nat.log2 (size + 1) < rounds := by omega
      have stillLess : size < count := by omega
      rcases request.perform_spec realizes bounded stillEnough stillLess permitted.1 with
        ⟨middle, isMiddle, realizes, bounded⟩
      have later := permitted.2
      rw [isMiddle] at later
      rcases inductionHypothesis realizes bounded (by omega) later with
        ⟨after, isAfter, realizes, bounded⟩
      refine ⟨after, ?_, realizes, bounded⟩
      rw [runObjects, Fallible.bind_of_ok isMiddle, Fallible.bind_of_ok isAfter]
      rfl

theorem Bounded.initial (descriptors : Finset Int) (bound : Nat) :
    Bounded (.initial descriptors) bound :=
      fun kind => by cases kind <;> exact Nat.zero_le _

/-- Whatever is asked of the databases, from the start of the program on, the memory
answers as the functions on a process do: nothing is accessed that is not allocated, and
no loop over a tree takes more rounds than twice the logarithm of the number of
entries. -/
theorem objects_in_memory (descriptors : Finset Int) (rounds count : Nat)
    (requests : List ObjectRequest) (enough : 2 * Nat.log2 (requests.length + 1) < rounds)
    (less : requests.length < count)
    (permitted : AllPermitted rounds count requests .empty) :
    ∃ after, runObjects rounds count requests .empty =
        (.ok (replies requests (.initial descriptors)).1, after) ∧
      after.Realizes (replies requests (.initial descriptors)).2 := by
  rcases runObjects_spec (Heap.Realizes.initial descriptors)
    (Bounded.initial descriptors 0)
    (Nat.zero_add _).le enough less permitted with ⟨after, isAfter, realizes, _⟩
  exact ⟨after, isAfter, realizes⟩

/-- Two ports of a client, the first of which is changed and the second of which has the
smaller address. -/
def twoPorts : List ObjectRequest :=
  [.cudNew (some 0x601010), .pudNew 0x601010 (some 0x602010),
    .pudNew 0x601010 (some 0x601810),
    .rudNew (some 0x603010), .tudNew none, .check .port 5,
    .assign .port 0x602010 fun pud => { pud with port := 7 },
    .drop 0x601010, .close 0x601010]

theorem permitted_twoPorts : AllPermitted 10 10 twoPorts .empty := by
  refine ⟨?_, ⟨rfl, ?_⟩, ⟨rfl, ?_⟩, ?_, ?_, trivial,
    ⟨rfl, fun _ => rfl⟩, rfl, rfl, trivial⟩
  all_goals
    intro key isKey
    cases isKey
    try rfl

theorem objects_in_memory_twoPorts : ∃ after, runObjects 10 10 twoPorts .empty =
      (.ok (replies twoPorts (.initial ∅)).1, after) ∧
    after.Realizes (replies twoPorts (.initial ∅)).2 :=
  objects_in_memory ∅ 10 10 twoPorts (by decide) (by decide) permitted_twoPorts

/-! ## The end -/

end LuaJack.Database
