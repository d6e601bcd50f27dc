import LuaJack.Database.Nodes
import LuaJack.Object.Exit
import LuaJack.SimpleQueue

/-!
# Objects in memory

The entries of objects are in one red-black tree for each kind of object.  Beside that,
the entry of a client has the head of a simple queue, in which the entries of its ports
are linked in the order in which they were created. -/

namespace LuaJack.Database

open RedBlack SimpleQueue

/-- The entries of objects, the members `fifo` of clients and the members `cudfifoentry`
of ports. -/
structure Heap where
  nodes : (kind : ObjectKind) → Nodes kind.Entry
  links : Links Addr Addr

/-- Nothing is allocated. -/
def Heap.empty : Heap where
  nodes := fun _ => ⟨none, fun _ => none⟩
  links := ⟨fun _ => none, fun _ => none⟩

/-- A function on entries. -/
abbrev HeapCall (β : Type) := Fallible Heap HeapFault β

/-! ## The functions of the source -/

section

variable {β : Type}

/-- A function on the database of a kind of objects. -/
def on (kind : ObjectKind) (function : Call kind.Entry β) : HeapCall β :=
  Fallible.focus (fun heap => heap.nodes kind)
    (fun nodes heap => { heap with nodes := Function.update heap.nodes kind nodes })
      function

/-- A macro for simple queues. -/
def onLinks (function : Macro Addr Addr β) : HeapCall β :=
  Fallible.focus Heap.links (fun links heap => { heap with links }) function

end

/-- `Malloc` and `memset`, as far as the member `fifo` of a client is concerned. -/
def allocateHead (cud : Addr) : Macro Addr Addr PUnit := Fallible.modify fun links => {
  pointer := Function.update links.pointer (.first cud) (some none)
  last := Function.update links.last cud (some none) }

/-- `Malloc` and `memset`, as far as the member `cudfifoentry` of a port is concerned. -/
def allocateElm (pud : Addr) :
    Macro Addr Addr PUnit := Fallible.modify fun links => { links with
  pointer := Function.update links.pointer (.next pud) (some none) }

/-- `Free`, as far as the member `fifo` of a client is concerned. -/
def releaseHead (cud : Addr) : Macro Addr Addr PUnit := do
  let _ ← SimpleQueue.first cud
  Fallible.modify fun links => {
    pointer := Function.update links.pointer (.first cud) none
    last := Function.update links.last cud none }

/-- `Free`, as far as the member `cudfifoentry` of a port is concerned. -/
def releaseElm (pud : Addr) : Macro Addr Addr PUnit := do
  let _ ← SimpleQueue.next pud
  Fallible.modify fun links => { links with
    pointer := Function.update links.pointer (.next pud) none }

/-! ### Creating -/

/-- `cud_new`, given the answer of the allocator. -/
def cudNew (rounds : Nat) : Option Addr → HeapCall (Option Addr)
  | none => return none
  | some key => do
      on .client (allocate key Cud.new)
      onLinks (allocateHead key)
      if (← on .client (search rounds key)).isSome then
        on .client (release key)
        onLinks (releaseHead key)
        return none
      else
        onLinks (init key)
        let _ ← on .client (insert rounds (some key))
        return some key

/-- `cud_fifo_insert`. -/
def cudFifoInsert (cud pud : Addr) : HeapCall PUnit := do
  on .port (assign pud fun pud => { pud with cud })
  onLinks (insertTail cud pud)

/-- `pud_new`, given the answer of the allocator. -/
def pudNew (rounds : Nat) (cud : Addr) : Option Addr → HeapCall (Option Addr)
  | none => return none
  | some key => do
      on .port (allocate key (Pud.new 0))
      onLinks (allocateElm key)
      if (← on .port (search rounds key)).isSome then
        on .port (release key)
        onLinks (releaseElm key)
        return none
      else
        cudFifoInsert cud key
        let _ ← on .port (insert rounds (some key))
        return some key

/-- `rud_new`, given the answer of the allocator. -/
def rudNew (rounds : Nat) (malloc : Option Addr) : HeapCall (Option Addr) :=
  on .ringbuffer (new rounds malloc Rud.new)

/-- `tud_new`, given the answer of the allocator. -/
def tudNew (rounds : Nat) (malloc : Option Addr) : HeapCall (Option Addr) :=
  on .thread (new rounds malloc Tud.new)

/-! ### Closing -/

/-- The loop over the objects that belong to a client. -/
def closeAll (kind : ObjectKind) (rounds count : Nat) (cud : Addr)
    (free : Addr → kind.Entry → HeapCall (List Effect)) : HeapCall (List Effect) := do
  sweepFrom (fun node => on kind (members node)) (fun node => on kind (next rounds node))
    (kind.ownedBy cud) free count (← on kind (first rounds 0)) []

/-- `thread_free_all`: what is released. -/
def threadFreeAll (rounds count : Nat) (cud : Addr) : HeapCall (List Effect) :=
  closeAll .thread rounds count cud fun node tud => do
    on .thread (assign node ObjectKind.thread.cancelValid)
    return [threadFree node tud]

/-- `rbuf_free_all`: what is released. -/
def rbufFreeAll (rounds count : Nat) (cud : Addr) : HeapCall (List Effect) :=
  closeAll .ringbuffer rounds count cud fun node rud => do
    on .ringbuffer (assign node ObjectKind.ringbuffer.cancelValid)
    return [rbufFree node rud]

/-- `port_close_all`: what is released. -/
def portCloseAll (rounds count : Nat) (cud : Addr) : HeapCall (List Effect) :=
  closeAll .port rounds count cud fun node pud => do
    let client := (← on .client (members pud.cud)).client
    on .port (assign node ObjectKind.port.cancelValid)
    return [.jackPortUnregister (some node) client pud.port]

/-- What `buffer_drop_all` assigns to the members of a port. -/
def dropBuffer (pud : Pud) : Pud := { pud with buf := none, nframes := 0, bufp := 0 }

/-- The loop of `buffer_drop_all`, for less than `count` ports. -/
def dropFrom : Nat → Option Addr → HeapCall PUnit
  | 0, _ => Fallible.error .rounds
  | _ + 1, none => return ⟨⟩
  | count + 1, some pud => do
      on .port (assign pud dropBuffer)
      dropFrom count (← onLinks (SimpleQueue.next pud))

/-- `buffer_drop_all`. -/
def bufferDropAll (count : Nat) (cud : Addr) : HeapCall PUnit := do
  dropFrom count (← onLinks (SimpleQueue.first cud))

/-! ### Freeing -/

/-- The loop of `cud_fifo_remove`, for less than `count` elements. -/
def removeFrom (cud pud : Addr) : Nat → Addr → Macro Addr Addr Bool
  | 0, _ => Fallible.error .rounds
  | count + 1, prev => do
      match ← SimpleQueue.next prev with
      | none => return false
      | some node =>
          if node = pud then
            removeAfter cud prev
            return true
          else
            removeFrom cud pud count node

/-- `cud_fifo_remove`, as far as the queue is concerned. It returns whether the port is
in it; `luajack_error` is called otherwise. -/
def removeElm (count : Nat) (cud pud : Addr) : Macro Addr Addr Bool := do
  match ← SimpleQueue.first cud with
  | none => return false
  | some node =>
      if node = pud then
        removeHead cud
        return true
      else
        removeFrom cud pud count node

/-- `cud_fifo_remove`. -/
def cudFifoRemove (count : Nat) (pud : Addr) : HeapCall Bool := do
  let cud := (← on .port (members pud)).cud
  onLinks (removeElm count cud pud)

/-- `cud_free`, `pud_free`, `rud_free` and `tud_free`. -/
def xudFree (rounds count : Nat) : ObjectKind → Addr → HeapCall PUnit
  | .client, node => do
      on .client (free rounds node)
      onLinks (releaseHead node)
  | .port, node => do
      on .port (detach rounds node)
      let _ ← cudFifoRemove count node
      on .port (release node)
      onLinks (releaseElm node)
  | .ringbuffer, node => on .ringbuffer (free rounds node)
  | .thread, node => on .thread (free rounds node)

/-- `cud_free_all`, `pud_free_all`, `rud_free_all` and `tud_free_all`. -/
def xudFreeAll (rounds count : Nat) (kind : ObjectKind) : HeapCall (List Addr) :=
  drain (on kind (first rounds 0)) (xudFree rounds count kind) count

/-! ## Queues of ports in memory -/

/-- The queues in memory are those of a process, and there is nothing else. -/
structure Wired (links : Links Addr Addr) (process : Process) : Prop where
  queues : ∀ cud, (process.world.search .client cud).isSome = true →
    IsQueue links cud (process.fifo cud)
  heads : ∀ cud, (links.pointer (.first cud)).isSome = true ↔
    (process.world.search .client cud).isSome = true
  lasts : ∀ cud, (links.last cud).isSome = true ↔
    (process.world.search .client cud).isSome = true
  elms : ∀ pud, (links.pointer (.next pud)).isSome = true ↔
    (process.world.search .port pud).isSome = true

variable {links : Links Addr Addr} {process after : Process}
  {key cud : Addr} {count : Nat}

theorem Wired.initial (descriptors : Finset Int) :
    Wired Heap.empty.links (.initial descriptors) where
  queues := fun cud present => by cases present
  heads := fun cud => iff_of_false Bool.false_ne_true fun present => by cases present
  lasts := fun cud => iff_of_false Bool.false_ne_true fun present => by cases present
  elms := fun pud => iff_of_false Bool.false_ne_true fun present => by cases present

/-- Only the queues and the existence of clients and ports matter. -/
theorem Wired.congr (wired : Wired links process) (fifo : after.fifo = process.fifo)
    (clients : ∀ cud, (after.world.search .client cud).isSome = true ↔
      (process.world.search .client cud).isSome = true)
    (ports : ∀ pud, (after.world.search .port pud).isSome = true ↔
      (process.world.search .port pud).isSome = true) : Wired links after where
  queues := fun cud present => by
    rw [fifo]
    exact wired.queues cud ((clients cud).mp present)
  heads := fun cud => (wired.heads cud).trans (clients cud).symm
  lasts := fun cud => (wired.lasts cud).trans (clients cud).symm
  elms := fun pud => (wired.elms pud).trans (ports pud).symm

/-- The entries of a kind after one has been inserted. -/
theorem search_insertEntry {kind : ObjectKind}
    (absent : process.world.search kind key = none) (entry : kind.Entry) (other : Addr) :
    (process.insertEntry kind key entry).world.search kind other =
      if other = key then some entry else process.world.search kind other := by
  rw [World.search, Process.insertEntry, World.table_setTable, Table.find?_insert absent]
  by_cases isKey : other = key
  · rw [if_pos isKey, if_pos isKey]
  · rw [if_neg isKey, if_neg isKey]
    rfl

theorem search_insertEntry_of_ne {kind other : ObjectKind} (different : other ≠ kind)
    (entry : kind.Entry) (otherKey : Addr) :
    (process.insertEntry kind key entry).world.search other otherKey =
      process.world.search other otherKey := by
  rw [World.search, Process.insertEntry, World.table_setTable_of_ne _ different]
  rfl

/-- The entries after one has been inserted. -/
theorem isSome_insertEntry {kind : ObjectKind}
    (absent : process.world.search kind key = none)
    (entry : kind.Entry) (other : ObjectKind) (otherKey : Addr) :
    ((process.insertEntry kind key entry).world.search other otherKey).isSome = true ↔
      (other = kind ∧ otherKey = key) ∨
        (process.world.search other otherKey).isSome = true := by
  by_cases sameKind : other = kind
  · subst sameKind
    rw [search_insertEntry absent]
    by_cases sameKey : otherKey = key
    · simp [sameKey]
    · simp [sameKey]
  · rw [search_insertEntry_of_ne sameKind]
    simp [sameKind]

/-- The head of a new client becomes that of an empty queue. -/
theorem Wired.cudInit (wired : Wired links process)
    (absent : process.world.search .client key = none) (entry : Cud) :
    ∃ after, init key (allocateHead key links).2 = (.ok ⟨⟩, after) ∧
      Wired after ((process.insertEntry .client key entry).cudFifoInit key) := by
  have isFirst : (allocateHead key links).2.pointer (.first key) = some none :=
    Function.update_self ..
  have isLast : (allocateHead key links).2.last key = some none := Function.update_self ..
  rcases init_spec isFirst isLast with ⟨after, isAfter, queue, within⟩
  have isSome := isSome_insertEntry absent entry
  have elsewhere (place : Place Addr Addr) (different : place ≠ .first key) :
      after.pointer place = links.pointer place :=
    (within.pointer place different fun _ member => by cases member).trans
      (Function.update_of_ne different ..)
  have otherLast (other : Addr) (different : other ≠ key) : after.last other =
      links.last other :=
    (within.last other different).trans (Function.update_of_ne different ..)
  refine ⟨after, isAfter, ?_, ?_, ?_, ?_⟩
  · intro other present
    by_cases isKey : other = key
    · rw [isKey]
      have isFifo : ((process.insertEntry .client key entry).cudFifoInit key).fifo key =
          [] :=
        Function.update_self ..
      rw [isFifo]
      exact queue
    · have isFifo : ((process.insertEntry .client key entry).cudFifoInit key).fifo other =
          process.fifo other := Function.update_of_ne isKey ..
      rw [isFifo]
      have before :=
        ((isSome .client other).mp present).resolve_left fun both => isKey both.2
      apply (wired.queues other before).congr
      · exact elsewhere _ fun same => isKey (Place.first.inj same)
      · exact fun _ _ => elsewhere _ fun same => by cases same
      · exact otherLast other isKey
  · intro other
    refine Iff.trans ?_ (isSome .client other).symm
    by_cases isKey : other = key
    · subst isKey
      rw [within.allocated, isFirst]
      simp
    · rw [elsewhere _ fun same => isKey (Place.first.inj same), wired.heads]
      simp [isKey]
  · intro other
    refine Iff.trans ?_ (isSome .client other).symm
    by_cases isKey : other = key
    · subst isKey
      rw [queue.last]
      simp
    · rw [otherLast other isKey, wired.lasts]
      simp [isKey]
  · intro pud
    refine Iff.trans ?_ (isSome .port pud).symm
    rw [elsewhere (.next pud) (fun same => by cases same), wired.elms]
    simp

theorem pointer_allocateElm {place : Place Addr Addr} (different : place ≠ .next key) :
    (allocateElm key links).2.pointer place = links.pointer place :=
  Function.update_of_ne different ..

/-- The link of a new port is appended to the queue of its client. -/
theorem Wired.pudInsert (wired : Wired links process) (linked : process.Linked)
    (absent : process.world.search .port key = none)
    (client : (process.world.search .client cud).isSome = true) (entry : Pud) :
    ∃ after, insertTail cud key (allocateElm key links).2 = (.ok ⟨⟩, after) ∧
      Wired after ((process.insertEntry .port key entry).cudFifoInsert cud key) := by
  have noOwner : process.portOwner key = none := congrArg (Option.map Pud.cud) absent
  have isNext : (allocateElm key links).2.pointer (.next key) = some none :=
    Function.update_self ..
  have queues (other : Addr)
      (present : (process.world.search .client other).isSome = true) :
      IsQueue (allocateElm key links).2 other (process.fifo other) := by
    apply (wired.queues other present).congr
    · exact pointer_allocateElm fun same => by cases same
    · intro elm member
      apply pointer_allocateElm
      intro same
      exact linked.not_mem noOwner other (Place.next.inj same ▸ member)
    · rfl
  rcases insertTail_spec (queues cud client) (linked.not_mem noOwner cud) isNext with
    ⟨after, isAfter, queue, within⟩
  have isSome := isSome_insertEntry absent entry
  refine ⟨after, isAfter, ?_, ?_, ?_, ?_⟩
  · intro other present
    have before :=
      ((isSome .client other).mp present).resolve_left fun both => by cases both.1
    by_cases isCud : other = cud
    · have isFifo : ((process.insertEntry .port key entry).cudFifoInsert cud key).fifo
          cud = process.fifo cud ++ [key] := Function.update_self ..
      rw [isCud, isFifo]
      exact queue
    · have isFifo : ((process.insertEntry .port key entry).cudFifoInsert cud key).fifo
          other = process.fifo other := Function.update_of_ne isCud ..
      rw [isFifo]
      apply (queues other before).within within isCud
      intro elm member inQueue
      have isOwner := (linked.listed other elm).mp member
      rcases List.mem_append.mp inQueue with inCud | isKey
      · rw [(linked.listed cud elm).mp inCud] at isOwner
        exact isCud (Option.some.inj isOwner).symm
      · rw [List.mem_singleton.mp isKey, noOwner] at isOwner
        cases isOwner
  · intro other
    refine Iff.trans ?_ (isSome .client other).symm
    have still := @pointer_allocateElm links key (.first other) fun same => by cases same
    rw [within.allocated, still, wired.heads]
    simp
  · intro other
    refine Iff.trans ?_ (isSome .client other).symm
    by_cases isCud : other = cud
    · rw [isCud, queue.last]
      simp [client]
    · rw [within.last other isCud]
      refine (wired.lasts other).trans ?_
      simp
  · intro pud
    refine Iff.trans ?_ (isSome .port pud).symm
    rw [within.allocated]
    by_cases isKey : pud = key
    · subst isKey
      rw [isNext]
      simp
    · have still := @pointer_allocateElm links key (.next pud) fun same =>
        isKey (Place.next.inj same)
      rw [still, wired.elms]
      simp [isKey]

/-! ### Removing -/

end LuaJack.Database
