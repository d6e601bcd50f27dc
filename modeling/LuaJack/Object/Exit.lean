import LuaJack.Object.Fifo

/-!
# The exit sequence

At exit all valid clients are closed, and then the entries of all objects are freed:
threads, ringbuffers, ports and at last clients.  The entry of a port is unlinked from
the queue of its client before it is freed, which reads the entry of the client and
those of other ports in the queue.

Closing a client cancels its threads and waits for them.  The entry of a thread that could
not be created is valid too, and there is no thread to wait for.
-/

namespace LuaJack

open Atomic

/-- What must not happen at exit. -/
inductive Fault where
  | useAfterFree (kind : ObjectKind) (key : Addr)
  | unexpectedError
  /-- `pthread_cancel` and `pthread_join` of a thread that has never been created. -/
  | noThread (key : Addr)
  deriving DecidableEq, Repr

/-- The state of the exit sequence. -/
structure Teardown where
  process : Process
  /-- The entries whose memory is allocated. -/
  heap : List (ObjectKind × Addr)
  /-- The entries that have been freed, in this order. -/
  freed : List (ObjectKind × Addr)

namespace Teardown

/-- `cud_search`, `pud_search`, `rud_search` and `tud_search`. -/
def search (teardown : Teardown) (kind : ObjectKind) (key : Addr) : Option kind.Entry :=
  teardown.process.world.search kind key

/-- Another database of a kind of objects. -/
def setTable (teardown : Teardown) (kind : ObjectKind)
    (table : Table Addr kind.Entry) : Teardown :=
  { teardown with process.world := teardown.process.world.setTable kind table }

/-- Assign to the member `fifo` of a client's entry. -/
def setFifo (teardown : Teardown) (cud : Addr) (fifo : List Addr) : Teardown :=
  { teardown with process.fifo := Function.update teardown.process.fifo cud fifo }

end Teardown

/-- The entries of all objects, valid or not. -/
def Process.entries (process : Process) : List (ObjectKind × Addr) :=
  [ObjectKind.client, .port, .ringbuffer, .thread].flatMap fun kind =>
    (process.world.table kind).keys.map fun key => (kind, key)

/-- Every valid thread of a valid client has been created. -/
def Process.ThreadsCreated (process : Process) : Prop :=
  ∀ key tud, process.world.search .thread key = some tud → tud.valid = true →
    process.world.Valid .client tud.cud → tud.status ≠ .configuring

/-- The start of the exit sequence: no entry has been freed before. -/
def Process.teardown (process : Process) : Teardown where
  process
  heap := process.entries
  freed := []

/-- A function of the exit sequence. -/
abbrev Exit := Fallible Teardown Fault

namespace Exit

/-! ## Memory -/

/-- Read or write a member of an entry. -/
def deref (kind : ObjectKind) (key : Addr) : Exit Unit := do
  if (kind, key) ∈ (← Fallible.asks Teardown.heap) then
    return ()
  else
    Fallible.error (.useAfterFree kind key)

/-- `Free`. -/
def free (kind : ObjectKind) (key : Addr) : Exit Unit := do
  deref kind key
  Fallible.modify fun teardown => { teardown with
    heap := teardown.heap.erase (kind, key), freed := teardown.freed ++ [(kind, key)] }

/-! ## Databases -/

/-- `cud_first`, `pud_first`, `rud_first` and `tud_first`, called with 0. -/
def first? (kind : ObjectKind) : Exit (Option (Addr × kind.Entry)) :=
  Fallible.asks fun teardown => do
    let key ← (teardown.process.world.table kind).nfind? 0
    let entry ← teardown.search kind key
    return (key, entry)

/-- Remove an entry from its database, if it is there. -/
def remove (kind : ObjectKind) (key : Addr) : Exit Unit := do
  deref kind key
  if (← Fallible.asks (·.search kind key)).isSome then
    Fallible.modify fun teardown =>
      teardown.setTable kind ((teardown.process.world.table kind).erase key)

/-- The loop of `cud_fifo_remove`, with the nodes behind `prev`: the nodes that remain
behind it, if `pud` is one of them. -/
def removeAfter (pud prev : Addr) : List Addr → Exit (Option (List Addr))
  | [] => do
      deref .port prev
      return none
  | node :: rest => do
      deref .port prev
      if node = pud then
        -- SIMPLEQ_REMOVE_AFTER reads the link of the node
        deref .port node
        return some rest
      else
        return (← removeAfter pud node rest).map (node :: ·)

/-- `cud_fifo_remove`. -/
def cudFifoRemove (pud cud : Addr) : Exit Unit := do
  deref .port pud
  deref .client cud
  match ← Fallible.asks fun teardown => teardown.process.fifo cud with
  | [] => Fallible.error .unexpectedError
  | node :: rest =>
      if node = pud then
        -- SIMPLEQ_REMOVE_HEAD reads the link of the node
        deref .port node
        Fallible.modify (·.setFifo cud rest)
      else
        match ← removeAfter pud node rest with
        | none => Fallible.error .unexpectedError
        | some rest => Fallible.modify (·.setFifo cud (node :: rest))

/-- `tud_free`. -/
def tudFree (key : Addr) : Exit Unit := do
  remove .thread key
  free .thread key

/-- `rud_free`. -/
def rudFree (key : Addr) : Exit Unit := do
  remove .ringbuffer key
  free .ringbuffer key

/-- `pud_free`. -/
def pudFree (key : Addr) (pud : Pud) : Exit Unit := do
  remove .port key
  cudFifoRemove key pud.cud
  free .port key

/-- `cud_free`. -/
def cudFree (key : Addr) : Exit Unit := do
  remove .client key
  free .client key

/-- The functions that free an entry. -/
def freeEntry : (kind : ObjectKind) → Addr → kind.Entry → Exit Unit
  | .thread, key, _ => tudFree key
  | .ringbuffer, key, _ => rudFree key
  | .port, key, pud => pudFree key pud
  | .client, key, _ => cudFree key

/-! ## Threads -/

/-- `thread_free`, as far as the thread is concerned. `ThreadCreate_` sets the status
when it has created the thread, so the status of one that could not be created is still
`TUD_CONFIGURING`. Its state has been closed before, and would be closed again. -/
def cancel (key : Addr) (tud : Tud) : Exit Unit :=
  if tud.status = .configuring then
    Fallible.error (.noThread key)
  else
    return ()

/-- Cancel some threads, one after the other. -/
def cancelEach : List (Addr × Tud) → Exit Unit
  | [] => return ()
  | (key, tud) :: rest => do
      cancel key tud
      cancelEach rest

/-- `thread_free_all`, as far as the threads are concerned. -/
def cancelThreads (cud : Addr) : Exit Unit := do
  cancelEach (← Fallible.asks fun teardown =>
    teardown.process.world.tuds.entries.filter fun entry =>
      ObjectKind.thread.ownedBy cud entry.2)

/-! ## The loops -/

/-- Where `client_close_all` is. -/
inductive Stage where
  /-- In the loop over all clients, with the next one. -/
  | closing (cud : Option Addr)
  /-- In the loop that frees the entries of a kind: `tud_free_all` and so on. -/
  | freeing (kind : ObjectKind)
  | done
  deriving DecidableEq

/-- What follows the loop that frees the entries of a kind. -/
def Stage.following : ObjectKind → Stage
  | .thread => freeing .ringbuffer
  | .ringbuffer => freeing .port
  | .port => freeing .client
  | .client => done

/-- One iteration of a loop of `client_close_all`, or the way to the next loop. The
arguments are the answers of `jack_deactivate`. -/
def step (rc : Addr → Int) : Stage → Exit Stage
  | .closing none => return .freeing .thread
  | .closing (some cud) => do
      deref .client cud
      if ← Fallible.asks fun teardown =>
        decide (teardown.process.world.Valid .client cud) then
        cancelThreads cud
        Fallible.modify fun teardown => { teardown with
          process := (Proc.clientClose cud (rc cud) false teardown.process).2 }
      return .closing (← Fallible.asks fun teardown =>
        teardown.process.world.cuds.next? cud)
  | .freeing kind => do
      match ← first? kind with
      | none => return .following kind
      | some (key, entry) =>
          freeEntry kind key entry
          return .freeing kind
  | .done => return .done

/-- `client_close_all`, up to a number of iterations. -/
def clientCloseAll (rc : Addr → Int) : Nat → Exit Stage
  | 0 => do
      return .closing (← Fallible.asks fun teardown => teardown.process.world.cuds.nfind? 0)
  | iterations + 1 => do
      let stage ← clientCloseAll rc iterations
      step rc stage

/-! ## What the calls do -/

section Calls

variable {teardown : Teardown} {kind : ObjectKind} {key : Addr}

theorem deref_of_mem (allocated : (kind, key) ∈ teardown.heap) :
    deref kind key teardown = (.ok (), teardown) := by
  rw [deref, Fallible.asks_bind, if_pos allocated]
  rfl

theorem free_of_mem (allocated : (kind, key) ∈ teardown.heap) :
    free kind key teardown = (.ok (), { teardown with
      heap := teardown.heap.erase (kind, key), freed :=
        teardown.freed ++ [(kind, key)] }) := by
  rw [free, Fallible.bind_of_ok (deref_of_mem allocated)]
  rfl

theorem remove_of_mem (allocated : (kind, key) ∈ teardown.heap)
    (present : (teardown.search kind key).isSome = true) :
    remove kind key teardown =
      (.ok (), teardown.setTable kind
        ((teardown.process.world.table kind).erase key)) := by
  rw [remove, Fallible.bind_of_ok (deref_of_mem allocated),
    Fallible.asks_bind, if_pos present]
  rfl

/-- All threads have been created, or one that has not been is cancelled. -/
theorem cancelEach_cases (threads : List (Addr × Tud)) :
    (cancelEach threads teardown = (.ok (), teardown) ∧
      ∀ entry ∈ threads, entry.2.status ≠ .configuring) ∨
    ∃ entry ∈ threads, entry.2.status = .configuring ∧
      cancelEach threads teardown = (.error (.noThread entry.1), teardown) := by
  induction threads with
  | nil => exact .inl ⟨rfl, fun _ member => by cases member⟩
  | cons entry rest ih =>
      by_cases isConfiguring : entry.2.status = .configuring
      · refine .inr ⟨entry, List.mem_cons_self, isConfiguring, ?_⟩
        rw [cancelEach, cancel, if_pos isConfiguring]
        rfl
      · have cancels : cancelEach (entry :: rest) teardown =
            cancelEach rest teardown := by
          rw [cancelEach, cancel, if_neg isConfiguring]
          rfl
        rw [cancels]
        cases ih with
        | inl created =>
            refine .inl ⟨created.1, ?_⟩
            intro other member
            cases member with
            | head => exact isConfiguring
            | tail _ member => exact created.2 other member
        | inr failed =>
            rcases failed with ⟨other, member, isOther, fails⟩
            exact .inr ⟨other, List.mem_cons_of_mem _ member, isOther, fails⟩

/-- The threads of a client are cancelled if all of them have been created. -/
theorem cancelThreads_cases (teardown : Teardown) (cud : Addr) :
    (cancelThreads cud teardown = (.ok (), teardown) ∧
      ∀ key tud, teardown.search .thread key = some tud →
        ObjectKind.thread.ownedBy cud tud = true →
        tud.status ≠ .configuring) ∨
    ∃ key tud, teardown.search .thread key = some tud ∧
      ObjectKind.thread.ownedBy cud tud = true ∧
      tud.status = .configuring ∧
      cancelThreads cud teardown = (.error (.noThread key), teardown) := by
  have listed (key : Addr) (tud : Tud) :
      (key, tud) ∈ (teardown.process.world.tuds.entries.filter fun entry =>
        ObjectKind.thread.ownedBy cud entry.2) ↔
      teardown.search .thread key = some tud ∧
        ObjectKind.thread.ownedBy cud tud = true := by
    have isEntry : teardown.process.world.tuds.find? key = some tud ↔ _ :=
      Table.find?_eq_some
    rw [List.mem_filter]
    exact and_congr_left' isEntry.symm
  rw [cancelThreads, Fallible.asks_bind]
  cases @cancelEach_cases teardown (teardown.process.world.tuds.entries.filter
    fun entry => ObjectKind.thread.ownedBy cud entry.2) with
  | inl created =>
      refine .inl ⟨created.1, ?_⟩
      intro key tud found owned
      exact created.2 (key, tud) ((listed key tud).mpr ⟨found, owned⟩)
  | inr failed =>
      rcases failed with ⟨⟨key, tud⟩, member, isConfiguring, fails⟩
      have found := (listed key tud).mp member
      exact .inr ⟨key, tud, found.1, found.2, isConfiguring, fails⟩

/-- The loop of `cud_fifo_remove` finds a node that is in the queue. -/
theorem removeAfter_of_mem {prev : Addr} {rest : List Addr} (member : key ∈ rest)
    (allocated : ∀ node ∈ prev :: rest, (ObjectKind.port, node) ∈ teardown.heap) :
    removeAfter key prev rest teardown = (.ok (some (rest.erase key)), teardown) := by
  induction rest generalizing prev with
  | nil => cases member
  | cons node rest ih =>
      have isPrev := deref_of_mem (allocated prev List.mem_cons_self)
      have others := fun other member =>
          allocated other (List.mem_cons_of_mem prev member)
      rw [removeAfter, Fallible.bind_of_ok isPrev]
      by_cases isKey : node = key
      · have isNode := deref_of_mem (others node List.mem_cons_self)
        rw [if_pos isKey, Fallible.bind_of_ok isNode, isKey, List.erase_cons_head]
        rfl
      · have later : key ∈ rest := (List.mem_cons.mp member).resolve_left (Ne.symm isKey)
        rw [if_neg isKey, Fallible.bind_of_ok (ih later others),
          List.erase_cons_tail (by simpa using isKey)]
        rfl

/-- `cud_fifo_remove` finds a node that is in the queue. -/
theorem cudFifoRemove_of_mem {cud : Addr} (member : key ∈ teardown.process.fifo cud)
    (client : (ObjectKind.client, cud) ∈ teardown.heap)
    (allocated : ∀ node ∈ teardown.process.fifo cud,
      (ObjectKind.port, node) ∈ teardown.heap) :
    cudFifoRemove key cud teardown =
      (.ok (), teardown.setFifo cud ((teardown.process.fifo cud).erase key)) := by
  rw [cudFifoRemove, Fallible.bind_of_ok (deref_of_mem (allocated key member)),
    Fallible.bind_of_ok (deref_of_mem client), Fallible.asks_bind]
  cases isFifo : teardown.process.fifo cud with
  | nil =>
      rw [isFifo] at member
      cases member
  | cons node rest =>
      rw [isFifo] at member allocated
      dsimp only
      by_cases isKey : node = key
      · have isNode := deref_of_mem (allocated node List.mem_cons_self)
        rw [if_pos isKey, Fallible.bind_of_ok isNode, isKey, List.erase_cons_head]
        rfl
      · have later : key ∈ rest := (List.mem_cons.mp member).resolve_left (Ne.symm isKey)
        rw [if_neg isKey, Fallible.bind_of_ok (removeAfter_of_mem later allocated),
          List.erase_cons_tail (by simpa using isKey)]
        rfl

end Calls

end Exit

namespace Teardown

variable {teardown : Teardown} {kind : ObjectKind} {key : Addr}

/-- An entry is removed from its database. -/
theorem search_erase (other : ObjectKind) (otherKey : Addr) :
    (teardown.setTable kind ((teardown.process.world.table kind).erase key)).search
      other otherKey =
      if other = kind ∧ otherKey = key then none else teardown.search other otherKey := by
  by_cases isKind : other = kind
  · subst isKind
    rw [search, setTable, World.search, World.table_setTable, Table.find?_erase]
    by_cases isKey : otherKey = key
    · rw [if_pos isKey, if_pos ⟨rfl, isKey⟩]
    · rw [if_neg isKey, if_neg fun both => isKey both.2]
      rfl
  · rw [search, setTable, World.search, World.table_setTable_of_ne _ isKind,
      if_neg fun both => isKind both.1]
    rfl

/-- Which entries are allocated, and which are freed. -/
structure Tidy (start : Process) (teardown : Teardown) : Prop where
  linked : teardown.process.Linked
  heap : ∀ kind key, (kind, key) ∈ teardown.heap ↔
    (teardown.search kind key).isSome = true
  heapNodup : teardown.heap.Nodup
  freed : ∀ kind key, (kind, key) ∈ teardown.freed ↔
    (start.world.search kind key).isSome = true ∧ teardown.search kind key = none
  freedNodup : teardown.freed.Nodup
  kept : ∀ kind key, (teardown.search kind key).isSome = true →
    (start.world.search kind key).isSome = true

/-- The clients that the loop has passed have been closed if they were valid, the others
are as they were. -/
structure Closing (start : Process) (passed : Addr → Prop) (teardown : Teardown) : Prop
    extends Tidy start teardown where
  present : ∀ kind key, (start.world.search kind key).isSome = true →
    (teardown.search kind key).isSome = true
  closed : ∀ key, passed key → releases .client key teardown.process.world.trace =
    releases .client key start.world.trace +
      if start.world.Valid .client key then 1 else 0
  pending : ∀ key, ¬passed key → (releases .client key teardown.process.world.trace =
    releases .client key start.world.trace ∧
      (teardown.process.world.Valid .client key ↔ start.world.Valid .client key))
  threads : ∀ key tud, teardown.search .thread key = some tud → tud.valid = true →
    start.world.search .thread key = some tud
  waiting : ∀ key tud, start.world.search .thread key = some tud → ¬passed tud.cud →
    teardown.search .thread key = some tud

/-- The keys that the loop over the clients has passed when it comes to a client. -/
def Passed (next : Option Addr) (key : Addr) : Prop := ∀ cud, next = some cud → key < cud

/-- All clients have been closed, and the databases of some kinds are empty. -/
structure Freeing (start : Process) (emptied : ObjectKind → Prop)
    (teardown : Teardown) : Prop
    extends Tidy start teardown where
  emptied : ∀ kind, emptied kind → ∀ key, teardown.search kind key = none
  closed : ∀ key, releases .client key teardown.process.world.trace =
    releases .client key start.world.trace +
      if start.world.Valid .client key then 1 else 0

variable {start : Process} {passed : Addr → Prop} {emptied : ObjectKind → Prop}

theorem Closing.freeing (closing : Closing start (Passed none) teardown) :
    Freeing start (fun _ => False) teardown where
  toTidy := closing.toTidy
  emptied := fun _ isEmpty => isEmpty.elim
  closed := fun key => closing.closed key fun _ isSome => by cases isSome

theorem Freeing.following (freeing : Freeing start emptied teardown)
    (isEmpty : ∀ key, teardown.search kind key = none) :
    Freeing start (fun other => other = kind ∨ emptied other) teardown where
  toTidy := freeing.toTidy
  emptied := by
    intro other isEmptied
    cases isEmptied with
    | inl same =>
        rw [same]
        exact isEmpty
    | inr before => exact freeing.emptied other before
  closed := freeing.closed

theorem Freeing.mono (freeing : Freeing start emptied teardown)
    {fewer : ObjectKind → Prop}
    (weaker : ∀ kind, fewer kind → emptied kind) : Freeing start fewer teardown where
  toTidy := freeing.toTidy
  emptied := fun kind isEmpty => freeing.emptied kind (weaker kind isEmpty)
  closed := freeing.closed

theorem entries_nodup (process : Process) : process.entries.Nodup := by
  apply List.nodup_flatMap.mpr
  constructor
  · intro kind _
    exact (process.world.table kind).nodup_keys.map fun _ _ same => (Prod.mk.inj same).2
  · have kinds : [ObjectKind.client, .port, .ringbuffer, .thread].Nodup := by decide
    apply kinds.imp
    intro kind other different entry member alsoMember
    rcases List.mem_map.mp member with ⟨_, _, rfl⟩
    rcases List.mem_map.mp alsoMember with ⟨_, _, same⟩
    exact different (Prod.mk.inj same).1.symm

theorem mem_entries {process : Process} :
    (kind, key) ∈ process.entries ↔ (process.world.search kind key).isSome = true := by
  rw [World.search, ← Table.mem_keys_iff_isSome, Process.entries, List.mem_flatMap]
  constructor
  · intro listed
    rcases listed with ⟨other, _, member⟩
    rcases List.mem_map.mp member with ⟨_, isKey, same⟩
    cases same
    exact isKey
  · intro isKey
    exact ⟨kind, by cases kind <;> simp, List.mem_map_of_mem isKey⟩

/-- The start of the exit sequence. -/
theorem closing_start (linked : start.Linked) :
    Closing start (Passed (start.world.cuds.nfind? 0)) start.teardown where
  linked := linked
  heap := fun _ _ => mem_entries
  heapNodup := entries_nodup start
  freed := by
    intro kind key
    refine iff_of_false List.not_mem_nil ?_
    intro both
    have isNone : start.world.search kind key = none := both.2
    rw [isNone] at both
    cases both.1
  freedNodup := List.nodup_nil
  kept := fun _ _ => id
  present := fun _ _ => id
  closed := by
    intro key passed
    have invalid : ¬start.world.Valid .client key := by
      intro valid
      cases valid with
      | intro entry both =>
          have isKey : key ∈ start.world.cuds.keys := Table.mem_keys.mpr ⟨entry, both.1⟩
          cases isNext : start.world.cuds.nfind? 0 with
          | none =>
              have nothing := List.find?_eq_none.mp isNext key isKey
              exact nothing (decide_eq_true (Addr.zero_le key))
          | some cud =>
              have least := (Table.keys_find?_eq_some isNext).2.2 key isKey
                (decide_eq_true (Addr.zero_le key))
              exact (passed cud isNext).not_ge least
    rw [if_neg invalid]
    rfl
  pending := fun _ _ => ⟨rfl, Iff.rfl⟩
  threads := fun _ _ found _ => found
  waiting := fun _ _ found _ => found

/-! ## Closing a client -/

/-- Keys that are passed without being those of valid clients. -/
theorem Closing.widen (closing : Closing start passed teardown) {more : Addr → Prop}
    (grows : ∀ key, passed key → more key)
    (invalid : ∀ key, more key → passed key ∨ ¬start.world.Valid .client key) :
    Closing start more teardown where
  toTidy := closing.toTidy
  present := closing.present
  closed := by
    intro key isMore
    by_cases isPassed : passed key
    · exact closing.closed key isPassed
    · have notValid := (invalid key isMore).resolve_left isPassed
      rw [(closing.pending key isPassed).1, if_neg notValid]
      rfl
  pending := fun key notMore => closing.pending key fun isPassed =>
    notMore (grows key isPassed)
  threads := closing.threads
  waiting := fun key tud found notMore =>
    closing.waiting key tud found fun isPassed => notMore (grows tud.cud isPassed)

/-- `client_close`, without a Lua state. -/
def closeClient (teardown : Teardown) (cud : Addr) (rc : Int) : Teardown :=
  { teardown with process := (Proc.clientClose cud rc false teardown.process).2 }

/-- Closing a client neither adds nor removes entries. -/
theorem search_closeClient (teardown : Teardown)
    (cud : Addr) (rc : Int) (kind : ObjectKind)
    (key : Addr) : ((teardown.closeClient cud rc).search kind key).isSome =
      (teardown.search kind key).isSome := by
  have isWorld := (Proc.clientClose_projects cud rc false teardown.process).2
  have extended : Extends none teardown.process.world
      (clientClose cud rc false teardown.process.world).2 :=
    ((Extends.framed none).on fun _ => True).respects_clientClose
      (Extends.framesReferences none)
      (Extends.framesActivity none) (fun _ => trivial) cud rc false _
  rw [← isWorld] at extended
  cases found : teardown.search kind key with
  | some entry =>
      have present : (teardown.search kind key).isSome = true := by
        rw [found]
        rfl
      exact extended.kept kind key present
  | none =>
      cases after : (teardown.closeClient cud rc).search kind key with
      | none => rfl
      | some entry =>
          have present : ((teardown.closeClient cud rc).search kind key).isSome =
              true := by
            rw [after]
            rfl
          have isNew := extended.new kind key found present
          cases isNew

theorem Closing.close (closing : Closing start passed teardown) {cud : Addr}
    (valid : teardown.process.world.Valid .client cud)
    (notPassed : ¬passed cud) (rc : Int) :
    Closing start (fun key => passed key ∨ key = cud) (teardown.closeClient cud rc) := by
  have isWorld : (teardown.closeClient cud rc).process.world =
      (clientClose cud rc false teardown.process.world).2 :=
    (Proc.clientClose_projects cud rc false teardown.process).2
  rcases clientClose_freed cud rc false teardown.process.world with ⟨after, run, freed⟩
  rw [run] at isWorld
  have isAfter : after = (teardown.closeClient cud rc).process.world := isWorld.symm
  rw [isAfter] at freed
  have present := search_closeClient teardown cud rc
  have keepsFifo : Proc.Keeps Process.fifo (Proc.clientClose cud rc false) :=
    Proc.clientClose_keeps (fun _ _ => rfl) (fun _ _ => rfl) cud rc false
  have keepsOwner (key : Addr) :
      (teardown.closeClient cud rc).process.portOwner key =
        teardown.process.portOwner key := by
    apply Process.portOwner_of_change (freed.objects .port (by simp) key)
    intro pud
    split
    · exact Process.cancelValid_cud pud
    · rfl
  have released (key : Addr) : releases .client key
      (teardown.closeClient cud rc).process.world.trace =
      releases .client key teardown.process.world.trace + if key = cud then 1 else 0 := by
    have notSwept : ¬(teardown.process.world.search .client key).any
        (ObjectKind.client.ownedBy cud) = true :=
          fun swept => (World.any_ownedBy.mp swept).1 rfl
    rw [freed.released, if_neg notSwept, Nat.add_zero]
    simp only [true_and]
  refine ⟨⟨?_, ?_, closing.heapNodup, ?_, closing.freedNodup, ?_⟩, ?_, ?_, ?_, ?_, ?_⟩
  · apply closing.linked.congr (keepsFifo teardown.process) keepsOwner
    intro key isSome
    exact (present .client key).trans isSome
  · intro kind key
    rw [present]
    exact closing.heap kind key
  · intro kind key
    rw [← Option.isNone_iff_eq_none, ← Option.not_isSome, present, Option.not_isSome,
      Option.isNone_iff_eq_none]
    exact closing.freed kind key
  · intro kind key isSome
    rw [present] at isSome
    exact closing.kept kind key isSome
  · intro kind key isSome
    rw [present]
    exact closing.present kind key isSome
  · intro key isPassed
    rw [released]
    by_cases isCud : key = cud
    · have before := closing.pending cud notPassed
      rw [isCud, before.1, if_pos rfl, if_pos (before.2.mp valid)]
    · rw [closing.closed key (isPassed.resolve_right isCud), if_neg isCud, Nat.add_zero]
  · intro key isPending
    have different : key ≠ cud := fun isCud => isPending (.inr isCud)
    have before := closing.pending key fun isPassed => isPending (.inl isPassed)
    rw [released, if_neg different, Nat.add_zero,
      World.Valid, freed.clients key different]
    exact before
  · intro key tud found isValid
    have valid : (teardown.closeClient cud rc).process.world.Valid .thread key :=
      ⟨tud, found, isValid⟩
    have notBelongs := (freed.valid_iff.mp valid).2
    apply closing.threads key tud _ isValid
    exact (freed.search_of_not_belongs notBelongs).symm.trans found
  · intro key tud found isPending
    have before := closing.waiting key tud found fun isPassed => isPending (.inl isPassed)
    apply (freed.search_of_not_belongs ?_).trans before
    intro belongs
    rcases belongs with ⟨isClient, _⟩ | ⟨entry, isEntry, isOwner⟩
    · cases isClient
    · cases before.symm.trans isEntry
      exact isPending (.inr (Option.some.inj isOwner))

/-- The loop over the clients neither adds nor removes entries. -/
theorem Closing.keys_eq (closing : Closing start passed teardown) (kind : ObjectKind) :
    (teardown.process.world.table kind).keys = (start.world.table kind).keys := by
  apply Table.keys_eq
  intro key
  apply Bool.eq_iff_iff.mpr
  exact ⟨closing.kept kind key, closing.present kind key⟩

theorem Closing.next?_eq (closing : Closing start passed teardown) (cud : Addr) :
    teardown.process.world.cuds.next? cud = start.world.cuds.next? cud :=
  congrArg (List.find? _) (closing.keys_eq .client)

/-- The loop goes on with the next client. -/
theorem Closing.advance {cud : Addr}
    (closing : Closing start (fun key => Passed (some cud) key ∨ key = cud) teardown) :
    Closing start (Passed (start.world.cuds.next? cud)) teardown := by
  apply closing.widen
  · intro key isPassed next isNext
    have greater := of_decide_eq_true (Table.keys_find?_eq_some isNext).1
    cases isPassed with
    | inl before => exact lt_trans (before cud rfl) greater
    | inr isCud =>
        rw [isCud]
        exact greater
  · intro key isPassed
    by_cases later : cud < key
    · right
      intro valid
      cases valid with
      | intro entry both =>
          have isKey : key ∈ start.world.cuds.keys := Table.mem_keys.mpr ⟨entry, both.1⟩
          cases isNext : start.world.cuds.next? cud with
          | none => exact List.find?_eq_none.mp isNext key isKey (decide_eq_true later)
          | some next =>
              have least :=
                (Table.keys_find?_eq_some isNext).2.2 key isKey (decide_eq_true later)
              exact (isPassed next isNext).not_ge least
    · left
      cases (not_lt.mp later).lt_or_eq with
      | inl less =>
          left
          intro other isOther
          cases isOther
          exact less
      | inr same => exact .inr same

/-- One iteration of the loop over the clients. -/
theorem Closing.step {cud : Addr} (closing : Closing start (Passed (some cud)) teardown)
    (isClient : (start.world.search .client cud).isSome = true)
    (cancels : teardown.process.world.Valid .client cud →
      Exit.cancelThreads cud teardown = (.ok (), teardown)) (rc : Addr → Int) :
    ∃ after, Exit.step rc (.closing (some cud)) teardown =
        (.ok (.closing (start.world.cuds.next? cud)), after) ∧
      Closing start (Passed (start.world.cuds.next? cud)) after := by
  have allocated : (ObjectKind.client, cud) ∈ teardown.heap :=
    (closing.heap .client cud).mpr (closing.present .client cud isClient)
  have notPassed : ¬Passed (some cud) cud :=
    fun isPassed => lt_irrefl cud (isPassed cud rfl)
  rw [Exit.step, Fallible.bind_of_ok (Exit.deref_of_mem allocated), Fallible.asks_bind]
  by_cases valid : teardown.process.world.Valid .client cud
  · have closed := closing.close valid notPassed (rc cud)
    refine ⟨_, ?_, closed.advance⟩
    rw [← closed.next?_eq, if_pos (decide_eq_true valid),
      Fallible.bind_of_ok (cancels valid)]
    rfl
  · have closed : Closing start (fun key => Passed (some cud) key ∨ key = cud)
        teardown := by
      apply closing.widen
      · exact fun key isPassed => .inl isPassed
      · intro key isPassed
        cases isPassed with
        | inl before => exact .inl before
        | inr isCud =>
            rw [isCud, ← (closing.pending cud notPassed).2]
            exact .inr valid
    refine ⟨_, ?_, closed.advance⟩
    rw [← closed.next?_eq, if_neg (by simpa using valid)]
    rfl

/-! ## Freeing an entry -/

/-- An entry is unlinked from the queues, removed from its database, and freed. -/
def release (teardown : Teardown) (kind : ObjectKind)
    (key : Addr) (fifo : Addr → List Addr) :
    Teardown where
  process := { teardown.process with
    world := teardown.process.world.setTable kind
      ((teardown.process.world.table kind).erase key)
    fifo }
  heap := teardown.heap.erase (kind, key)
  freed := teardown.freed ++ [(kind, key)]

/-- The number of entries. -/
def size (teardown : Teardown) : Nat :=
  teardown.process.world.cuds.entries.length +
    teardown.process.world.puds.entries.length +
    teardown.process.world.ruds.entries.length +
      teardown.process.world.tuds.entries.length

section Release

variable {fifo : Addr → List Addr}

theorem search_release (other : ObjectKind) (otherKey : Addr) :
    (teardown.release kind key fifo).search other otherKey =
      if other = kind ∧ otherKey = key then none else teardown.search other otherKey :=
  search_erase other otherKey

theorem isSome_search_release (other : ObjectKind) (otherKey : Addr) :
    ((teardown.release kind key fifo).search other otherKey).isSome = true ↔
      (other, otherKey) ≠ (kind, key) ∧
        (teardown.search other otherKey).isSome = true := by
  rw [search_release]
  by_cases same : other = kind ∧ otherKey = key
  · simp [same]
  · simp [same]

theorem size_release (found : (teardown.search kind key).isSome = true) :
    (teardown.release kind key fifo).size < teardown.size := by
  cases Option.isSome_iff_exists.mp found with
  | intro entry isEntry =>
      have fewer := Table.length_erase isEntry
      unfold size
      cases kind with
      | client =>
          exact Nat.add_lt_add_right
            (Nat.add_lt_add_right (Nat.add_lt_add_right fewer _) _) _
      | port =>
          exact Nat.add_lt_add_right
            (Nat.add_lt_add_right (Nat.add_lt_add_left fewer _) _) _
      | ringbuffer => exact Nat.add_lt_add_right (Nat.add_lt_add_left fewer _) _
      | thread => exact Nat.add_lt_add_left fewer _

/-- Once the queues are right again, so is the rest. -/
theorem Tidy.release (tidy : Tidy start teardown)
    (found : (teardown.search kind key).isSome = true)
    (linked : (teardown.release kind key fifo).process.Linked) :
    Tidy start (teardown.release kind key fifo) where
  linked := linked
  heap := by
    intro other otherKey
    have isMember : (other, otherKey) ∈ teardown.heap.erase (kind, key) ↔ _ :=
      tidy.heapNodup.mem_erase_iff
    rw [isSome_search_release, ← tidy.heap]
    exact isMember
  heapNodup := tidy.heapNodup.erase _
  freed := by
    intro other otherKey
    have isMember : (other, otherKey) ∈ teardown.freed ++ [(kind, key)] ↔ _ :=
      List.mem_append
    rw [search_release]
    apply isMember.trans
    rw [tidy.freed, List.mem_singleton, Prod.mk.injEq]
    by_cases same : other = kind ∧ otherKey = key
    · rcases same with ⟨rfl, rfl⟩
      simp [tidy.kept _ _ found]
    · simp [same]
  freedNodup := by
    apply tidy.freedNodup.append (List.nodup_singleton _)
    intro entry member isEntry
    rw [List.mem_singleton.mp isEntry, tidy.freed] at member
    rw [member.2] at found
    cases found
  kept := by
    intro other otherKey isSome
    exact tidy.kept other otherKey ((isSome_search_release other otherKey).mp isSome).2

theorem Freeing.release (freeing : Freeing start emptied teardown)
    (found : (teardown.search kind key).isSome = true)
    (linked : (teardown.release kind key fifo).process.Linked) :
    Freeing start emptied (teardown.release kind key fifo) where
  toTidy := freeing.toTidy.release found linked
  emptied := by
    intro other isEmpty otherKey
    rw [search_release, freeing.emptied other isEmpty, ite_self]
  closed := by
    intro client
    have sameTrace : (teardown.release kind key fifo).process.world.trace =
        teardown.process.world.trace := by cases kind <;> rfl
    rw [sameTrace]
    exact freeing.closed client

end Release

/-! ### The queues -/

theorem fifo_release (fifo : Addr → List Addr) :
    (teardown.release kind key fifo).process.fifo = fifo := rfl

theorem portOwner_release (fifo : Addr → List Addr) (other : Addr) :
    (teardown.release kind key fifo).process.portOwner other =
      if kind = .port ∧ other = key then none else teardown.process.portOwner other := by
  have isEntry : (teardown.release kind key fifo).search .port other =
      if .port = kind ∧ other = key then none else teardown.search .port other :=
    search_release .port other
  have isSearch := congrArg (Option.map Pud.cud) isEntry
  rw [apply_ite (Option.map Pud.cud)] at isSearch
  simp only [@eq_comm _ kind]
  exact isSearch

/-- The queues do not concern threads and ringbuffers. -/
theorem linked_release (linked : teardown.process.Linked) (notPort : kind ≠ .port)
    (notClient : kind ≠ .client) :
    (teardown.release kind key teardown.process.fifo).process.Linked := by
  apply linked.congr
  · rfl
  · intro other
    rw [portOwner_release, if_neg fun both => notPort both.1]
  · intro cud isSome
    apply (isSome_search_release .client cud).mpr
    exact ⟨fun same => notClient (Prod.mk.inj same).1.symm, isSome⟩

/-- Clients are freed when there are no ports left. -/
theorem linked_release_client (linked : teardown.process.Linked)
    (noPorts : ∀ other, teardown.search .port other = none) :
    (teardown.release .client key teardown.process.fifo).process.Linked where
  nodup := linked.nodup
  listed := by
    intro cud other
    rw [portOwner_release, if_neg (by simp)]
    exact linked.listed cud other
  owned := by
    intro cud other isOwner
    rw [portOwner_release, if_neg (by simp), Process.portOwner] at isOwner
    have noPort : teardown.process.world.search .port other = none := noPorts other
    rw [noPort] at isOwner
    cases isOwner

/-- A port is unlinked from the queue of its client. -/
theorem linked_release_port (linked : teardown.process.Linked) {pud : Pud}
    (found : teardown.search .port key = some pud) :
    (teardown.release .port key (Function.update teardown.process.fifo pud.cud
      ((teardown.process.fifo pud.cud).erase key))).process.Linked where
  nodup := by
    intro cud
    rw [fifo_release]
    by_cases isCud : cud = pud.cud
    · rw [isCud, Function.update_self]
      exact (linked.nodup pud.cud).erase key
    · rw [Function.update_of_ne isCud]
      exact linked.nodup cud
  listed := by
    intro cud other
    have isOwner : teardown.process.portOwner key = some pud.cud :=
      congrArg (Option.map Pud.cud) found
    rw [portOwner_release, fifo_release]
    by_cases isCud : cud = pud.cud
    · rw [isCud, Function.update_self, (linked.nodup pud.cud).mem_erase_iff,
        linked.listed]
      by_cases isKey : other = key
      · simp [isKey]
      · simp [isKey]
    · rw [Function.update_of_ne isCud, linked.listed]
      by_cases isKey : other = key
      · simp [isKey, isOwner, Ne.symm isCud]
      · simp [isKey]
  owned := by
    intro cud other isOwner
    rw [portOwner_release] at isOwner
    split at isOwner
    · cases isOwner
    · apply (isSome_search_release .client cud).mpr
      exact ⟨by simp, linked.owned cud other isOwner⟩

/-- The memory of an entry that its database holds is allocated. -/
theorem Tidy.allocated (tidy : Tidy start teardown) {entry : kind.Entry}
    (found : teardown.search kind key = some entry) :
    (kind, key) ∈ teardown.heap ∧ (teardown.search kind key).isSome = true := by
  have isSome : (teardown.search kind key).isSome = true := by
    rw [found]
    rfl
  exact ⟨(tidy.heap kind key).mpr isSome, isSome⟩

/-- Entries without links. -/
theorem remove_free (tidy : Tidy start teardown) {entry : kind.Entry}
    (found : teardown.search kind key = some entry) :
    (do Exit.remove kind key; Exit.free kind key : Exit Unit) teardown =
      (.ok (), teardown.release kind key teardown.process.fifo) := by
  have allocated := tidy.allocated found
  rw [Fallible.bind_of_ok (Exit.remove_of_mem allocated.1 allocated.2)]
  exact Exit.free_of_mem allocated.1

/-- The entry of a port is found in the queue of its client, and the entries that are
read on the way are allocated. -/
theorem pudFree_eq (tidy : Tidy start teardown) {pud : Pud}
    (found : teardown.search .port key = some pud) :
    Exit.pudFree key pud teardown = (.ok (), teardown.release .port key
      (Function.update teardown.process.fifo pud.cud
        ((teardown.process.fifo pud.cud).erase key))) := by
  have allocated := tidy.allocated found
  have isOwner : teardown.process.portOwner key = some pud.cud :=
    congrArg (Option.map Pud.cud) found
  have member := (tidy.linked.listed pud.cud key).mpr isOwner
  have client := (tidy.heap .client pud.cud).mpr (tidy.linked.owned pud.cud key isOwner)
  have nodes (node : Addr) (inQueue : node ∈ teardown.process.fifo pud.cud) :
      (ObjectKind.port, node) ∈ teardown.heap := by
    have isNode := (tidy.linked.listed pud.cud node).mp inQueue
    rw [Process.portOwner, Option.map_eq_some_iff] at isNode
    rcases isNode with ⟨other, isOther, _⟩
    exact (tidy.allocated isOther).1
  rw [Exit.pudFree, Fallible.bind_of_ok (Exit.remove_of_mem allocated.1 allocated.2)]
  have unlinked := @Exit.cudFifoRemove_of_mem (teardown.setTable .port
    ((teardown.process.world.table .port).erase key)) key pud.cud member client nodes
  rw [Fallible.bind_of_ok unlinked]
  exact Exit.free_of_mem allocated.1

/-- One iteration of the loops that free entries. -/
theorem Freeing.freeEntry (freeing : Freeing start emptied teardown) {entry : kind.Entry}
    (found : teardown.search kind key = some entry)
    (noPorts : kind = .client → ∀ other, teardown.search .port other = none) :
    ∃ after, Exit.freeEntry kind key entry teardown = (.ok (), after) ∧
      Freeing start emptied after ∧ after.size < teardown.size := by
  have isSome := (freeing.allocated found).2
  cases kind with
  | client =>
      exact ⟨_, remove_free freeing.toTidy found,
        freeing.release isSome (linked_release_client freeing.linked (noPorts rfl)),
          size_release isSome⟩
  | port =>
      exact ⟨_, pudFree_eq freeing.toTidy found,
        freeing.release isSome (linked_release_port freeing.linked found),
        size_release isSome⟩
  | ringbuffer =>
      exact ⟨_, remove_free freeing.toTidy found,
        freeing.release isSome (linked_release freeing.linked (by simp) (by simp)),
          size_release isSome⟩
  | thread =>
      exact ⟨_, remove_free freeing.toTidy found,
        freeing.release isSome (linked_release freeing.linked (by simp) (by simp)),
          size_release isSome⟩

/-! ## The whole sequence -/

/-- The databases that are empty when the loop over one of them begins. -/
def EmptiedBefore : ObjectKind → ObjectKind → Prop
  | .thread, _ => False
  | .ringbuffer, kind => kind = .thread
  | .port, kind => kind = .ringbuffer ∨ kind = .thread
  | .client, kind => kind ≠ .client

/-- What holds at each stage. -/
def Sound (start : Process) : Exit.Stage → Teardown → Prop
  | .closing next, teardown => Closing start (Passed next) teardown ∧
      ∀ cud, next = some cud → (start.world.search .client cud).isSome = true
  | .freeing kind, teardown => Freeing start (EmptiedBefore kind) teardown
  | .done, teardown => Freeing start (fun _ => True) teardown

/-- A bound on the iterations that are left. -/
def left (start : Process) : Exit.Stage → Teardown → Nat
  | .closing none, _ => start.teardown.size + 5
  | .closing (some cud), _ =>
      (start.world.cuds.keys.filter fun key => cud ≤ key).length + start.teardown.size + 5
  | .freeing .thread, teardown => teardown.size + 4
  | .freeing .ringbuffer, teardown => teardown.size + 3
  | .freeing .port, teardown => teardown.size + 2
  | .freeing .client, teardown => teardown.size + 1
  | .done, _ => 0

theorem Closing.size_eq (closing : Closing start passed teardown) :
    teardown.size = start.teardown.size := by
  have lengths (kind : ObjectKind) : (teardown.process.world.table kind).entries.length =
      (start.world.table kind).entries.length := by
    have same := congrArg List.length (closing.keys_eq kind)
    rw [Table.keys, Table.keys, List.length_map, List.length_map] at same
    exact same
  have clients : teardown.process.world.cuds.entries.length =
      start.world.cuds.entries.length :=
    lengths .client
  have ports : teardown.process.world.puds.entries.length =
      start.world.puds.entries.length :=
    lengths .port
  have ringbuffers : teardown.process.world.ruds.entries.length =
      start.world.ruds.entries.length := lengths .ringbuffer
  have threads : teardown.process.world.tuds.entries.length =
      start.world.tuds.entries.length :=
    lengths .thread
  rw [size, clients, ports, ringbuffers, threads]
  rfl

/-- Fewer clients are left behind a client than from it on. -/
theorem left_next {cud : Addr}
    (isClient : (start.world.search .client cud).isSome = true) :
    left start (.closing (start.world.cuds.next? cud)) teardown <
      left start (.closing (some cud)) teardown := by
  have isKey : cud ∈ start.world.cuds.keys := Table.mem_keys_iff_isSome.mpr isClient
  cases isNext : start.world.cuds.next? cud with
  | none =>
      have isLeft : cud ∈ start.world.cuds.keys.filter fun key => cud ≤ key :=
        List.mem_filter.mpr ⟨isKey, decide_eq_true (le_refl cud)⟩
      have some := List.length_pos_of_mem isLeft
      simp only [left]
      omega
  | some next =>
      have greater := of_decide_eq_true (Table.keys_find?_eq_some isNext).1
      have fewer : (start.world.cuds.keys.filter fun key => next ≤ key).length <
          (start.world.cuds.keys.filter fun key => cud ≤ key).length := by
        have isFilter : (start.world.cuds.keys.filter fun key => next ≤ key) =
            (start.world.cuds.keys.filter fun key => cud ≤ key).filter fun key =>
              next ≤ key := by
          rw [List.filter_filter]
          apply List.filter_congr
          intro key _
          by_cases later : next ≤ key
          · simp [later, (greater.le.trans later)]
          · simp [later]
        rw [isFilter, List.length_filter_lt_length_iff_exists]
        exact ⟨cud, List.mem_filter.mpr ⟨isKey, decide_eq_true (le_refl cud)⟩, by simpa
          using greater⟩
      simp only [left]
      omega

/-- What the first entry of a database is. -/
theorem first?_apply (kind : ObjectKind) (teardown : Teardown) :
    (∃ key entry, Exit.first? kind teardown = (.ok (some (key, entry)), teardown) ∧
      teardown.search kind key = some entry) ∨
    Exit.first? kind teardown = (.ok none, teardown) ∧
      ∀ key, teardown.search kind key = none := by
  cases isFirst : (teardown.process.world.table kind).nfind? 0 with
  | some key =>
      have isKey := (Table.keys_find?_eq_some isFirst).2.1
      rcases Table.mem_keys.mp isKey with ⟨entry, found⟩
      refine .inl ⟨key, entry, ?_, found⟩
      have isEntry : teardown.search kind key = some entry := found
      rw [Exit.first?, Fallible.asks_apply, isFirst]
      simp [isEntry]
  | none =>
      refine .inr ⟨?_, ?_⟩
      · rw [Exit.first?, Fallible.asks_apply, isFirst]
        rfl
      · intro key
        apply Table.find?_eq_none.mpr
        intro isKey
        exact List.find?_eq_none.mp isFirst key isKey (decide_eq_true (Addr.zero_le key))

/-- The threads of the next client can be cancelled. -/
theorem Closing.cancels {cud : Addr}
    (closing : Closing start (Passed (some cud)) teardown)
    (created : start.ThreadsCreated) (valid : teardown.process.world.Valid .client cud) :
    Exit.cancelThreads cud teardown = (.ok (), teardown) := by
  have notPassed : ¬Passed (some cud) cud :=
    fun isPassed => lt_irrefl cud (isPassed cud rfl)
  have wasValid := (closing.pending cud notPassed).2.mp valid
  rcases Exit.cancelThreads_cases teardown cud with
    cancelled | ⟨key, tud, found, owned, failed, _⟩
  · exact cancelled.1
  · rw [ObjectKind.ownedBy, Bool.and_eq_true, decide_eq_true_eq] at owned
    have isOwner : tud.cud = cud := Option.some.inj owned.2
    rw [← isOwner] at wasValid
    exact absurd failed
      (created key tud (closing.threads key tud found owned.1) owned.1 wasValid)

/-- What one step of the sequence does: there is no fault, and fewer steps are left. -/
theorem sound_step (created : start.ThreadsCreated) (rc : Addr → Int) {stage : Exit.Stage}
    (sound : Sound start stage teardown) :
    ∃ next after, Exit.step rc stage teardown = (.ok next, after) ∧
      Sound start next after ∧
      left start next after ≤ left start stage teardown - 1 := by
  cases stage with
  | closing next =>
      cases next with
      | none =>
          refine ⟨_, _, rfl, sound.1.freeing, ?_⟩
          simp only [left, sound.1.size_eq]
          omega
      | some cud =>
          have isClient := sound.2 cud rfl
          rcases sound.1.step isClient (sound.1.cancels created) rc with
            ⟨after, isStep, closing⟩
          refine ⟨_, after, isStep, ⟨closing, ?_⟩,
            Nat.le_sub_one_of_lt (left_next isClient)⟩
          intro next isNext
          exact Table.mem_keys_iff_isSome.mp (Table.keys_find?_eq_some isNext).2.1
  | freeing kind =>
      cases first?_apply kind teardown with
      | inl found =>
          rcases found with ⟨key, entry, isFirst, isEntry⟩
          have noPorts (isClient : kind = .client) (other : Addr) :
              teardown.search .port other = none := by
            subst isClient
            exact sound.emptied .port (by simp [EmptiedBefore]) other
          rcases sound.freeEntry isEntry noPorts with ⟨after, isFreed, freeing, fewer⟩
          refine ⟨.freeing kind, after, ?_, freeing, ?_⟩
          · rw [Exit.step, Fallible.bind_of_ok isFirst]
            dsimp only
            rw [Fallible.bind_of_ok isFreed]
            rfl
          · cases kind <;> simp only [left] <;> omega
      | inr empty =>
          refine ⟨.following kind, teardown, ?_, ?_, ?_⟩
          · rw [Exit.step, Fallible.bind_of_ok empty.1]
            rfl
          · have following := sound.following empty.2
            cases kind with
            | thread => exact following.mono fun other isEmpty => .inl isEmpty
            | ringbuffer => exact following.mono fun other isEmpty => isEmpty
            | port =>
                apply following.mono
                intro other notClient
                cases other with
                | client => exact absurd rfl notClient
                | port => exact .inl rfl
                | ringbuffer => exact .inr (.inl rfl)
                | thread => exact .inr (.inr rfl)
            | client => exact following.mono fun other _ => em (other = .client)
          · cases kind <;> simp only [left, Exit.Stage.following] <;> omega
  | done => exact ⟨_, _, rfl, sound, Nat.zero_le _⟩

/-- Any number of steps. -/
theorem sound_clientCloseAll (linked : start.Linked) (created : start.ThreadsCreated)
    (rc : Addr → Int) (iterations : Nat) :
    ∃ stage after, Exit.clientCloseAll rc iterations start.teardown = (.ok stage, after) ∧
      Sound start stage after ∧
      left start stage after ≤
        left start (.closing (start.world.cuds.nfind? 0))
          start.teardown - iterations := by
  induction iterations with
  | zero =>
      refine ⟨_, _, rfl, ⟨closing_start linked, ?_⟩, Nat.le_refl _⟩
      intro cud isNext
      exact Table.mem_keys_iff_isSome.mp (Table.keys_find?_eq_some isNext).2.1
  | succ iterations ih =>
      rcases ih with ⟨stage, middle, run, sound, bound⟩
      rcases sound_step created rc sound with ⟨next, after, isStep, stillSound, fewer⟩
      refine ⟨next, after, ?_, stillSound, ?_⟩
      · rw [Exit.clientCloseAll, Fallible.bind_of_ok run]
        exact isStep
      · omega

/-- Nothing is left to do at the end only. -/
theorem done_of_left_eq_zero {stage : Exit.Stage}
    (nothing : left start stage teardown = 0) :
    stage = .done := by
  cases stage with
  | closing next => cases next <;> simp [left] at nothing
  | freeing kind => cases kind <;> simp [left] at nothing
  | done => rfl

/-- Nothing happens any more when the sequence is done. -/
theorem clientCloseAll_of_done {rc : Addr → Int}
    {iterations more : Nat} (later : iterations ≤ more)
    (done : Exit.clientCloseAll rc iterations start.teardown = (.ok .done, teardown)) :
    Exit.clientCloseAll rc more start.teardown = (.ok .done, teardown) := by
  induction later with
  | refl => exact done
  | step _ ih =>
      rw [Exit.clientCloseAll, Fallible.bind_of_ok ih]
      rfl

/-! ## A thread that has not been created -/

/-- The sequence has not come to the client of a thread that has not been created. -/
def Doomed (start : Process) (cud : Addr) (stage : Exit.Stage)
    (teardown : Teardown) : Prop :=
  ∃ next, stage = .closing (some next) ∧ next ≤ cud ∧
    (start.world.search .client next).isSome = true ∧
      Closing start (Passed (some next)) teardown

section Doom

variable {cud : Addr} {tud : Tud}

/-- A search of the clients does not miss one. -/
theorem search_clients (property : Addr → Bool) (valid : start.world.Valid .client cud)
    (isNext : property cud = true) :
    ∃ next, start.world.cuds.keys.find? property = some next ∧ next ≤ cud ∧
      (start.world.search .client next).isSome = true := by
  rcases valid with ⟨entry, found, _⟩
  have isKey : cud ∈ start.world.cuds.keys := Table.mem_keys.mpr ⟨entry, found⟩
  cases isFirst : start.world.cuds.keys.find? property with
  | none => exact absurd isNext (List.find?_eq_none.mp isFirst cud isKey)
  | some next =>
      have first := Table.keys_find?_eq_some isFirst
      exact ⟨next, rfl, first.2.2 cud isKey isNext,
        Table.mem_keys_iff_isSome.mp first.2.1⟩

/-- The next step does not come to an end, or it does not come to the client either. -/
theorem Doomed.step (found : start.world.search .thread key = some tud)
    (isValid : tud.valid = true)
    (valid : start.world.Valid .client tud.cud)
    (isConfiguring : tud.status = .configuring)
    {rc : Addr → Int} {stage after : Exit.Stage} {later : Teardown}
    (doomed : Doomed start tud.cud stage teardown)
    (steps : Exit.step rc stage teardown = (.ok after, later)) :
    Doomed start tud.cud after later := by
  rcases doomed with ⟨next, rfl, before, isClient, closing⟩
  have allocated : (ObjectKind.client, next) ∈ teardown.heap :=
    (closing.heap .client next).mpr (closing.present .client next isClient)
  have cancels (nextValid : teardown.process.world.Valid .client next) :
      Exit.cancelThreads next teardown = (.ok (), teardown) := by
    rcases Exit.cancelThreads_cases teardown next with cancelled | ⟨_, _, _, _, _, fails⟩
    · exact cancelled.1
    · rw [Exit.step, Fallible.bind_of_ok (Exit.deref_of_mem allocated),
        Fallible.asks_bind,
        if_pos (decide_eq_true nextValid), Fallible.bind_of_error fails] at steps
      cases steps
  have notPassed : ¬Passed (some next) tud.cud :=
    fun isPassed => not_lt_of_ge before (isPassed next rfl)
  have stillFound := closing.waiting key tud found notPassed
  have different : next ≠ tud.cud := by
    intro isCud
    have nextValid : teardown.process.world.Valid .client next := by
      rw [isCud]
      exact (closing.pending tud.cud notPassed).2.mpr valid
    have owned : ObjectKind.thread.ownedBy next tud = true := by
      rw [ObjectKind.ownedBy, Bool.and_eq_true, decide_eq_true_eq, isCud]
      exact ⟨isValid, rfl⟩
    rcases Exit.cancelThreads_cases teardown next with created | ⟨_, _, _, _, _, fails⟩
    · exact created.2 key tud stillFound owned isConfiguring
    · cases fails.symm.trans (cancels nextValid)
  rcases closing.step isClient cancels rc with ⟨_, isStep, stillClosing⟩
  cases isStep.symm.trans steps
  have behind : next < tud.cud := lt_of_le_of_ne before different
  rcases search_clients (fun key => next < key) valid (decide_eq_true behind) with
    ⟨following, isFollowing, notBehind, isKey⟩
  have isNext : start.world.cuds.next? next = some following := isFollowing
  rw [isNext] at stillClosing
  exact ⟨following, congrArg _ isNext, notBehind, isKey, stillClosing⟩

/-- As long as nothing has failed the sequence has not come to the client. -/
theorem doomed_clientCloseAll (linked : start.Linked)
    (found : start.world.search .thread key = some tud) (isValid : tud.valid = true)
    (valid : start.world.Valid .client tud.cud)
    (isConfiguring : tud.status = .configuring)
    {rc : Addr → Int} {iterations : Nat} {stage : Exit.Stage} {after : Teardown}
    (run : Exit.clientCloseAll rc iterations start.teardown = (.ok stage, after)) :
    Doomed start tud.cud stage after := by
  induction iterations generalizing stage after with
  | zero =>
      have closing := closing_start linked
      rcases search_clients (fun key => 0 ≤ key) valid
        (decide_eq_true (Addr.zero_le tud.cud)) with
        ⟨first, isFirst, notBehind, isKey⟩
      have isFirst : start.world.cuds.nfind? 0 = some first := isFirst
      rw [isFirst] at closing
      cases run
      exact ⟨first, congrArg _ isFirst, notBehind, isKey, closing⟩
  | succ iterations ih =>
      rw [Exit.clientCloseAll] at run
      rcases Fallible.bind_eq_ok.mp run with ⟨middleStage, middle, before, steps⟩
      exact (ih before).step found isValid valid isConfiguring steps

end Doom

end Teardown

open Teardown

/-- The exit sequence ends without a fault. All the while the queue of each client lists
exactly its ports that have not been freed, and these have a client with an entry.  At
the end each entry has been freed once, and each client that was valid has been closed
once. The arguments are the answers of `jack_deactivate`. -/
structure Process.Exits (process : Process) (rc : Addr → Int) : Prop where
  linked : ∀ iterations, ∃ stage after,
    Exit.clientCloseAll rc iterations process.teardown = (.ok stage, after) ∧
      after.process.Linked
  ends : ∃ iterations after,
    (∀ more, iterations ≤ more →
      Exit.clientCloseAll rc more process.teardown = (.ok .done, after)) ∧
    after.freed.Nodup ∧
    (∀ kind key, (kind, key) ∈ after.freed ↔
      (process.world.search kind key).isSome = true) ∧
    (∀ kind key, after.search kind key = none) ∧
    ∀ key, releases .client key after.process.world.trace =
      releases .client key process.world.trace +
        if process.world.Valid .client key then 1 else 0

theorem Process.Linked.exits {process : Process} (linked : process.Linked)
    (created : process.ThreadsCreated) (rc : Addr → Int) : process.Exits rc := by
  constructor
  · intro iterations
    rcases sound_clientCloseAll linked created rc iterations with
      ⟨stage, after, isRun, sound, _⟩
    refine ⟨stage, after, isRun, ?_⟩
    cases stage with
    | closing next => exact sound.1.linked
    | freeing kind => exact sound.linked
    | done => exact sound.linked
  · let bound := left process (.closing (process.world.cuds.nfind? 0)) process.teardown
    rcases sound_clientCloseAll linked created rc bound with
      ⟨stage, after, isRun, sound, nothing⟩
    have isDone : stage = .done :=
      done_of_left_eq_zero
        (Nat.le_zero.mp (nothing.trans (Nat.le_of_eq (Nat.sub_self bound))))
    subst isDone
    have empty := fun kind key => sound.emptied kind trivial key
    refine ⟨bound, after, ?_, sound.freedNodup, ?_, empty, sound.closed⟩
    · exact fun more later => clientCloseAll_of_done later isRun
    · intro kind key
      rw [sound.freed kind key]
      exact and_iff_left (empty kind key)

/-- The sequence does not come to its end when a thread has not been created. -/
theorem Process.Linked.created_of_exits {process : Process} (linked : process.Linked)
    {rc : Addr → Int} (exits : process.Exits rc) : process.ThreadsCreated := by
  intro key tud found isValid valid isConfiguring
  rcases exits.ends with ⟨iterations, after, ends, _⟩
  rcases doomed_clientCloseAll linked found isValid valid isConfiguring
    (ends iterations (Nat.le_refl _)) with ⟨next, isNext, _⟩
  cases isNext

/-- What holds of the queues in the whole life of a process. -/
theorem Process.linked_of_lives {happenings : List Happening} {before after : Process}
    (run : life.run happenings before = some after) (linked : before.Linked) :
    after.Linked :=
  Machine.invariant_of_any_run
    (fun _ _ _ linked performed => Process.linked_step linked performed)
    linked run

/-- From a state that the life of a process reaches, the exit sequence does what it
should exactly if every thread whose entry is valid has been created. -/
theorem clientCloseAll_frees_iff (descriptors : Finset Int) (happenings : List Happening)
    (process : Process) (run : life.run happenings (.initial descriptors) = some process)
    (rc : Addr → Int) : process.Exits rc ↔ process.ThreadsCreated := by
  have linked := Process.linked_of_lives run (Process.linked_initial descriptors)
  exact ⟨linked.created_of_exits, fun created => linked.exits created rc⟩

/-- A client with a ringbuffer. -/
def withRingbuffer : List Happening :=
  [.clientOpen 0x601010, .ringbuffer 0x601010 0x602010 (3, 4)]

/-- The exit sequence frees a client and the ringbuffer that was created for it. -/
theorem clientCloseAll_frees_iff_ringbuffer :
    ∃ process, life.run withRingbuffer (.initial {0, 1, 2}) = some process ∧
      ∃ iterations after,
        Exit.clientCloseAll (fun _ => 0) iterations process.teardown =
          (.ok .done, after) ∧
          (.client, 0x601010) ∈ after.freed ∧ (.ringbuffer, 0x602010) ∈ after.freed := by
  refine ⟨_, rfl, ?_⟩
  have exits := (clientCloseAll_frees_iff {0, 1, 2} withRingbuffer _ rfl fun _ => 0).mpr
    fun _ _ found => by cases found
  rcases exits.ends with ⟨iterations, after, ends, _, freed, _⟩
  refine ⟨iterations, after, ends iterations (Nat.le_refl _), ?_, ?_⟩
  · exact (freed .client 0x601010).mpr (by decide)
  · exact (freed .ringbuffer 0x602010).mpr (by decide)

/-- A client, and a thread whose lock cannot be initialized. -/
def withoutLock : List Happening :=
  [.clientOpen 0x601010,
    ⟨.create (.threadCreate (.withoutMutex 0x601010 0x602010)), none, 0, 0⟩]

/-- The exit sequence cancels a thread that has not been created. -/
theorem clientCloseAll_cancels_nothing :
    ¬ ∀ happenings process, life.run happenings (.initial {0, 1, 2}) = some process →
      process.Exits fun _ => 0 := by
  intro always
  have exits := always withoutLock _ rfl
  have linked := @Process.linked_of_lives withoutLock _ _ rfl
    (Process.linked_initial {0, 1, 2})
  exact linked.created_of_exits exits 0x602010 _ rfl rfl ⟨_, rfl, rfl⟩ rfl

end LuaJack
