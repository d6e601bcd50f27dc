import LuaJack.Callback.LuaStates
import LuaJack.Object.Failure

/-!
# The balance of references

Every reference that is used in a registry must be in a slot of a valid client, and in
no other slot, and the slots of clients that have been closed must be empty.  Otherwise
functions are never released, or released while they are still registered.
-/

namespace LuaJack

open Atomic

/-- The reference in a slot of a client for the real-time thread, if the client is valid
and has this process state. -/
def World.processRef (world : World) (state : Handle) (slot : Addr × ProcessKind) : Ref :=
  (world.search .client slot.1).elim noRef fun cud =>
    if cud.valid ∧ cud.processState = some state then cud.processRefs slot.2 else noRef

/-- All slots of the client are empty. -/
structure Cud.Unregistered (cud : Cud) : Prop where
  refs : ∀ kind, cud.refs kind = noRef
  processRefs : ∀ kind, cud.processRefs kind = noRef

/-- The references that are used in the registries are those in the slots of the valid
clients, one for each slot that is not empty. -/
structure LuaStates.Balanced (states : LuaStates) : Prop where
  main : Accounts states.world.registry noRef states.world.ref
  process : ∀ state registry, states.registries state = some registry →
    Accounts registry noRef (states.world.processRef state)
  /-- Clients without a process state have nothing in the slots for it. -/
  stateless : ∀ cud entry, states.world.search .client cud = some entry →
    entry.valid = true →
    states.registryOf entry.processState = none → ∀ kind, entry.processRefs kind = noRef
  closed : ∀ cud entry, states.world.search .client cud = some entry →
    entry.valid = false →
    entry.Unregistered

theorem World.ref_eq_elim (world : World) (slot : Addr × CallbackKind) : world.ref slot =
    (world.search .client slot.1).elim noRef fun cud =>
      if cud.valid then cud.refs slot.2 else noRef := by
  unfold World.ref
  cases world.search .client slot.1 with
  | none => rfl
  | some entry => rfl

/-! ## Functions that leave the slots alone -/

/-- What the entry of a client says about callbacks. -/
structure Callbacks where
  valid : Bool
  refs : CallbackKind → Ref
  processState : Option Handle
  processRefs : ProcessKind → Ref

/-- The members that concern callbacks. -/
def Cud.callbacks (cud : Cud) : Callbacks where
  valid := cud.valid
  refs := cud.refs
  processState := cud.processState
  processRefs := cud.processRefs

/-- A client keeps its callbacks, or is new. -/
inductive SameCallbacks : Option Cud → Option Cud → Prop where
  | absent : SameCallbacks none none
  | kept {old new : Cud} (same : new.callbacks = old.callbacks) :
      SameCallbacks (some old) (some new)
  | created {new : Cud} (empty : new.callbacks = Cud.new.callbacks) :
      SameCallbacks none (some new)

namespace SameCallbacks

theorem refl (found : Option Cud) : SameCallbacks found found := by
  cases found with
  | none => exact .absent
  | some entry => exact .kept rfl

theorem trans {first second third : Option Cud} (one : SameCallbacks first second)
    (two : SameCallbacks second third) : SameCallbacks first third := by
  cases one with
  | absent => exact two
  | kept same =>
      cases two with
      | kept alsoSame => exact .kept (alsoSame.trans same)
  | created empty =>
      cases two with
      | kept same => exact .created (same.trans empty)

/-- What depends on the callbacks, and not on whether a client without callbacks
exists. -/
theorem congr {α : Type} {old new : Option Cud} (same : SameCallbacks old new)
    (access : Option Cud → α)
    (ofKept : ∀ old new, new.callbacks = old.callbacks →
      access (some new) = access (some old))
    (ofCreated : ∀ new, new.callbacks = Cud.new.callbacks →
      access (some new) = access none) :
    access new = access old := by
  cases same with
  | absent => rfl
  | kept same => exact ofKept _ _ same
  | created empty => exact ofCreated _ empty

end SameCallbacks

/-- The registry and the callbacks of clients are as they were. -/
structure SameSlots (before after : World) : Prop where
  registry : after.registry = before.registry
  callbacks : ∀ cud, SameCallbacks (before.search .client cud) (after.search .client cud)

namespace SameSlots

variable {first second third before after : World}

theorem refl (world : World) : SameSlots world world where
  registry := rfl
  callbacks := fun _ => .refl _

theorem trans (one : SameSlots first second) (two : SameSlots second third) :
    SameSlots first third where
  registry := two.registry.trans one.registry
  callbacks := fun cud => (one.callbacks cud).trans (two.callbacks cud)

theorem of_search (registry : after.registry = before.registry)
    (search : ∀ cud, after.search .client cud = before.search .client cud) :
    SameSlots before after where
  registry := registry
  callbacks := by
    intro cud
    rw [search]
    exact .refl _

/-- Functions that do not touch the database of clients. -/
theorem framed {touched : ObjectKind → Prop} (untouched : ¬touched .client)
    (allocated : Option (ObjectKind × Addr)) : FramedOn touched allocated SameSlots where
  refl := refl
  trans := trans
  elsewhere := fun _ _ _ => of_search rfl fun _ => rfl
  perform := fun _ _ => of_search rfl fun _ => rfl
  modifyEntry := by
    intro world kind key change isTouched _
    have different : .client ≠ kind := by
      intro same
      exact untouched (same ▸ isTouched)
    apply of_search
    · cases kind <;> rfl
    · exact World.search_modifyEntry_of_ne _ _ different
  insert := by
    intro world kind key entry isTouched _ _ _
    have different : .client ≠ kind := by
      intro same
      exact untouched (same ▸ isTouched)
    apply of_search
    · cases kind <;> rfl
    · intro cud
      rw [World.search, World.table_setTable_of_ne _ different]
      rfl
  freeAll := by
    intro world kind cud free isTouched
    have different : .client ≠ kind := by
      intro same
      exact untouched (same ▸ isTouched)
    apply of_search
    · cases kind <;> rfl
    · exact World.search_freeAll_of_ne _ _ _ _ different

theorem framesActivity :
    FramesActivity SameSlots := fun _ _ _ => of_search rfl fun _ => rfl

/-- Members that do not concern callbacks may change. -/
theorem of_modifyEntry (world : World) (cud : Addr) {change : Cud → Cud}
    (same : ∀ entry, (change entry).callbacks = entry.callbacks) :
    SameSlots world (world.modifyEntry .client cud change) where
  registry := rfl
  callbacks := by
    intro other
    rw [World.search_modifyEntry]
    split
    · cases world.search .client other with
      | none => exact .absent
      | some entry => exact .kept (same entry)
    · exact .refl _

/-- A new client has registered nothing. -/
theorem created {world : World} {key : Addr} (absent : world.search .client key = none)
    {change : Cud → Cud} (same : ∀ entry, (change entry).callbacks = entry.callbacks) :
    SameSlots world
      ((world.setTable .client ((world.table .client).insert key Cud.new)).modifyEntry
      .client key change) where
  registry := rfl
  callbacks := by
    intro cud
    rw [World.search_created absent]
    by_cases isKey : cud = key
    · rw [if_pos isKey, isKey, absent]
      exact .created (same _)
    · rw [if_neg isKey]
      exact .refl _

theorem clientOpen (call : ClientOpen) (world : World) :
    SameSlots world (clientOpen call world).2 := by
  have framed : FramedOn (fun _ => False) none SameSlots := framed id none
  have refused (client : Handle) (world : World) : SameSlots world
      (world.perform (.jackClientClose none client)) := framed.perform world _
  revert world
  apply framed.respects_create
  cases call.name.toString? with
  | none => exact framed.respects_error _
  | some name =>
      apply framed.respects_bind (framed.respects_ofExcept _)
      intro request
      cases call.jackClientOpen request with
      | error status => exact framed.respects_error _
      | ok client =>
          intro world
          dsimp only
          cases call.malloc with
          | none => exact refused client world
          | some key =>
              simp only [new, bind_assoc, Lua.asks_bind]
              cases found : world.search .client key with
              | some entry => exact (framed.luajackError world _).trans (refused client _)
              | none => exact created found fun _ => rfl

/-- Only registering callbacks and closing clients concerns callbacks. -/
theorem operation (operation : Operation) (quiet : operation.setsReferences = false)
    (world : World) : SameSlots world (operation.perform world) := by
  have byFrame (untouched : ¬operation.touches .client) :
      SameSlots world (operation.perform world) := by
    apply (framed untouched operation.allocated).operation fun _ => framesActivity
    intro sets
    rw [quiet] at sets
    cases sets
  cases operation with
  | create creation =>
      cases creation with
      | clientOpen call => exact clientOpen call world
      | _ => exact byFrame fun touched => by cases touched
  | clientClose | register => cases quiet
  | notify ports notification cud evtNew =>
      have framed : FramedOn (fun _ => False) none SameSlots := framed id none
      exact framed.notify
        (fun world nframes => of_modifyEntry world cud fun _ => rfl) ports
        notification evtNew world
  | _ => exact byFrame fun touched => by cases touched

variable (same : SameSlots before after)
include same

theorem ref : after.ref = before.ref := by
  funext slot
  rw [World.ref_eq_elim, World.ref_eq_elim]
  apply (same.callbacks slot.1).congr fun found =>
    found.elim noRef fun cud => if cud.valid then cud.refs slot.2 else noRef
  · intro old new same
    cases old
    cases new
    cases same
    rfl
  · intro new empty
    cases new
    cases empty
    rfl

theorem processRef (state : Handle) :
    after.processRef state = before.processRef state := by
  funext slot
  apply (same.callbacks slot.1).congr fun found => found.elim noRef fun cud =>
    if cud.valid ∧ cud.processState = some state then cud.processRefs slot.2 else noRef
  · intro old new same
    cases old
    cases new
    cases same
    rfl
  · intro new empty
    cases new
    cases empty
    rfl

/-- An entry has the callbacks of the entry before it, or is as good as new. -/
theorem entry {cud : Addr} {entry : Cud} (found : after.search .client cud = some entry) :
    (∃ old, before.search .client cud = some old ∧ entry.callbacks = old.callbacks) ∨
      entry.callbacks = Cud.new.callbacks := by
  have callbacks := same.callbacks cud
  rw [found] at callbacks
  generalize before.search .client cud = old at callbacks
  cases callbacks with
  | kept same => exact .inl ⟨_, rfl, same⟩
  | created empty => exact .inr empty

omit same in
/-- A client is not removed. -/
theorem kept (same : SameSlots before after) {cud : Addr} {old : Cud}
    (found : before.search .client cud = some old) :
    ∃ new, after.search .client cud = some new ∧ new.callbacks = old.callbacks := by
  have callbacks := same.callbacks cud
  rw [found] at callbacks
  generalize after.search .client cud = now at callbacks
  cases callbacks with
  | kept same => exact ⟨_, rfl, same⟩

end SameSlots

namespace LuaStates

namespace Balanced

variable {states after : LuaStates} {cud : Addr} {entry : Cud}

theorem initial : Balanced .initial where
  main := .empty (fun _ => rfl) fun _ => rfl
  process := fun state registry isRegistry => by cases isRegistry
  stateless := fun cud entry found => by cases found
  closed := fun cud entry found => by cases found

theorem sameSlots {world : World} (balanced : states.Balanced)
    (same : SameSlots states.world world) : Balanced { states with world } where
  main := by
    rw [same.registry, same.ref]
    exact balanced.main
  process := by
    intro state registry isRegistry
    rw [same.processRef]
    exact balanced.process state registry isRegistry
  stateless := by
    intro cud entry found isValid noRegistry
    cases same.entry found with
    | inl kept =>
        rcases kept with ⟨old, wasFound, callbacks⟩
        have sameState : entry.processState = old.processState :=
          congrArg Callbacks.processState callbacks
        have sameRefs : entry.processRefs = old.processRefs :=
          congrArg Callbacks.processRefs callbacks
        rw [sameRefs]
        apply balanced.stateless cud old wasFound
        · exact (congrArg Callbacks.valid callbacks).symm.trans isValid
        · rw [← sameState]
          exact noRegistry
    | inr empty => exact congrFun (congrArg Callbacks.processRefs empty)
  closed := by
    intro cud entry found isClosed
    cases same.entry found with
    | inl kept =>
        rcases kept with ⟨old, wasFound, callbacks⟩
        have unregistered := balanced.closed cud old wasFound
          ((congrArg Callbacks.valid callbacks).symm.trans isClosed)
        constructor
        · intro kind
          exact (congrFun (congrArg Callbacks.refs callbacks) kind).trans
            (unregistered.refs kind)
        · intro kind
          exact (congrFun (congrArg Callbacks.processRefs callbacks) kind).trans
            (unregistered.processRefs kind)
    | inr empty =>
        constructor
        · exact congrFun (congrArg Callbacks.refs empty)
        · exact congrFun (congrArg Callbacks.processRefs empty)

/-- The entry of one valid client changes, and the balance of the registries is known. -/
theorem modifyEntry (balanced : states.Balanced) (change : Cud → Cud)
    (found : states.world.search .client cud = some entry)
    (isValid : (change entry).valid = true)
    (search : ∀ other, after.world.search .client other =
      if other = cud then (states.world.search .client other).map change
      else states.world.search .client other)
    (main : Accounts after.world.registry noRef after.world.ref)
    (process : ∀ state registry, after.registries state = some registry →
      Accounts registry noRef (after.world.processRef state))
    (closes : ∀ state, after.registryOf state = none → states.registryOf state = none)
    (stateless : states.registryOf (change entry).processState = none →
      ∀ kind, (change entry).processRefs kind = noRef) : after.Balanced where
  main := main
  process := process
  stateless := by
    intro other otherEntry otherFound otherValid noRegistry
    rw [search] at otherFound
    by_cases isCud : other = cud
    · rw [if_pos isCud, isCud, found] at otherFound
      cases otherFound
      exact stateless (closes _ noRegistry)
    · rw [if_neg isCud] at otherFound
      exact balanced.stateless other otherEntry otherFound otherValid
        (closes _ noRegistry)
  closed := by
    intro other otherEntry otherFound isClosed
    rw [search] at otherFound
    by_cases isCud : other = cud
    · rw [if_pos isCud, isCud, found] at otherFound
      cases otherFound
      rw [isValid] at isClosed
      cases isClosed
    · rw [if_neg isCud] at otherFound
      exact balanced.closed other otherEntry otherFound isClosed

end Balanced

end LuaStates

/-! ## The registry of the main state -/

namespace World

variable {world : World} {cud : Addr} {entry : Cud}

theorem processRef_of_found (found : world.search .client cud = some entry)
    (state : Handle) (kind : ProcessKind) : world.processRef state (cud, kind) =
      if entry.valid ∧ entry.processState = some state then entry.processRefs kind
        else noRef := by
  rw [processRef, found]
  rfl

/-- Other clients keep what is in their slots when an entry changes. -/
theorem processRef_modifyEntry {change : Cud → Cud}
    {other : Addr} (different : other ≠ cud) (state : Handle) (kind : ProcessKind) :
    (world.modifyEntry .client cud change).processRef state (other, kind) =
      world.processRef state (other, kind) := by
  rw [processRef, search_modifyEntry, if_neg different]
  rfl

/-- The slots for the main state do not matter. -/
theorem processRef_setRef (kind : CallbackKind) (ref : Ref) (state : Handle) :
    (world.setRef cud kind ref).processRef state = world.processRef state := by
  funext slot
  rw [processRef, processRef, search_setRef]
  split
  · cases world.search .client slot.1 with
    | none => rfl
    | some entry => rfl
  · rfl

end World

namespace LuaStates.Balanced

variable {states : LuaStates} {cud : Addr} {entry : Cud}

theorem setRef (balanced : states.Balanced)
    (found : states.world.search .client cud = some entry)
    (isValid : entry.valid = true) (kind : CallbackKind) (registry : Registry) (ref : Ref)
    (main : Accounts registry noRef (Function.update states.world.ref (cud, kind) ref)) :
    (states.modifyWorld fun world =>
      { world with registry }.setRef cud kind ref).Balanced := by
  have valid : { states.world with registry }.Valid .client cud := ⟨entry, found, isValid⟩
  apply balanced.modifyEntry fun cud =>
    { cud with refs := Function.update cud.refs kind ref }
  · exact found
  · exact isValid
  · exact fun other => World.search_setRef other
  · have refs : ({ states.world with registry }.setRef cud kind ref).ref =
        Function.update states.world.ref (cud, kind) ref := World.ref_setRef valid
    exact refs ▸ main
  · intro state registry isRegistry
    have same : ({ states.world with registry }.setRef cud kind ref).processRef state =
        states.world.processRef state := World.processRef_setRef kind ref state
    exact same ▸ balanced.process state registry isRegistry
  · exact fun _ => id
  · exact fun noRegistry => balanced.stateless cud entry found isValid noRegistry

theorem unregister (balanced : states.Balanced)
    (found : states.world.search .client cud = some entry) (isValid : entry.valid = true)
    (kind : CallbackKind) : (states.modifyWorld (·.unregister cud kind)).Balanced := by
  unfold World.unregister
  by_cases isEmpty : entry.refs kind = noRef
  · simp only [LuaStates.modifyWorld, found, isEmpty, if_true]
    exact balanced
  · simp only [LuaStates.modifyWorld, found, isEmpty, if_false]
    apply balanced.setRef found isValid
    have released := balanced.main.release (cud, kind)
    rw [World.ref_of_valid found isValid] at released
    exact released

end LuaStates.Balanced

namespace World

variable {world : World} {cud : Addr} {entry : Cud}

theorem search_setRef_self (found : world.search .client cud = some entry)
    (kind : CallbackKind) (ref : Ref) : (world.setRef cud kind ref).search .client cud =
      some { entry with refs := Function.update entry.refs kind ref } := by
  rw [search_setRef, if_pos rfl, found]
  rfl

theorem search_unregister (found : world.search .client cud = some entry)
    (kind : CallbackKind) :
    (world.unregister cud kind).search .client cud =
      some { entry with refs := Function.update entry.refs kind noRef } := by
  unfold unregister
  by_cases isEmpty : entry.refs kind = noRef
  · simp only [found, isEmpty, if_true]
    rw [← isEmpty, Function.update_eq_self]
  · simp only [found, isEmpty, if_false]
    have same : (world.luaUnref (entry.refs kind)).search .client cud =
        some entry := found
    exact search_setRef_self same kind noRef

end World

namespace LuaStates.Balanced

variable {states : LuaStates} {cud : Addr} {entry : Cud}

/-- Unregistering some callbacks empties their slots. -/
theorem foldl_unregister (kinds : List CallbackKind) (balanced : states.Balanced)
    (found : states.world.search .client cud = some entry)
    (isValid : entry.valid = true) :
    (states.modifyWorld (kinds.foldl (·.unregister cud ·))).Balanced ∧
      (states.modifyWorld (kinds.foldl (·.unregister cud ·))).world.search .client cud =
        some { entry with
          refs := fun kind => if kind ∈ kinds then noRef else entry.refs kind } := by
  induction kinds generalizing states entry with
  | nil => exact ⟨balanced, by simpa [LuaStates.modifyWorld] using found⟩
  | cons kind rest ih =>
      have later := ih (balanced.unregister found isValid kind)
        (World.search_unregister found kind) isValid
      refine ⟨later.1, later.2.trans ?_⟩
      congr 2
      funext other
      by_cases isRest : other ∈ rest
      · simp [isRest]
      · by_cases isKind : other = kind
        · simp [isKind]
        · simp [isRest, isKind]

theorem noRef_ne_of_pos {ref : Ref} (positive : 0 < ref) : ref ≠ noRef := by
  intro isNoRef
  rw [isNoRef] at positive
  cases positive

/-- A function of the main state that registers a callback exchanges the reference in a
slot of a valid client, or removes it. -/
theorem register (balanced : states.Balanced)
    {kind : CallbackKind} {registration : Registration}
    (permitted : (Operation.register kind registration).permitted states.world = true) :
    (states.modifyWorld (Operation.register kind registration).perform).Balanced := by
  unfold Operation.perform registrationFunction cudCheck
  by_cases valid : states.world.Valid .client registration.client
  · simp only [LuaStates.modifyWorld, check_bind_of_valid valid]
    cases registration.function with
    | none => exact balanced
    | some function =>
        simp only [Operation.permitted, Bool.and_eq_true, decide_eq_true_eq,
          Option.isNone_iff_eq_none] at permitted
        cases valid with
        | intro entry both =>
            have unregistered := balanced.unregister both.1 both.2 kind
            have found := World.search_unregister both.1 kind
            have isEmpty : (states.world.unregister registration.client kind).ref
                (registration.client, kind) = noRef :=
              (World.ref_of_valid found both.2).trans
                (Function.update_self kind noRef entry.refs)
            have stored := unregistered.setRef found both.2 kind _ registration.ref
              (unregistered.main.store permitted.2
                (noRef_ne_of_pos permitted.1) isEmpty function)
            simp only [LuaJack.register, Lua.modify_bind, Lua.ite_apply]
            split
            · have same :
                  ((states.world.unregister registration.client kind).luaRef registration.ref
                    function).search .client registration.client = _ := found
              have found := World.search_setRef_self same kind registration.ref
              exact stored.unregister found both.2 kind
            · exact stored
  · simp only [LuaStates.modifyWorld, check_bind_of_not_valid valid]
    exact balanced

end LuaStates.Balanced

/-! ## The registries of the process states -/

namespace World

variable {world : World} {cud : Addr} {entry : Cud} {state : Handle}

theorem search_setProcessRef_self (found : world.search .client cud = some entry)
    (kind : ProcessKind) (ref : Ref) :
    (world.setProcessRef cud kind ref).search .client cud =
      some { entry with processRefs := Function.update entry.processRefs kind ref } := by
  rw [setProcessRef, search_modifyEntry, if_pos rfl, found]
  rfl

/-- The slots for the real-time thread do not matter in the main state. -/
theorem ref_modifyEntry {change : Cud → Cud}
    (isValid : ∀ cud, (change cud).valid = cud.valid)
    (refs : ∀ cud, (change cud).refs = cud.refs) :
    (world.modifyEntry .client cud change).ref = world.ref := by
  funext slot
  rw [ref_eq_elim, ref_eq_elim, search_modifyEntry]
  split
  · cases world.search .client slot.1 with
    | none => rfl
    | some entry =>
        simp only [Option.map_some, Option.elim_some]
        rw [isValid, refs]
  · rfl

theorem processRef_setProcessRef (found : world.search .client cud = some entry)
    (isValid : entry.valid = true) (isState : entry.processState = some state)
    (kind : ProcessKind) (ref : Ref) :
    (world.setProcessRef cud kind ref).processRef state =
      Function.update (world.processRef state) (cud, kind) ref := by
  funext ⟨other, otherKind⟩
  simp only [Function.update_apply, Prod.mk.injEq]
  by_cases isCud : other = cud
  · have after :=
      processRef_of_found (search_setProcessRef_self found kind ref) state otherKind
    have before := processRef_of_found found state otherKind
    rw [isCud]
    simp [after, before, isValid, isState, Function.update_apply]
  · rw [setProcessRef, processRef_modifyEntry isCud, if_neg fun same => isCud same.1]

/-- The slots for other process states do not change. -/
theorem processRef_setProcessRef_of_ne (found : world.search .client cud = some entry)
    (other : entry.processState ≠ some state) (kind : ProcessKind) (ref : Ref) :
    (world.setProcessRef cud kind ref).processRef state = world.processRef state := by
  funext ⟨client, otherKind⟩
  by_cases isCud : client = cud
  · rw [isCud, processRef_of_found (search_setProcessRef_self found kind ref),
      processRef_of_found found, if_neg fun both =>
        other both.2, if_neg fun both => other both.2]
  · rw [setProcessRef, processRef_modifyEntry isCud]

end World

namespace LuaStates

variable {states : LuaStates} {cud : Addr}
  {entry : Cud} {state : Handle} {registry : Registry}

/-- Changing a registry closes no state. -/
theorem registryOf_of_setRegistry {other : Option Handle}
    (isClosed : (states.setRegistry state (some registry)).registryOf other = none) :
    states.registryOf other = none := by
  cases other with
  | none => rfl
  | some other =>
      have isNone : Function.update states.registries state (some registry) other =
          none := isClosed
      by_cases isState : other = state
      · rw [isState, Function.update_self] at isNone
        cases isNone
      · rw [Function.update_of_ne isState] at isNone
        exact isNone

namespace Balanced

theorem setProcessRef (balanced : states.Balanced)
    (found : states.world.search .client cud = some entry) (isValid : entry.valid = true)
    (isState : entry.processState = some state)
    (isOpen : states.registries state = some registry)
    (kind : ProcessKind) (changed : Registry) (ref : Ref)
    (process : Accounts changed noRef
      (Function.update (states.world.processRef state) (cud, kind) ref)) :
    ((states.setRegistry state (some changed)).modifyWorld
        (·.setProcessRef cud kind ref)).Balanced := by
  apply balanced.modifyEntry fun cud =>
    { cud with processRefs := Function.update cud.processRefs kind ref }
  · exact found
  · exact isValid
  · exact fun other => World.search_modifyEntry _ _ _
  · have same : (states.world.setProcessRef cud kind ref).ref = states.world.ref :=
      World.ref_modifyEntry (fun _ => rfl) fun _ => rfl
    exact same ▸ balanced.main
  · intro other otherRegistry isRegistry
    have isUpdated : Function.update states.registries state (some changed) other =
        some otherRegistry := isRegistry
    by_cases isOther : other = state
    · rw [isOther, Function.update_self] at isUpdated
      cases isUpdated
      have updated := World.processRef_setProcessRef found isValid isState kind ref
      rw [isOther]
      exact updated ▸ process
    · rw [Function.update_of_ne isOther] at isUpdated
      have different : entry.processState ≠ some other := by
        rw [isState]
        exact fun same => isOther (Option.some.inj same).symm
      have same := World.processRef_setProcessRef_of_ne found different kind ref
      exact same ▸ balanced.process other otherRegistry isUpdated
  · exact fun _ => registryOf_of_setRegistry
  · intro isClosed
    have isNone : states.registryOf entry.processState = none := isClosed
    rw [isState] at isNone
    cases isOpen.symm.trans isNone

end Balanced

end LuaStates

namespace Stateful

variable {states : LuaStates} {cud : Addr} {entry : Cud} {state : Handle}

/-- There is no reference to release. -/
theorem unregister_of_noRef {kind : ProcessKind}
    (found : states.world.search .client cud = some entry)
    (isEmpty : entry.processRefs kind = noRef) :
    unregister cud kind states = (.ok (), states) := by
  rw [unregister, Fallible.asks_bind, found]
  simp [isEmpty]

/-- The condition only decides what is registered. -/
theorem timebaseCallback_eq (state : Handle) (registration : Registration)
    (conditional : LuaValue) : timebaseCallback state registration conditional =
      registrationFunction state
        (if conditional.toBoolean then .timebaseConditional else .timebase)
          registration := by
  unfold timebaseCallback
  split
  · rfl
  · rfl

/-- A reference is released in the registry that it is in, if there is one. -/
theorem unregister_cases (found : states.world.search .client cud = some entry)
    (kind : ProcessKind) :
    (entry.processRefs kind = noRef ∧ unregister cud kind states = (.ok (), states)) ∨
    (∃ state registry, entry.processState = some state ∧
      states.registries state = some registry ∧ unregister cud kind states = (.ok (),
        (states.setRegistry state
          (some (Function.update registry (entry.processRefs kind) none))
          ).modifyWorld (·.setProcessRef cud kind noRef))) ∨
    (entry.processRefs kind ≠ noRef ∧ states.registryOf entry.processState = none ∧
      unregister cud kind states = (.error .noState, states)) := by
  by_cases isEmpty : entry.processRefs kind = noRef
  · exact .inl ⟨isEmpty, unregister_of_noRef found isEmpty⟩
  · unfold unregister
    rw [Fallible.asks_bind, found]
    simp only [ne_eq, isEmpty, not_false_eq_true, if_true,
      luaUnref, bind_assoc, false_and, false_or]
    rw [Fallible.asks_bind]
    cases isState : entry.processState with
    | none => exact .inr ⟨trivial, rfl, rfl⟩
    | some state =>
        cases isOpen : states.registries state with
        | none =>
            have isClosed : states.registryOf (some state) = none := isOpen
            simp only [isClosed]
            exact .inr ⟨trivial, trivial, rfl⟩
        | some registry =>
            have isRegistry : states.registryOf (some state) = some registry := isOpen
            simp only [isRegistry]
            exact .inl ⟨state, registry, rfl, isOpen, rfl⟩

end Stateful

namespace LuaStates

variable {states : LuaStates} {cud : Addr}
  {entry : Cud} {state : Handle} {registry : Registry}

/-- What is left when a callback has been unregistered: the slot is empty. -/
structure Emptied (cud : Addr) (entry : Cud) (kind : ProcessKind)
    (states after : LuaStates) : Prop where
  balanced : after.Balanced
  found : after.world.search .client cud = some { entry with
    processRefs := Function.update entry.processRefs kind noRef }
  isOpen : ∀ state, (after.registries state).isSome = (states.registries state).isSome
  others : ∀ state, entry.processState ≠ some state →
    after.registries state = states.registries state

theorem setRegistry_self (changed : Option Registry) :
    (states.setRegistry state changed).registries state = changed :=
      Function.update_self _ _ _

theorem setRegistry_of_ne {other : Handle} (different : other ≠ state)
    (changed : Option Registry) :
    (states.setRegistry state changed).registries other = states.registries other :=
  Function.update_of_ne different _ _

theorem isSome_setRegistry (isOpen : states.registries state = some registry)
    (changed : Registry)
    (other : Handle) :
    ((states.setRegistry state (some changed)).registries other).isSome =
      (states.registries other).isSome := by
  by_cases isState : other = state
  · rw [isState, isOpen, setRegistry_self]
    rfl
  · rw [setRegistry_of_ne isState]

namespace Balanced

theorem processUnregister (balanced : states.Balanced)
    (found : states.world.search .client cud = some entry) (isValid : entry.valid = true)
    (kind : ProcessKind) :
    ∃ after, Stateful.unregister cud kind states = (.ok (), after) ∧
      Emptied cud entry kind states after := by
  rcases Stateful.unregister_cases found kind with ⟨isEmpty, run⟩ |
    ⟨state, registry, isState, isOpen, run⟩ | ⟨isHeld, isClosed, _⟩
  · refine ⟨states, run, balanced, ?_, fun _ => rfl, fun _ _ => rfl⟩
    rw [← isEmpty, Function.update_eq_self]
    exact found
  · have released := (balanced.process state registry isOpen).release (cud, kind)
    rw [World.processRef_of_found found, if_pos ⟨isValid, isState⟩] at released
    refine ⟨_, run, balanced.setProcessRef found
      isValid isState isOpen kind _ noRef released,
      World.search_setProcessRef_self found kind noRef, isSome_setRegistry isOpen _, ?_⟩
    intro other different
    apply setRegistry_of_ne
    intro same
    rw [isState, same] at different
    exact different rfl
  · exact absurd (balanced.stateless cud entry found isValid isClosed kind) isHeld

/-- A new reference is stored in the empty slot of a client, in the registry of its own
process state. -/
theorem processStore (balanced : states.Balanced)
    (found : states.world.search .client cud = some entry) (isValid : entry.valid = true)
    (isState : entry.processState = some state)
    (isOpen : states.registries state = some registry)
    {kind : ProcessKind} (isEmpty : entry.processRefs kind = noRef) {ref : Ref}
    (fresh : registry ref = none) (positive : 0 < ref) (function : LuaFunction) :
    ((states.setRegistry state
      (some (Function.update registry ref (some function)))).modifyWorld
      (·.setProcessRef cud kind ref)).Balanced := by
  apply balanced.setProcessRef found isValid isState isOpen
  apply (balanced.process state registry isOpen).store fresh (noRef_ne_of_pos positive)
  rw [World.processRef_of_found found, if_pos ⟨isValid, isState⟩]
  exact isEmpty

end Balanced

/-- A reference is used in the registry of a process state, but in no slot for that
state. -/
def Unowned (states : LuaStates) (state : Handle) (ref : Ref) : Prop :=
  ∃ registry, states.registries state = some registry ∧ (registry ref).isSome ∧
    ∀ slot, states.world.processRef state slot ≠ ref

theorem Unowned.not_balanced {ref : Ref} (unowned : states.Unowned state ref) :
    ¬states.Balanced := by
  intro balanced
  rcases unowned with ⟨registry, isOpen, isUsed, notHeld⟩
  exact Accounts.not_of_unowned isUsed notHeld (balanced.process state registry isOpen)

/-- A new reference is stored in the registry of another process state than that of the
client. -/
theorem Balanced.unowned_store (balanced : states.Balanced)
    (found : states.world.search .client cud = some entry)
    (other : entry.processState ≠ some state)
    (isOpen : states.registries state = some registry) (kind : ProcessKind) {ref : Ref}
    (fresh : registry ref = none) (positive : 0 < ref) (function : LuaFunction) :
    ((states.setRegistry state
      (some (Function.update registry ref (some function)))).modifyWorld
      (·.setProcessRef cud kind ref)).Unowned state ref := by
  refine ⟨_, Function.update_self _ _ _, ?_, ?_⟩
  · rw [Function.update_self]
    rfl
  · intro slot
    have same := congrFun (World.processRef_setProcessRef_of_ne found other kind ref) slot
    have holds := (balanced.process state registry isOpen).toHolds
    by_cases isEmpty : states.world.processRef state slot = noRef
    · exact fun isRef => noRef_ne_of_pos positive (isRef.symm.trans (same.trans isEmpty))
    · exact fun isRef => holds.ne_fresh fresh isEmpty (same.symm.trans isRef)

/-- Unregistering a callback of a client with another process state does not help. -/
theorem Unowned.unregister {ref : Ref} (unowned : states.Unowned state ref)
    (found : states.world.search .client cud = some entry)
    (other : entry.processState ≠ some state)
    (kind : ProcessKind) : (Stateful.unregister cud kind states).2.Unowned state ref := by
  rcases Stateful.unregister_cases found kind with ⟨_, run⟩ |
    ⟨cudState, registry, isState, isOpen, run⟩ | ⟨_, _, run⟩
  · rw [run]
    exact unowned
  · rw [run]
    rcases unowned with ⟨used, isUsed⟩
    have different : state ≠ cudState := by
      intro same
      rw [same] at other
      exact other isState
    refine ⟨used, (setRegistry_of_ne different _).trans isUsed.1, isUsed.2.1, ?_⟩
    have same := World.processRef_setProcessRef_of_ne found other kind noRef
    exact fun slot => same ▸ isUsed.2.2 slot
  · rw [run]
    exact unowned

end LuaStates

/-! ## Functions of the process states -/

namespace Stateful

variable {α : Type} {states : LuaStates} {state : Handle}

theorem lift_of_ok {function : Lua α} {value : α} {world : World}
    (returns : function states.world = (.ok value, world)) :
    lift function states = (.ok value, { states with world }) := by
  rw [lift, returns]

theorem lift_modify_bind (change : World → World) (rest : Unit → Stateful α) :
    (lift (Lua.modify change) >>= rest) states =
      rest () (states.modifyWorld change) := rfl

theorem lift_of_error {function : Lua α} {message : String} {world : World}
    (fails : function states.world = (.error message, world)) :
    lift function states = (.error (.raised message), { states with world }) := by
  rw [lift, fails]

theorem cudCheck_of_valid {ref : LuaInteger} (valid : states.world.Valid .client ref) :
    lift (cudCheck ref) states = (.ok ref, states) := lift_of_ok (check_of_valid valid)

theorem cudCheck_of_not_valid {ref : LuaInteger}
    (invalid : ¬states.world.Valid .client ref) :
    lift (cudCheck ref) states =
      (.error (.raised ObjectKind.client.invalidReference), states) :=
  lift_of_error (check_eq_error invalid)

/-- Whether the function has raised an error itself does not matter. -/
theorem bind_raise (function : Stateful α) (message : String) :
    ((do let _ ← function; raise message : Stateful α) states).2 =
      (function states).2 := by
  cases result : function states with
  | mk answer after =>
      cases answer with
      | ok value => rw [Fallible.bind_of_ok result, raise, Fallible.error_apply]
      | error failure => rw [Fallible.bind_of_error result]

theorem luaRef_of_open {registry : Registry}
    (isOpen : states.registries state = some registry)
    (ref : Ref) (function : LuaFunction) : luaRef (some state) ref function states =
      (.ok (), states.setRegistry state
        (some (Function.update registry ref (some function)))) := by
  have isRegistry : states.registryOf (some state) = some registry := isOpen
  rw [luaRef, Fallible.asks_bind, isRegistry]
  rfl

/-- The references stay balanced if the function is called from the process state of the
client. -/
theorem registrationFunction_balanced (balanced : states.Balanced) (kind : ProcessKind)
    (registration : Registration) (isOpen : (states.registries state).isSome)
    (positive : 0 < registration.ref)
    (fresh : ∀ registry, (unregister registration.client kind states).2.registries state =
      some registry → registry registration.ref = none) :
    (registrationFunction state kind registration states).2.Balanced ↔
      (registration.function.isSome → ∀ entry,
        states.world.search .client registration.client = some entry →
          entry.valid = true →
          entry.processState = some state) := by
  by_cases valid : states.world.Valid .client registration.client
  · rw [registrationFunction, Fallible.bind_of_ok (cudCheck_of_valid valid)]
    cases registration.function with
    | none => exact iff_of_true balanced fun isSome => by cases isSome
    | some function =>
        rcases valid with ⟨entry, found, isValid⟩
        rcases balanced.processUnregister found isValid kind with ⟨middle, run, emptied⟩
        rw [run] at fresh
        rw [← emptied.isOpen] at isOpen
        rcases Option.isSome_iff_exists.mp isOpen with ⟨registry, isRegistry⟩
        have unused := fresh registry isRegistry
        have isEmpty := Function.update_self kind noRef entry.processRefs
        have stored := World.search_setProcessRef_self emptied.found kind registration.ref
        simp only [register, Fallible.bind_of_ok run,
          Fallible.bind_of_ok (luaRef_of_open isRegistry registration.ref function),
          Fallible.modify_bind]
        by_cases isState : entry.processState = some state
        · have balanced :=
            emptied.balanced.processStore emptied.found isValid isState isRegistry
            isEmpty unused positive function
          apply iff_of_true
          · split
            · rcases balanced.processUnregister stored isValid kind with
                ⟨after, run, emptied⟩
              rw [Fallible.bind_of_ok run]
              exact emptied.balanced
            · exact balanced
          · intro _ other otherFound _
            cases found.symm.trans otherFound
            exact isState
        · have unowned :=
            emptied.balanced.unowned_store emptied.found isState isRegistry kind
            unused positive function
          apply iff_of_false
          · apply LuaStates.Unowned.not_balanced
            split
            · rw [bind_raise]
              exact unowned.unregister stored isState kind
            · exact unowned
          · exact fun same => isState (same rfl entry found isValid)
  · rw [registrationFunction, Fallible.bind_of_error (cudCheck_of_not_valid valid)]
    apply iff_of_true balanced
    exact fun _ entry found isValid => absurd ⟨entry, found, isValid⟩ valid

theorem releaseTimebase_balanced (balanced : states.Balanced) (ref : LuaInteger)
    (released : Except String Unit) :
    (releaseTimebase ref released states).2.Balanced := by
  by_cases valid : states.world.Valid .client ref
  · rcases valid with ⟨entry, found, isValid⟩
    rcases balanced.processUnregister found isValid .timebase with
      ⟨first, firstRun, emptied⟩
    rcases emptied.balanced.processUnregister emptied.found
      isValid .timebaseConditional with
      ⟨second, secondRun, emptied⟩
    rw [releaseTimebase, Fallible.bind_of_ok (cudCheck_of_valid ⟨entry, found, isValid⟩),
      Fallible.bind_of_ok firstRun, Fallible.bind_of_ok secondRun]
    cases released with
    | ok _ => exact emptied.balanced
    | error message => exact emptied.balanced
  · rw [releaseTimebase, Fallible.bind_of_error (cudCheck_of_not_valid valid)]
    exact balanced

end Stateful

/-! ## Process chunks -/

namespace LuaStates.Balanced

variable {states : LuaStates} {cud : Addr} {entry : Cud} {state : Handle}

/-- There is nothing in the slots for a state that is closed. -/
theorem processRef_of_closed (balanced : states.Balanced)
    (isClosed : states.registries state = none)
    (slot : Addr × ProcessKind) : states.world.processRef state slot = noRef := by
  unfold World.processRef
  cases found : states.world.search .client slot.1 with
  | none => rfl
  | some entry =>
      apply ite_eq_right_iff.mpr
      rintro ⟨isValid, isState⟩
      apply balanced.stateless slot.1 entry found isValid
      rw [isState]
      exact isClosed

/-- A client without a process state gets one. -/
theorem openState (balanced : states.Balanced)
    (found : states.world.search .client cud = some entry)
    (isValid : entry.valid = true) (noState : entry.processState = none)
    (isClosed : states.registries state = none) :
    ((states.setRegistry state (some fun _ => none)).modifyWorld
      (·.setProcessState cud state)).Balanced := by
  have noRefs := balanced.stateless cud entry found isValid (by rw [noState]; rfl)
  have stored : (states.world.setProcessState cud state).search .client cud =
      some { entry with processState := some state } := by
    rw [World.setProcessState, World.search_modifyEntry, if_pos rfl, found]
    rfl
  apply balanced.modifyEntry fun cud => { cud with processState := some state }
  · exact found
  · exact isValid
  · exact fun other => World.search_modifyEntry _ _ _
  · have same : (states.world.setProcessState cud state).ref = states.world.ref :=
      World.ref_modifyEntry (fun _ => rfl) fun _ => rfl
    exact same ▸ balanced.main
  · intro other registry isRegistry
    have same : (states.world.setProcessState cud state).processRef other =
        states.world.processRef other := by
      funext ⟨client, kind⟩
      by_cases isCud : client = cud
      · rw [isCud, World.processRef_of_found stored,
          World.processRef_of_found found, noRefs]
        simp
      · exact World.processRef_modifyEntry isCud other kind
    by_cases isState : other = state
    · rw [isState] at isRegistry same ⊢
      cases (setRegistry_self _).symm.trans isRegistry
      exact .empty (fun _ => rfl) fun slot =>
        (congrFun same slot).trans (balanced.processRef_of_closed isClosed slot)
    · have wasRegistry := (setRegistry_of_ne isState _).symm.trans isRegistry
      exact same ▸ balanced.process other registry wasRegistry
  · exact fun _ => registryOf_of_setRegistry
  · exact fun _ => noRefs

/-- A process state is closed whose registry is empty. -/
theorem closeState (balanced : states.Balanced)
    (isOpen : states.registries state = some fun _ => none) :
    (states.setRegistry state none).Balanced where
  main := balanced.main
  process := by
    intro other registry isRegistry
    by_cases isState : other = state
    · rw [isState, setRegistry_self] at isRegistry
      cases isRegistry
    · rw [setRegistry_of_ne isState] at isRegistry
      exact balanced.process other registry isRegistry
  stateless := by
    intro cud entry found isValid noRegistry kind
    by_cases isState : entry.processState = some state
    · have wasFound : states.world.search .client cud = some entry := found
      have isRef : states.world.processRef state (cud, kind) =
          entry.processRefs kind := by
        rw [World.processRef_of_found wasFound, if_pos ⟨isValid, isState⟩]
      rw [← isRef]
      by_contra isHeld
      cases (balanced.process state _ isOpen).used (cud, kind) isHeld
    · apply balanced.stateless cud entry found isValid
      cases isOther : entry.processState with
      | none => rfl
      | some other =>
          rw [isOther] at noRegistry isState
          have different : other ≠ state := fun same => isState (congrArg some same)
          exact (setRegistry_of_ne different none).symm.trans noRegistry
  closed := balanced.closed

end LuaStates.Balanced

namespace Stateful

variable {α : Type} {states : LuaStates}

/-- What does not concern callbacks keeps the balance. -/
theorem lift_balanced {function : Lua α} (balanced : states.Balanced)
    (same : SameSlots states.world (function states.world).2) :
    (lift function states).2.Balanced := by
  cases result : function states.world with
  | mk answer world =>
      rw [result] at same
      cases answer with
      | ok value =>
          rw [lift_of_ok result]
          exact balanced.sameSlots same
      | error message =>
          rw [lift_of_error result]
          exact balanced.sameSlots same

theorem ofExcept_balanced (answer : Except String Unit) :
    (lift (Lua.ofExcept answer)).Respects fun before after => before.Balanced →
      after.Balanced :=
  fun _ balanced => lift_balanced balanced (by cases answer <;> exact .refl _)

theorem processStart_balanced {cud : Addr} {entry : Cud} (balanced : states.Balanced)
    (found : states.world.search .client cud = some entry) (isValid : entry.valid = true)
    (noState : entry.processState = none) {state : Handle}
    (isClosed : states.registries state = none)
    (call : ProcessLoad) : (processStart cud state call states).2.Balanced := by
  have opened := balanced.openState found isValid noState isClosed
  unfold processStart
  rw [Fallible.modify_bind]
  cases call.loadchunk with
  | error message => exact opened.closeState (LuaStates.setRegistry_self _)
  | ok _ =>
      have executed := Fallible.respects_bind (fun one two balanced => two (one balanced))
        (ofExcept_balanced (xmove 1 call.arguments)) fun _ => ofExcept_balanced call.pcall
      exact executed _ opened

theorem checkmain_of_main (isMain : states.world.mainThread = true) :
    lift checkmain states = (.ok true, states) := by
  apply lift_of_ok
  rw [checkmain, Lua.asks_bind, isMain]
  rfl

theorem checkmain_of_other (isOther : states.world.mainThread = false) :
    lift checkmain states = (.ok false, states.modifyWorld
      (·.luajackError "function can be called only in main thread")) := by
  apply lift_of_ok
  rw [checkmain, Lua.asks_bind, isOther]
  rfl

/-- A call raises an error, or it is an error of another thread, or it has a state
created. -/
theorem processLoad_cases (states : LuaStates) (call : ProcessLoad) :
    (∃ message, processLoad call states = (.error (.raised message), states)) ∨
    processLoad call states = (.ok (), states.modifyWorld
      (·.luajackError "function can be called only in main thread")) ∨
    ∃ entry chunk state, states.world.mainThread = true ∧
      states.world.search .client call.ref = some entry ∧ entry.valid = true ∧
      entry.processState = none ∧ call.chunk = .string chunk ∧
        call.newstate = some state ∧
      processLoad call states = processStart call.ref state call states := by
  by_cases valid : states.world.Valid .client call.ref
  · rw [processLoad, Fallible.bind_of_ok (cudCheck_of_valid valid)]
    rcases valid with ⟨entry, found, isValid⟩
    cases isMain : states.world.mainThread with
    | false =>
        rw [Fallible.bind_of_ok (checkmain_of_other isMain)]
        exact .inr (.inl rfl)
    | true =>
        rw [Fallible.bind_of_ok (checkmain_of_main isMain)]
        simp only [if_true, Fallible.asks_bind, found, Option.bind_some]
        cases noState : entry.processState with
        | some state => exact .inl ⟨_, rfl⟩
        | none =>
            cases isChunk : call.chunk with
            | string chunk =>
                cases isNew : call.newstate with
                | none => exact .inl ⟨_, rfl⟩
                | some state =>
                    exact .inr (.inr
                      ⟨entry, chunk, state, trivial, rfl, isValid, noState, rfl, rfl,
                      rfl⟩)
            | _ => exact .inl ⟨_, rfl⟩
  · rw [processLoad, Fallible.bind_of_error (cudCheck_of_not_valid valid)]
    exact .inl ⟨_, rfl⟩

theorem processLoad_balanced (balanced : states.Balanced) (call : ProcessLoad)
    (fresh : ∀ state, call.newstate = some state → states.registries state = none) :
    (processLoad call states).2.Balanced := by
  rcases processLoad_cases states call with ⟨message, run⟩ | run |
    ⟨entry, chunk, state, _, found, isValid, noState, _, isNew, run⟩
  · rw [run]
    exact balanced
  · rw [run]
    exact balanced.sameSlots (.of_search rfl fun _ => rfl)
  · rw [run]
    exact processStart_balanced balanced found isValid noState (fresh state isNew) call

end Stateful

/-! ## Closing -/

/-- What `callback_unregister` unregisters. -/
def releasedCallbacks : List CallbackKind :=
  [.shutdown, .freewheel, .sampleRate, .clientRegistration,
    .portRegistration, .portRename, .portConnect, .graphOrder, .xrun, .latency]

theorem callbackUnregister_eq (cud : Addr) : callbackUnregister cud =
    Lua.modify (releasedCallbacks.foldl (·.unregister cud ·)) := rfl

/-- The world before the callbacks of a client are unregistered. -/
def World.closing (world : World) (cud : Addr) : World :=
  { (world.freeObjects cud).perform
      (.jackClientClose (some cud) ((world.freeObjects cud).client cud)) with
    activated := (world.freeObjects cud).activated.erase cud }

theorem SameSlots.closing (world : World) (cud : Addr) :
    SameSlots world (world.closing cud) := by
  have framed : FramedOn (· ≠ .client) none SameSlots :=
    framed (fun touched => touched rfl) none
  have freed : SameSlots world (world.freeObjects cud) := by
    apply (framed.freeAll world .thread cud threadFree (by simp)).trans
    apply (framed.freeAll _ .ringbuffer cud rbufFree (by simp)).trans
    exact framed.freeAll _ .port cud _ (by simp)
  exact freed.trans (.of_search rfl fun _ => rfl)

/-- A client is marked as invalid when all of its slots are empty. -/
theorem LuaStates.Balanced.cancelValid {states : LuaStates} {cud : Addr} {entry : Cud}
    (balanced : states.Balanced) (found : states.world.search .client cud = some entry)
    (unregistered : entry.Unregistered) :
    (states.modifyWorld
      (·.modifyEntry .client cud ObjectKind.client.cancelValid)).Balanced where
  main := by
    have same : (states.world.modifyEntry .client cud ObjectKind.client.cancelValid).ref =
        states.world.ref := by
      funext slot
      rw [World.ref_eq_elim, World.ref_eq_elim, World.search_modifyEntry]
      by_cases isCud : slot.1 = cud
      · rw [if_pos isCud, isCud, found]
        simp [unregistered.refs, ObjectKind.cancelValid]
      · rw [if_neg isCud]
    exact same ▸ balanced.main
  process := by
    intro state registry isRegistry
    have same : (states.world.modifyEntry .client
        cud ObjectKind.client.cancelValid).processRef
        state = states.world.processRef state := by
      funext ⟨client, kind⟩
      by_cases isCud : client = cud
      · rw [World.processRef, World.search_modifyEntry, if_pos isCud, isCud, found,
          World.processRef_of_found found]
        simp [unregistered.processRefs, ObjectKind.cancelValid]
      · exact World.processRef_modifyEntry isCud state kind
    exact same ▸ balanced.process state registry isRegistry
  stateless := by
    intro other otherEntry otherFound otherValid
    rw [modifyWorld, World.search_modifyEntry] at otherFound
    by_cases isCud : other = cud
    · rw [if_pos isCud, isCud, found] at otherFound
      cases otherFound
      cases otherValid
    · rw [if_neg isCud] at otherFound
      exact balanced.stateless other otherEntry otherFound otherValid
  closed := by
    intro other otherEntry otherFound isClosed
    rw [modifyWorld, World.search_modifyEntry] at otherFound
    by_cases isCud : other = cud
    · rw [if_pos isCud, isCud, found] at otherFound
      cases otherFound
      exact ⟨unregistered.refs, unregistered.processRefs⟩
    · rw [if_neg isCud] at otherFound
      exact balanced.closed other otherEntry otherFound isClosed

namespace Stateful

variable {states : LuaStates} {cud : Addr} {entry : Cud}

theorem processUnregister_empties (balanced : states.Balanced)
    (found : states.world.search .client cud = some entry)
    (isValid : entry.valid = true) :
    ∃ after, processUnregister cud states = (.ok (), after) ∧ after.Balanced ∧
      after.world.search .client cud =
        some { entry with processRefs := fun _ => noRef } := by
  rw [processUnregister, Fallible.asks_bind, found]
  cases isState : entry.processState with
  | none =>
      have noRefs :=
        funext (balanced.stateless cud entry found isValid (by rw [isState]; rfl))
      refine ⟨states, by simp [isState], balanced, ?_⟩
      rw [found, ← isState, ← noRefs]
  | some state =>
      rcases balanced.processUnregister found isValid .process with ⟨_, run, emptied⟩
      rcases emptied.balanced.processUnregister emptied.found isValid .bufferSize with
        ⟨_, bufferSizeRun, emptied⟩
      rcases emptied.balanced.processUnregister emptied.found isValid .sync with
        ⟨_, syncRun, emptied⟩
      rcases emptied.balanced.processUnregister emptied.found isValid .timebase with
        ⟨_, timebaseRun, emptied⟩
      rcases emptied.balanced.processUnregister emptied.found
        isValid .timebaseConditional with
        ⟨after, conditionalRun, emptied⟩
      refine ⟨after, ?_, emptied.balanced, emptied.found.trans ?_⟩
      · simp only [isState, Option.isSome_some, if_true, Fallible.bind_of_ok run,
          Fallible.bind_of_ok bufferSizeRun, Fallible.bind_of_ok syncRun,
          Fallible.bind_of_ok timebaseRun, conditionalRun]
      · congr 2
        funext kind
        cases kind <;> rfl

/-- The steps before the callbacks of a client are unregistered. -/
theorem closing_apply :
    (((states.modifyWorld (·.freeAll .thread cud threadFree)).modifyWorld
      (·.freeAll .ringbuffer cud rbufFree)).modifyWorld
      fun world => world.freeAll .port cud (portClose world)).modifyWorld
      (fun world => { world.perform (.jackClientClose (some cud) (world.client cud)) with
        activated := world.activated.erase cud }) =
    { states with world := states.world.closing cud } := by
  simp only [LuaStates.modifyWorld, World.closing, World.freeObjects]

/-- What becomes of the states when a client is closed. -/
theorem clientClose_apply (balanced : states.Balanced)
    (found : states.world.search .client cud = some entry)
    (isValid : entry.valid = true) (rc : Int) :
    ∃ (after : LuaStates) (closed : Cud), (clientClose cud rc states).2 =
        after.modifyWorld (·.modifyEntry .client cud ObjectKind.client.cancelValid) ∧
      after.Balanced ∧ after.world.search .client cud = some closed ∧
      (∀ kind, closed.refs kind = if kind = .session then entry.refs kind else noRef) ∧
      ∀ kind, closed.processRefs kind = noRef := by
  have framed : FramedOn (fun _ => False) none SameSlots := SameSlots.framed id none
  have deactivates :=
    framed.respects_deactivate_ SameSlots.framesActivity cud rc states.world
  rcases LuaJack.clientClose_apply cud rc true states.world with
    ⟨code, middle, deactivated, _⟩
  rw [deactivated] at deactivates
  have same := deactivates.trans (.closing middle cud)
  rcases same.kept found with ⟨closing, isFound, callbacks⟩
  have stillValid : closing.valid = true :=
    (congrArg Callbacks.valid callbacks).trans isValid
  have unregistered :=
    (balanced.sameSlots same).foldl_unregister releasedCallbacks isFound stillValid
  rcases processUnregister_empties unregistered.1 unregistered.2 stillValid with
    ⟨after, run, emptied, isEmptied⟩
  refine ⟨after, _, ?_, emptied, isEmptied, ?_, fun _ => rfl⟩
  · have rest : clientClose cud rc states = (do
        processUnregister cud
        lift (Lua.modify
          (·.modifyEntry .client cud ObjectKind.client.cancelValid)) : Stateful Unit)
        (LuaStates.modifyWorld { states with world := middle.closing cud }
          (releasedCallbacks.foldl (·.unregister cud ·))) := by
      rw [clientClose, Fallible.bind_of_ok (lift_of_ok deactivated)]
      simp only [threadFreeAll, rbufFreeAll, portCloseAll,
        jackClientClose, callbackUnregister_eq, lift_modify_bind]
      rw [closing_apply]
    rw [rest, Fallible.bind_of_ok run]
    rfl
  · intro kind
    have sameRef := congrFun (congrArg Callbacks.refs callbacks) kind
    cases kind with
    | session => exact sameRef
    | _ => rfl

/-- The references stay balanced when a client is closed that has no session callback. -/
theorem clientClose_balanced (balanced : states.Balanced)
    (found : states.world.search .client cud = some entry)
    (isValid : entry.valid = true) (rc : Int) :
    (clientClose cud rc states).2.Balanced ↔ entry.refs .session = noRef := by
  rcases clientClose_apply balanced found isValid rc with
    ⟨after, closed, run, emptied, isFound, refs, processRefs⟩
  rw [run]
  constructor
  · intro balanced
    have search : (after.world.modifyEntry .client
        cud ObjectKind.client.cancelValid).search
        .client cud = some (ObjectKind.client.cancelValid closed) := by
      rw [World.search_modifyEntry, if_pos rfl, isFound]
      rfl
    have unregistered := balanced.closed cud _ search rfl
    exact (refs .session).symm.trans (unregistered.refs .session)
  · intro noSession
    apply emptied.cancelValid isFound
    refine ⟨?_, processRefs⟩
    intro kind
    rw [refs]
    split
    next isSession => rw [isSession, noSession]
    next => rfl

end Stateful

/-! ## Runs -/

/-- A client is closed only while it has no session callback registered, and a callback
that is executed in the real-time thread is registered from the process state of its
client. -/
def StateOperation.Proper : StateOperation → LuaStates → Prop
  | main (.clientClose ref _), states => ∀ entry : Cud,
      states.world.search .client ref = some entry → entry.valid = true →
        entry.refs .session = noRef
  | process state call, states => ∀ kind registration,
      call.registers? = some (kind, registration) → registration.function.isSome →
        ∀ entry : Cud, states.world.search .client registration.client = some entry →
          entry.valid = true → entry.processState = some state
  | _, _ => True

theorem luaRun_eq_some {operation : StateOperation} {before after : LuaStates}
    (performed : luaRun operation before = some after) :
    operation.permitted before = true ∧ (operation.run before).2 = after := by
  unfold luaRun at performed
  split at performed
  next permitted =>
    refine ⟨permitted, ?_⟩
    cases result : operation.run before with
    | mk answer states =>
        rw [result] at performed
        cases answer with
        | ok _ => exact Option.some.inj performed
        | error failure =>
            cases failure with
            | raised message => exact Option.some.inj performed
            | noState => cases performed
  next => cases performed

theorem balanced_main (operation : Operation) (before after : LuaStates)
    (balanced : before.Balanced)
    (performed : luaRun (.main operation) before = some after) :
    after.Balanced ↔ (StateOperation.main operation).Proper before := by
  rcases luaRun_eq_some performed with ⟨permitted, rfl⟩
  have quiet (isQuiet : operation.setsReferences = false) :
      (before.modifyWorld operation.perform).Balanced :=
    balanced.sameSlots (.operation operation isQuiet before.world)
  cases operation with
  | clientClose ref rc =>
      simp only [StateOperation.run, Stateful.clientCloseRef]
      by_cases valid : before.world.Valid .client ref
      · rcases valid with ⟨entry, found, isValid⟩
        rw [Fallible.bind_of_ok (Stateful.cudCheck_of_valid ⟨entry, found, isValid⟩),
          Stateful.clientClose_balanced balanced found isValid]
        constructor
        · intro noSession other otherFound _
          cases found.symm.trans otherFound
          exact noSession
        · exact fun proper => proper entry found isValid
      · rw [Fallible.bind_of_error (Stateful.cudCheck_of_not_valid valid)]
        apply iff_of_true balanced
        exact fun entry found isValid => absurd ⟨entry, found, isValid⟩ valid
  | register kind registration => exact iff_of_true (balanced.register permitted) trivial
  | _ => exact iff_of_true (quiet rfl) trivial

theorem balanced_process (state : Handle) (call : ProcessCall) (before after : LuaStates)
    (balanced : before.Balanced)
    (performed : luaRun (.process state call) before = some after) :
    after.Balanced ↔ (StateOperation.process state call).Proper before := by
  rcases luaRun_eq_some performed with ⟨permitted, rfl⟩
  simp only [StateOperation.permitted, Bool.and_eq_true] at permitted
  have registers (kind : ProcessKind) (registration : Registration)
      (isRegistration : call.registers? = some (kind, registration)) :
      (Stateful.registrationFunction state kind registration before).2.Balanced ↔
        (StateOperation.process state call).Proper before := by
    have answers := permitted.2
    simp only [isRegistration, Option.all_some,
      Bool.and_eq_true, decide_eq_true_eq] at answers
    rw [Stateful.registrationFunction_balanced
      balanced kind registration permitted.1 answers.1]
    · simp [StateOperation.Proper, isRegistration]
    · intro registry isRegistry
      have unused := answers.2
      rw [isRegistry] at unused
      exact Option.isNone_iff_eq_none.mp unused
  cases call with
  | processCallback registration => exact registers _ _ rfl
  | bufferSizeCallback registration => exact registers _ _ rfl
  | syncCallback registration => exact registers _ _ rfl
  | timebaseCallback registration conditional =>
      rw [StateOperation.run, ProcessCall.run, Stateful.timebaseCallback_eq]
      exact registers _ _ rfl
  | releaseTimebase ref released =>
      apply iff_of_true (Stateful.releaseTimebase_balanced balanced ref released)
      exact fun _ _ isRegistration => by cases isRegistration

theorem balanced_step (operation : StateOperation) (before after : LuaStates)
    (balanced : before.Balanced) (performed : luaRun operation before = some after) :
    after.Balanced ↔ operation.Proper before := by
  cases operation with
  | main operation => exact balanced_main operation before after balanced performed
  | process state call =>
      exact balanced_process state call before after balanced performed
  | processLoad call =>
      rcases luaRun_eq_some performed with ⟨permitted, rfl⟩
      apply iff_of_true _ trivial
      apply Stateful.processLoad_balanced balanced
      intro state isNew
      simp only [StateOperation.permitted, isNew, Option.all_some] at permitted
      exact Option.isNone_iff_eq_none.mp permitted

/-- In every state of a run, the references in the registries are exactly those in the
slots of valid clients, and the slots of closed clients are empty, if and only if no
client is closed while it has a session callback registered, and no callback is
registered from the process state of another client. -/
theorem references_balanced_iff (operations : List StateOperation) (final : LuaStates)
    (run : luaRun.run operations .initial = some final) :
    (∀ first second middle, operations = first ++ second →
      luaRun.run first .initial = some middle → middle.Balanced) ↔
      luaRun.Along StateOperation.Proper operations .initial := by
  apply @Machine.all_reached_iff_along _ _ luaRun _ operations _ final fun _ => True
  · exact fun _ _ _ _ _ => trivial
  · exact fun operation before after _ => balanced_step operation before after
  · trivial
  · exact .initial
  · exact run

/-- A client is opened, registers a callback and is closed. -/
def registeringAndClosing (cud : Addr) (kind : CallbackKind) (function : LuaFunction) :
    List StateOperation :=
  (registering cud kind function).map .main ++ [.main (.clientClose cud 0)]

theorem references_balanced_iff_xrun :
    ∃ final, luaRun.run (registeringAndClosing 0x601010 .xrun 7) .initial = some final ∧
      final.Balanced := by
  have equivalence :=
    references_balanced_iff (registeringAndClosing 0x601010 .xrun 7) _ rfl
  refine ⟨_, rfl, equivalence.mpr ?_ _ [] _ (List.append_nil _).symm rfl⟩
  refine ⟨trivial, fun opened isOpened =>
    ⟨trivial, fun registered isRegistered => ⟨?_, ?_⟩⟩⟩
  · cases isOpened
    cases isRegistered
    intro entry found _
    cases found
    rfl
  · exact fun _ _ => trivial

/-- The function that is registered for session events remains when the client is
closed. -/
theorem references_not_always_balanced :
    ¬∀ operations final, luaRun.run operations .initial = some final →
      final.Balanced := by
  intro always
  have balanced := always (registeringAndClosing 0x601010 .session 7) _ rfl
  have unregistered := balanced.closed 0x601010 _ rfl rfl
  cases unregistered.refs .session

end LuaJack
