import LuaJack.Object.Identity
import LuaJack.Slots

/-!
# Which function an event is for

The functions that clients have registered are a matter of the history of a
session.  The slots of the valid clients refer to these functions, and the handler
of an event uses the slot of the kind of the event, except that the handler of
session events uses the slot of the latency callback.
-/

namespace LuaJack

open Atomic

/-- The functions that the clients have registered, by kind. -/
abbrev Registrations := Addr → CallbackKind → Option LuaFunction

/-- Register a function, or none, in place of the one before. -/
def Registrations.assign (registered : Registrations) (cud : Addr) (kind : CallbackKind)
    (function : Option LuaFunction) : Registrations :=
  Function.update registered cud (Function.update (registered cud) kind function)

/-- What has been registered after an operation. A new client has registered nothing,
and if JACK refuses a callback, none is registered. -/
def Registrations.record (registered : Registrations) : Operation → Registrations
  | .create creation =>
      match creation.malloc with
      | none => registered
      | some key => Function.update registered key fun _ => none
  | .register kind registration =>
      match registration.function with
      | none => registered
      | some function => registered.assign registration.client kind
          (if setCallback kind registration = 0 then some function else none)
  | _ => registered

/-- What has been registered in the course of some operations. -/
def registered (operations : List Operation) : Registrations :=
  operations.foldl Registrations.record fun _ _ => none

namespace World

/-- The reference in the slot of a client, if that is valid. -/
def ref (world : World) (slot : Addr × CallbackKind) : Ref :=
  match world.search .client slot.1 with
  | none => noRef
  | some cud => if cud.valid then cud.refs slot.2 else noRef

/-- The function that the slot of a client refers to. -/
def lookup (world : World) (slot : Addr × CallbackKind) : Option LuaFunction :=
  world.registry (world.ref slot)

/-- The slots of the valid clients refer to the functions that have been registered. -/
structure Registered (registered : Registrations) (world : World) : Prop where
  holds : Holds world.registry noRef world.ref
  lookup : ∀ cud kind, world.Valid .client cud →
    world.lookup (cud, kind) = registered cud kind

variable {world before after : World} {cud : Addr} {kind : CallbackKind}

theorem ref_of_valid {entry : Cud} (found : world.search .client cud = some entry)
    (isValid : entry.valid = true) : world.ref (cud, kind) = entry.refs kind := by
  simp only [ref, found, isValid, if_true]

theorem ref_of_not_valid (invalid : ¬world.Valid .client cud) :
    world.ref (cud, kind) = noRef := by
  rw [ref]
  cases found : world.search .client cud with
  | none => rfl
  | some entry =>
      apply if_neg
      exact fun isValid => invalid ⟨entry, found, isValid⟩

/-! ## Functions that register nothing -/

/-- The clients that are valid hold the references that they held before, or are new and
hold none. -/
structure Undisturbed (allocated : Option (ObjectKind × Addr))
    (before after : World) : Prop where
  registry : after.registry = before.registry
  kept : ∀ cud, (before.search .client cud).isSome → (after.search .client cud).isSome
  refs : ∀ cud, after.Valid .client cud →
    before.Valid .client cud ∧ (∀ kind, after.ref (cud, kind) = before.ref (cud, kind)) ∨
      before.search .client cud = none ∧ allocated = some (.client, cud) ∧
        ∀ kind, after.ref (cud, kind) = noRef

namespace Undisturbed

variable {allocated : Option (ObjectKind × Addr)} {first second third : World}

theorem of_search (registry : after.registry = before.registry)
    (search : ∀ cud, after.search .client cud = before.search .client cud) :
    Undisturbed allocated before after where
  registry := registry
  kept := fun cud present => by rw [search]; exact present
  refs := by
    intro cud valid
    apply Or.inl
    constructor
    · rw [Valid, ← search]
      exact valid
    · intro kind
      rw [ref, search]
      rfl

theorem trans (one : Undisturbed allocated first second)
    (two : Undisturbed allocated second third) : Undisturbed allocated first third where
  registry := two.registry.trans one.registry
  kept := fun cud present => two.kept cud (one.kept cud present)
  refs := by
    intro cud valid
    rcases two.refs cud valid with ⟨secondValid, same⟩ | ⟨absent, isNew⟩
    · rcases one.refs cud secondValid with
        ⟨firstValid, alsoSame⟩ | ⟨absent, isNew, noRefs⟩
      · exact .inl ⟨firstValid, fun kind => (same kind).trans (alsoSame kind)⟩
      · exact .inr ⟨absent, isNew, fun kind => (same kind).trans (noRefs kind)⟩
    · apply Or.inr
      refine ⟨?_, isNew⟩
      cases found : first.search .client cud with
      | none => rfl
      | some entry =>
          have present := one.kept cud (by rw [found]; rfl)
          rw [absent] at present
          cases present

/-- Clients may become invalid. -/
theorem of_changes (registry : after.registry = before.registry)
    (changes : ∀ cud, ∃ change, ObjectKind.client.Harmless change ∧
      after.search .client cud = (before.search .client cud).map change) :
    Undisturbed allocated before after where
  registry := registry
  kept := by
    intro cud present
    rcases changes cud with ⟨change, _, changed⟩
    rw [changed, Option.isSome_map]
    exact present
  refs := by
    rintro cud ⟨entry, found, isValid⟩
    apply Or.inl
    rcases changes cud with ⟨change, harmless, changed⟩
    have isChanged := found
    rw [changed, Option.map_eq_some_iff] at isChanged
    rcases isChanged with ⟨old, wasFound, rfl⟩
    have wasValid := harmless.isValid old isValid
    refine ⟨⟨old, wasFound, wasValid⟩, ?_⟩
    intro kind
    rw [ref_of_valid found isValid, ref_of_valid wasFound wasValid]
    exact congrFun (harmless.refs old) kind

theorem of_modifyEntry (world : World) {kind : ObjectKind} (key : Addr)
    {change : kind.Entry → kind.Entry} (harmless : kind.Harmless change) :
    Undisturbed allocated world (world.modifyEntry kind key change) := by
  by_cases isClient : .client = kind
  · subst isClient
    apply of_changes
    · rfl
    · intro cud
      rw [search_modifyEntry]
      split
      · exact ⟨change, harmless, rfl⟩
      · exact ⟨id, ⟨fun _ => id, fun _ => rfl⟩, Option.map_id'.symm⟩
  · apply of_search
    · cases kind <;> rfl
    · exact search_modifyEntry_of_ne _ _ isClient

theorem of_freeAll (world : World) (kind : ObjectKind) (cud : Addr)
    (free : Addr → kind.Entry → Effect) :
    Undisturbed allocated world (world.freeAll kind cud free) := by
  by_cases isClient : .client = kind
  · subst isClient
    apply of_changes
    · rfl
    · intro key
      refine ⟨_, ?_, search_freeAll _ _ _ _ _⟩
      simp only [ObjectKind.ownedBy_client, Bool.false_eq_true, if_false]
      exact ⟨fun _ => id, fun _ => rfl⟩
  · apply of_search
    · cases kind <;> rfl
    · exact search_freeAll_of_ne _ _ _ _ isClient

/-- A new client holds no references. -/
theorem of_insert {kind : ObjectKind} {key : Addr} {entry : kind.Entry}
    (absent : before.search kind key = none) (noRefs : kind.refs entry = fun _ => noRef) :
    Undisturbed (some (kind, key)) before
      (before.setTable kind ((before.table kind).insert key entry)) := by
  by_cases isClient : .client = kind
  · subst isClient
    have search (cud : Addr) : (before.setTable .client
        ((before.table .client).insert key entry)).search .client cud =
          if cud = key then some entry else before.search .client cud := by
      rw [World.search, table_setTable, Table.find?_insert absent]
      split
      · rfl
      · rfl
    refine ⟨rfl, ?_, ?_⟩
    · intro cud present
      rw [search]
      split
      · rfl
      · exact present
    · rintro cud ⟨found, isFound, isValid⟩
      by_cases isNew : cud = key
      · apply Or.inr
        refine ⟨isNew ▸ absent, by rw [isNew], ?_⟩
        intro kind
        rw [ref_of_valid isFound isValid]
        rw [search, if_pos isNew, Option.some.injEq] at isFound
        rw [← isFound]
        exact congrFun noRefs kind
      · apply Or.inl
        have wasFound := isFound
        rw [search, if_neg isNew] at wasFound
        refine ⟨⟨found, wasFound, isValid⟩, ?_⟩
        intro kind
        rw [ref_of_valid isFound isValid, ref_of_valid wasFound isValid]
  · apply of_search
    · cases kind <;> rfl
    · intro cud
      rw [World.search, table_setTable_of_ne _ isClient]
      rfl

theorem framed (allocated : Option (ObjectKind × Addr)) :
    Framed allocated (Undisturbed allocated) where
  refl := fun _ => of_search rfl fun _ => rfl
  trans := trans
  elsewhere := fun _ _ _ => of_search rfl fun _ => rfl
  perform := fun _ _ => of_search rfl fun _ => rfl
  modifyEntry := of_modifyEntry
  insert := by
    rintro world kind key entry rfl absent noRefs
    exact of_insert absent noRefs
  freeAll := of_freeAll

theorem framesActivity (allocated : Option (ObjectKind × Addr)) :
    FramesActivity (Undisturbed allocated) := fun _ _ _ => of_search rfl fun _ => rfl

end Undisturbed

/-! ## References of clients -/

section Unregister

variable {ref : Ref}

theorem search_setRef (other : Addr) : (world.setRef cud kind ref).search .client other =
    if other = cud then (world.search .client other).map fun cud =>
      { cud with refs := Function.update cud.refs kind ref }
    else world.search .client other := search_modifyEntry _ _ _

theorem valid_setRef {other : Addr} :
    (world.setRef cud kind ref).Valid .client other ↔ world.Valid .client other := by
  rw [Valid, Valid, search_setRef]
  by_cases isCud : other = cud
  · rw [if_pos isCud]
    cases world.search .client other with
    | none => rfl
    | some entry => simp [ObjectKind.isValid]
  · rw [if_neg isCud]

theorem ref_setRef (valid : world.Valid .client cud) :
    (world.setRef cud kind ref).ref = Function.update world.ref (cud, kind) ref := by
  rcases valid with ⟨entry, found, isValid⟩
  have valid : entry.valid = true := isValid
  funext ⟨other, otherKind⟩
  rw [World.ref, search_setRef, Function.update_apply]
  by_cases isCud : other = cud
  · subst isCud
    rw [if_pos rfl, found]
    simp only [Option.map_some, valid, if_true, Prod.mk.injEq, true_and]
    rw [Function.update_apply, ref_of_valid found isValid]
  · rw [if_neg isCud, if_neg fun same => isCud (Prod.mk.inj same).1]
    rfl

variable (holds : Holds world.registry noRef world.ref) (valid : world.Valid .client cud)

include holds valid in
theorem registry_unregister : (world.unregister cud kind).registry =
    Function.update world.registry (world.ref (cud, kind)) none := by
  rcases valid with ⟨entry, found, isValid⟩
  simp only [unregister, found, ref_of_valid found isValid]
  split
  next isNoRef =>
    rw [isNoRef, ← holds.unused]
    exact (Function.update_eq_self _ _).symm
  next => rfl

include valid in
theorem ref_unregister :
    (world.unregister cud kind).ref = Function.update world.ref (cud, kind) noRef := by
  have isValid := valid
  rcases valid with ⟨entry, found, isMarked⟩
  simp only [unregister, found]
  split
  next isNoRef =>
    rw [← isNoRef, ← ref_of_valid found isMarked]
    exact (Function.update_eq_self _ _).symm
  next => exact ref_setRef isValid

theorem valid_unregister {other : Addr} :
    (world.unregister cud kind).Valid .client other ↔ world.Valid .client other := by
  unfold unregister
  split
  · rfl
  · split
    · rfl
    · exact valid_setRef

end Unregister

/-! ## Registrations -/

theorem assign_apply (registered : Registrations)
    (function : Option LuaFunction) (other : Addr)
    (otherKind : CallbackKind) : registered.assign cud kind function other otherKind =
      if (other, otherKind) = (cud, kind) then function
        else registered other otherKind := by
  rw [Registrations.assign, Function.update_apply]
  by_cases isCud : other = cud
  · subst isCud
    simp [Function.update_apply]
  · rw [if_neg isCud, if_neg fun same => isCud (Prod.mk.inj same).1]

theorem assign_assign (registered : Registrations) (first second : Option LuaFunction) :
    (registered.assign cud kind first).assign cud kind second =
        registered.assign cud kind second := by
  funext other otherKind
  rw [assign_apply, assign_apply, assign_apply]
  split <;> rfl

namespace Registered

variable {registered other : Registrations}

theorem congr (holds : Registered registered world)
    (same : ∀ cud, world.Valid .client cud → registered cud = other cud) :
    Registered other world where
  holds := holds.holds
  lookup := fun cud kind valid => by rw [holds.lookup cud kind valid, same cud valid]

/-- New clients must have registered nothing. -/
theorem undisturbed {allocated : Option (ObjectKind × Addr)}
    (holds : Registered registered before)
    (undisturbed : Undisturbed allocated before after)
    (isNew : ∀ cud kind, allocated = some (.client, cud) → registered cud kind = none) :
    Registered registered after where
  holds := by
    rw [undisturbed.registry]
    apply holds.holds.forget
    rintro ⟨cud, kind⟩ held
    by_cases valid : after.Valid .client cud
    · rcases undisturbed.refs cud valid with ⟨_, same⟩ | ⟨_, _, noRefs⟩
      · exact same kind
      · exact absurd (noRefs kind) held
    · exact absurd (ref_of_not_valid valid) held
  lookup := by
    intro cud kind valid
    rw [World.lookup, undisturbed.registry]
    rcases undisturbed.refs cud valid with ⟨wasValid, same⟩ | ⟨_, isAllocated, noRefs⟩
    · rw [same]
      exact holds.lookup cud kind wasValid
    · rw [noRefs, holds.holds.unused, isNew cud kind isAllocated]

theorem quiet (holds : Registered registered before)
    (quiet : Undisturbed none before after) :
    Registered registered after :=
  holds.undisturbed quiet fun _ _ isNew => by cases isNew

theorem unregister (holds : Registered registered world) (valid : world.Valid .client cud)
    (kind : CallbackKind) :
    Registered (registered.assign cud kind none) (world.unregister cud kind) where
  holds := by
    rw [registry_unregister holds.holds valid, ref_unregister valid]
    exact holds.holds.release _
  lookup := by
    intro other otherKind otherValid
    rw [World.lookup, registry_unregister holds.holds valid, ref_unregister valid,
      holds.holds.lookup_release, assign_apply]
    split
    · rfl
    · exact holds.lookup other otherKind (valid_unregister.mp otherValid)

theorem setRef (holds : Registered registered world) (valid : world.Valid .client cud)
    (kind : CallbackKind) {ref : Ref} (fresh : world.registry ref = none)
    (positive : 0 < ref)
    (function : LuaFunction) : Registered (registered.assign cud kind (some function))
      ((world.luaRef ref function).setRef cud kind ref) := by
  have isRef : ref ≠ noRef := by
    rintro rfl
    cases positive
  have isUpdated : ((world.luaRef ref function).setRef cud kind ref).ref =
      Function.update world.ref (cud, kind) ref := ref_setRef valid
  have isStored : ((world.luaRef ref function).setRef cud kind ref).registry =
      Function.update world.registry ref (some function) := rfl
  constructor
  · rw [isStored, isUpdated]
    exact holds.holds.store fresh isRef _ _
  · intro other otherKind otherValid
    rw [World.lookup, isStored, isUpdated,
      holds.holds.lookup_store fresh isRef, assign_apply]
    split
    · rfl
    · exact holds.lookup other otherKind (valid_setRef.mp otherValid)

/-- Unregistering some callbacks of a client. -/
theorem foldl_unregister (kinds : List CallbackKind) (holds : Registered registered world)
    (valid : world.Valid .client cud) :
    ∃ others, Registered others (kinds.foldl (·.unregister cud ·) world) ∧
      ∀ other, other ≠ cud → others other = registered other := by
  induction kinds generalizing world registered with
  | nil => exact ⟨registered, holds, fun _ _ => rfl⟩
  | cons kind rest ih =>
      rcases ih (holds.unregister valid kind) (valid_unregister.mpr valid) with
        ⟨others, later, same⟩
      refine ⟨others, later, ?_⟩
      intro other different
      rw [same other different, Registrations.assign, Function.update_of_ne different]

/-! ## Operations -/

theorem registrationFunction (holds : Registered registered world) {kind : CallbackKind}
    {registration : Registration}
    (permitted : (Operation.register kind registration).permitted world = true) :
    Registered (registered.record (.register kind registration))
      (registrationFunction kind registration world).2 := by
  rw [LuaJack.registrationFunction, cudCheck]
  by_cases valid : world.Valid .client registration.client
  · rw [check_bind_of_valid valid, Registrations.record]
    cases registration.function with
    | none => exact holds
    | some function =>
        simp only [Operation.permitted, Bool.and_eq_true, decide_eq_true_eq,
          Option.isNone_iff_eq_none] at permitted
        have assigned :=
          (holds.unregister valid kind).setRef (valid_unregister.mpr valid) kind
          permitted.2 permitted.1 function
        simp only [register, Lua.modify_bind, Lua.ite_apply]
        by_cases isSet : setCallback kind registration = 0
        · rw [assign_assign] at assigned
          rw [if_neg (not_not_intro isSet), if_pos isSet]
          exact assigned
        · have removed := assigned.unregister
            (valid_setRef.mpr (valid_unregister.mpr valid)) kind
          rw [assign_assign, assign_assign] at removed
          rw [if_pos isSet, if_neg isSet]
          exact removed
  · rw [check_bind_of_not_valid valid, Registrations.record]
    cases registration.function with
    | none => exact holds
    | some function =>
        apply holds.congr
        intro cud stillValid
        symm
        apply Function.update_of_ne
        rintro rfl
        exact valid stillValid

/-- A client stays valid until all of its objects have been released. -/
theorem valid_freeObjects {rc : Int} {code : Except String Int} {middle : World}
    (valid : world.Valid .client cud)
    (deactivated : deactivate_ cud rc world = (code, middle)) :
    (middle.freeObjects cud).Valid .client cud := by
  have sameClients : (deactivate_ cud rc world).2.cuds = world.cuds := by
    rw [deactivate_apply]
    repeat' split
    all_goals rfl
  rw [deactivated] at sameClients
  rcases valid with ⟨entry, found, isValid⟩
  refine ⟨entry, ?_, isValid⟩
  rw [search_freeObjects_client, ← found]
  exact congrArg (fun cuds => Table.find? cuds cud) sameClients

/-- Closing a client does not affect the callbacks of the others. -/
theorem clientClose (holds : Registered registered world)
    (valid : world.Valid .client cud)
    (rc : Int) (script : Bool) :
    Registered registered (clientClose cud rc script world).2 := by
  have frame := (Undisturbed.framed none).on fun _ => True
  have activity := Undisturbed.framesActivity none
  rcases clientClose_apply cud rc script world with ⟨code, middle, deactivated, _, run⟩
  have disturbed := frame.respects_deactivate_ activity cud rc world
  rw [deactivated] at disturbed
  have freed := (holds.quiet disturbed).quiet
      (frame.freeObjects (fun _ => trivial) middle cud)
  have stillValid := valid_freeObjects valid deactivated
  have closed : Registered registered
      ({ (middle.freeObjects cud).perform
          (.jackClientClose (some cud) ((middle.freeObjects cud).client cud)) with
        activated := (middle.freeObjects cud).activated.erase cud }) :=
    freed.quiet (frame.trans (frame.perform _ _) (activity _ _ _))
  have cancelled (world : World) :
      Undisturbed none world
        (world.modifyEntry .client cud ObjectKind.client.cancelValid) :=
    frame.modifyEntry world cud trivial (ObjectKind.harmless_cancelValid _)
  have notValid := not_valid_retire (middle.freeObjects cud) cud script
  rw [run]
  cases script with
  | false => exact closed.quiet (cancelled _)
  | true =>
      rcases closed.foldl_unregister
        [.shutdown, .freewheel, .sampleRate, .clientRegistration,
        .portRegistration, .portRename, .portConnect,
        .graphOrder, .xrun, .latency] stillValid with
        ⟨others, unregistered, same⟩
      have retired :=
        (unregistered.quiet (frame.respects_processUnregister trivial cud _)).quiet
          (cancelled _)
      apply retired.congr
      intro other otherValid
      apply same
      rintro rfl
      exact notValid otherValid

end Registered

theorem registered_initial : Registered (fun _ _ => none) initial where
  holds := ⟨rfl, fun _ held => absurd rfl held, fun _ _ _ held => absurd rfl held⟩
  lookup := by
    rintro cud kind ⟨entry, found, _⟩
    cases found

end World

theorem registered_step (registered : Registrations)
    (operation : Operation) (before after : World)
    (holds : before.Registered registered)
    (performed : session operation before = some after) :
    after.Registered (registered.record operation) := by
  rcases session_eq_some.mp performed with ⟨permitted, rfl⟩
  have quiet (isQuiet : operation.setsReferences = false) :
      World.Undisturbed operation.allocated before (operation.perform before) := by
    apply (World.Undisturbed.framed _).operation
      (fun _ => World.Undisturbed.framesActivity _)
    intro sets
    rw [isQuiet] at sets
    cases sets
  cases operation with
  | create creation =>
      have recorded : before.Registered (registered.record (.create creation)) := by
        apply holds.congr
        rintro cud ⟨entry, found, _⟩
        rw [Registrations.record]
        cases isMalloc : creation.malloc with
        | none => rfl
        | some key =>
            symm
            apply Function.update_of_ne
            rintro rfl
            have absent := (absent_of_permitted permitted
              (Option.map_eq_some_iff.mpr ⟨cud, isMalloc, rfl⟩)).2 .client
            rw [found] at absent
            cases absent
      apply recorded.undisturbed (quiet rfl)
      intro cud kind isNew
      simp only [Operation.allocated, Option.map_eq_some_iff, Prod.mk.injEq] at isNew
      rcases isNew with ⟨_, isMalloc, _, rfl⟩
      simp only [Registrations.record, isMalloc, Function.update_self]
  | clientClose ref rc =>
      have sameRecord : registered.record (.clientClose ref rc) = registered := rfl
      rw [Operation.perform, clientCloseRef, cudCheck, sameRecord]
      by_cases valid : before.Valid .client ref
      · rw [check_bind_of_valid valid]
        exact holds.clientClose valid rc true
      · rw [check_bind_of_not_valid valid]
        exact holds
  | register kind registration => exact holds.registrationFunction permitted
  | _ => exact holds.undisturbed (quiet rfl) fun _ _ isNew => by cases isNew

/-- In every world that a session reaches, the slots of the valid clients refer to the
functions that these have registered. -/
theorem registered_run {operations : List Operation} {world : World}
    (run : session.run operations World.initial = some world) :
    world.Registered (registered operations) :=
  @Machine.invariant_of_recorded_run _ _ session operations _ _ _ Registrations.record
    (fun registered world => world.Registered registered) registered_step _
    World.registered_initial run

/-! ## Which function an event runs -/

namespace World

/-- The Lua functions that are called when an event is dispatched. -/
def called (world : World) (functions : LuaFunctions) (evt : Evt) : List LuaFunction :=
  (world.dispatch functions evt).2.calls.map Invocation.function

/-- A callback is due for an event: the program is not about to exit, the client is valid,
and the event has arguments for the callback. -/
def Due (world : World) (evt : Evt) (kind : CallbackKind) : Prop :=
  world.exiting = none ∧ world.Valid .client evt.clientKey ∧ (evt.arguments kind).isSome

instance (world : World) (evt : Evt) (kind : CallbackKind) :
    Decidable (world.Due evt kind) :=
  inferInstanceAs (Decidable (_ ∧ _))

variable {world : World} {functions : LuaFunctions} {evt : Evt} {kind : CallbackKind}

/-- The function that the slot of the handler refers to is called, if a callback is
due. -/
theorem called_of_due (isKind : evt.type = kind.code) (due : world.Due evt kind) :
    world.called functions evt = (world.lookup (evt.clientKey, kind.slot)).toList := by
  rcases due with ⟨running, ⟨entry, found, isValid⟩, hasArguments⟩
  rcases Option.isSome_iff_exists.mp hasArguments with ⟨args, isArguments⟩
  rw [called, calls_dispatch isKind found isValid running, isArguments, lookup,
    ref_of_valid found isValid]
  simp [Function.comp_def]

/-- No function is called when no callback is due. -/
theorem called_of_not_due (isKind : evt.type = kind.code) (notDue : ¬world.Due evt kind) :
    world.called functions evt = [] := by
  by_cases valid : world.Valid .client evt.clientKey
  · rcases valid with ⟨entry, found, isValid⟩
    cases running : world.exiting with
    | some message =>
        rw [called, calls_dispatch_of_exiting isKind found isValid (by rw [running]; rfl)]
        rfl
    | none =>
        have noArguments : evt.arguments kind = none := by
          apply Option.not_isSome_iff_eq_none.mp
          exact fun hasArguments =>
            notDue ⟨running, ⟨entry, found, isValid⟩, hasArguments⟩
        rw [called, calls_dispatch isKind found isValid running, noArguments]
        rfl
  · rw [called, dispatch_of_not_valid functions valid]
    rfl

end World

/-- An event runs the function that its own client has registered for its own kind, if a
callback is due, and no other. The exception are session events of clients that have not
registered the same function, or none, for latency and session. -/
theorem called_registered_iff (operations : List Operation) (world : World)
    (run : session.run operations World.initial = some world)
    (functions : LuaFunctions) (evt : Evt)
    (kind : CallbackKind) (isKind : evt.type = kind.code) :
    world.called functions evt =
        (if world.Due evt kind then (registered operations evt.clientKey kind).toList
          else []) ↔
      (kind = .session → world.Due evt kind →
        registered operations evt.clientKey .latency =
          registered operations evt.clientKey .session) := by
  have holds := registered_run run
  by_cases due : world.Due evt kind
  · rw [World.called_of_due isKind due, holds.lookup _ _ due.2.1, if_pos due]
    cases kind with
    | session =>
        simp only [CallbackKind.slot, due, true_imp_iff]
        cases registered operations evt.clientKey .latency <;>
          cases registered operations evt.clientKey .session <;> simp
    | _ => simp [CallbackKind.slot]
  · rw [World.called_of_not_due isKind due, if_neg due]
    exact iff_of_true rfl fun _ isDue => absurd isDue due

/-- A client is opened and registers a callback. -/
def registering (cud : Addr) (kind : CallbackKind) (function : LuaFunction) :
    List Operation :=
  [.create (.clientOpen (.plain cud)),
    .register kind { client := cud, function := some function, ref := 3, set := 0 }]

theorem called_registered_iff_xrun :
    ∃ world, session.run (registering 0x601010 .xrun 7) World.initial = some world ∧
      world.called (fun _ world => (.ok [], world))
        { clientKey := 0x601010, type := CallbackKind.xrun.code } = [7] := by
  refine ⟨_, rfl, ?_⟩
  have called := (called_registered_iff (registering 0x601010 .xrun 7) _ rfl
    (fun _ world => (.ok [], world))
    { clientKey := 0x601010, type := CallbackKind.xrun.code }
    .xrun rfl).mpr fun isSession => by cases isSession
  exact called

/-- A client that has registered only a session callback. -/
theorem not_always_called_registered : ¬∀ operations world,
    session.run operations World.initial = some world → ∀ functions evt kind,
      evt.type = CallbackKind.code kind → world.called functions evt =
        if world.Due evt kind then (registered operations evt.clientKey kind).toList
          else [] := by
  intro always
  have called :=
    always (registering 0x601010 .session 7) _ rfl (fun _ world => (.ok [], world))
    { clientKey := 0x601010, type := CallbackKind.session.code,
      sessionEvent :=
        some { type := 1, sessionDir := [], clientUuid := [] } } .session rfl
  cases called

end LuaJack
