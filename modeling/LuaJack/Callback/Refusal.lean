import LuaJack.Callback.Balance
import LuaJack.RealTime.Wrappers

/-!
# Callbacks that JACK refuses

All functions that register a callback store it before they ask JACK, in the place of
the one that was registered before.  If JACK refuses, it keeps the function that it has
been given before, which reads the same place.
-/

namespace LuaJack

open Atomic

/-! ## Registration from C -/

/-- A C function with its argument, as in the members `CProcess` and `CProcess_arg`. -/
structure CFunction where
  function : Addr
  arg : Addr
  deriving DecidableEq

/-- The two functions that JACK may be given for a callback that is executed in the
real-time thread: the one that calls a Lua function and the one that calls a C
function. -/
inductive Family where
  | lua
  | c
  deriving DecidableEq

/-- The Lua states, and what else is registered for the clients. -/
structure Registrar where
  states : LuaStates
  /-- The members `CProcess` to `CTimebase_arg`. -/
  cFunctions : Addr → ProcessKind → CFunction
  /-- What JACK has been given. -/
  given : Addr → ProcessKind → Option Family

namespace Registrar

/-- JACK is given another function if it does not refuse. -/
def give (registrar : Registrar) (cud : Addr)
    (kind : ProcessKind) (family : Family) : Registrar :=
  { registrar with
    given := Function.update registrar.given cud
      (Function.update (registrar.given cud) kind (some family)) }

/-- Assign to the members for a C function. -/
def setCFunction (registrar : Registrar) (cud : Addr)
    (kind : ProcessKind) (function : CFunction) :
    Registrar :=
  { registrar with
    cFunctions := Function.update registrar.cFunctions cud
      (Function.update (registrar.cFunctions cud) kind function) }

/-- The functions that register a C function; `set` is what JACK answers. -/
def processCcallback (kind : ProcessKind) (cud : Addr) (function : CFunction) (set : Int)
    (registrar : Registrar) : Int × Registrar :=
  let registrar := registrar.setCFunction cud kind function
  (set, if set = 0 then registrar.give cud kind .c else registrar)

/-- `process_ccallback_process`. -/
def processCcallbackProcess : Addr → CFunction → Int → Registrar → Int × Registrar :=
  processCcallback .process

/-- `process_ccallback_buffer_size`. -/
def processCcallbackBufferSize : Addr → CFunction → Int → Registrar → Int × Registrar :=
  processCcallback .bufferSize

/-- `process_ccallback_sync`. -/
def processCcallbackSync : Addr → CFunction → Int → Registrar → Int × Registrar :=
  processCcallback .sync

/-- `process_ccallback_timebase`. Whether the callback is conditional is left to JACK. -/
def processCcallbackTimebase : Addr → CFunction → Int → Registrar → Int × Registrar :=
  processCcallback .timebase

/-- A function of a process state that registers a callback. -/
def processRegistration (state : Handle) (kind : ProcessKind)
    (registration : Registration)
    (registrar : Registrar) : Except Failure Unit × Registrar :=
  match Stateful.registrationFunction state kind registration registrar.states with
  | (.ok value, states) =>
      (.ok value, { registrar with states }.give registration.client kind .lua)
  | (.error failure, states) => (.error failure, { registrar with states })

/-- A function of the main state that registers a callback. -/
def mainRegistration (kind : CallbackKind)
    (registration : Registration) (registrar : Registrar) :
    Except Failure Unit × Registrar :=
  let (answer, states) :=
    Stateful.lift (registrationFunction kind registration) registrar.states
  (answer, { registrar with states })

end Registrar

/-- A call of one of the functions that register a callback. -/
inductive RegistrationCall where
  | main (kind : CallbackKind) (registration : Registration)
  | process (state : Handle) (kind : ProcessKind) (registration : Registration)
  | c (kind : ProcessKind) (cud : Addr) (function : CFunction) (set : Int)

namespace RegistrationCall

/-- The client that a callback is registered for. -/
def client : RegistrationCall → Addr
  | main _ registration | process _ _ registration => registration.client
  | c _ cud _ _ => cud

/-- `luaL_ref` returns what it may return, and a function is called from a state that is
open. -/
def permitted : RegistrationCall → Registrar → Bool
  | main kind registration, registrar =>
      (Operation.register kind registration).permitted registrar.states.world
  | process state kind registration, registrar =>
      (registrar.states.registries state).isSome && 0 < registration.ref &&
        ((Stateful.unregister registration.client kind registrar.states).2.registries
          state).all
          fun registry => (registry registration.ref).isNone
  | c .., _ => true

/-- The call reports the error that JACK has refused the callback. -/
def Refused (before after : Registrar) : RegistrationCall → Prop
  | main kind registration =>
      before.mainRegistration kind registration =
        (.error (.raised "cannot register callback"), after)
  | process state kind registration =>
      before.processRegistration state kind registration =
        (.error (.raised "cannot register callback"), after)
  | c kind cud function set =>
      set ≠ 0 ∧ before.processCcallback kind cud function set = (set, after)

end RegistrationCall

/-! ## The main state -/

namespace World

variable {world after : World} {cud : Addr} {entry : Cud}

/-- An entry that is changed and changed back. -/
theorem modifyEntry_modifyEntry {first second : Cud → Cud}
    (found : world.search .client cud = some entry)
    (back : second (first entry) = entry) :
    (world.modifyEntry .client cud first).modifyEntry .client cud second = world := by
  have same : (world.cuds.modify cud first).modify cud second = world.cuds :=
    Table.modify_modify found back
  change { world with cuds := (world.cuds.modify cud first).modify cud second } = world
  rw [same]

/-- The world when the reference to a function has been stored. -/
def stored (world : World) (cud : Addr) (kind : CallbackKind)
    (ref : Ref) (function : LuaFunction) :
    World :=
  ((world.unregister cud kind).luaRef ref function).setRef cud kind ref

theorem search_stored (found : world.search .client cud = some entry)
    (kind : CallbackKind)
    (ref : Ref) (function : LuaFunction) :
    (world.stored cud kind ref function).search .client cud =
      some { entry with refs := Function.update entry.refs kind ref } := by
  have unregistered : ((world.unregister cud kind).luaRef ref function).search
      .client cud =
      some { entry with refs := Function.update entry.refs kind noRef } :=
    search_unregister found kind
  rw [stored, search_setRef_self unregistered]
  simp

/-- What is left of a callback that JACK has refused. -/
theorem registrationFunction_refused {kind : CallbackKind} {registration : Registration}
    (refused : registrationFunction kind registration world =
      (.error "cannot register callback", after)) :
    ∃ entry function, world.search .client registration.client = some entry ∧
      entry.valid = true ∧
      after = (world.stored registration.client kind registration.ref function).unregister
        registration.client kind := by
  rw [registrationFunction, cudCheck] at refused
  by_cases valid : world.Valid .client registration.client
  · rw [check_bind_of_valid valid] at refused
    rcases valid with ⟨entry, found, isValid⟩
    cases isFunction : registration.function with
    | none =>
        rw [isFunction] at refused
        have message := (Prod.mk.inj refused).1
        exact absurd (Except.error.inj message) (by decide)
    | some function =>
        rw [isFunction] at refused
        simp only [register, Lua.modify_bind, Lua.ite_apply] at refused
        split at refused
        next isRefused =>
          cases refused
          exact ⟨entry, function, found, isValid, rfl⟩
        next => cases refused
  · rw [check_bind_of_not_valid valid] at refused
    have message := (Prod.mk.inj refused).1
    exact absurd (Except.error.inj message) (by decide)

/-- The slot is empty afterwards. -/
theorem search_refused {kind : CallbackKind} {registration : Registration}
    (refused : registrationFunction kind registration world =
      (.error "cannot register callback", after)) :
    ∃ last : Cud, after.search .client registration.client = some last ∧
      last.valid = true ∧
      last.refs kind = noRef := by
  rcases registrationFunction_refused refused with ⟨entry, function, found, isValid, rfl⟩
  have search :=
    search_unregister (search_stored found kind registration.ref function) kind
  exact ⟨_, search, isValid, Function.update_self ..⟩

theorem ref_refused {kind : CallbackKind} {registration : Registration}
    (refused : registrationFunction kind registration world =
      (.error "cannot register callback", after)) :
    after.ref (registration.client, kind) = noRef := by
  rcases search_refused refused with ⟨last, found, isValid, isEmpty⟩
  rw [ref_of_valid found isValid]
  exact isEmpty

/-- Nothing has changed if the slot was empty before. -/
theorem refused_eq {kind : CallbackKind} {registration : Registration}
    (permitted : (Operation.register kind registration).permitted world = true)
    (refused : registrationFunction kind registration world =
      (.error "cannot register callback", after))
    (isEmpty : world.ref (registration.client, kind) = noRef) : after = world := by
  rcases registrationFunction_refused refused with ⟨entry, function, found, isValid, rfl⟩
  rw [ref_of_valid found isValid] at isEmpty
  have unregistered : world.unregister registration.client kind = world := by
    simp only [unregister, found, isEmpty, if_true]
  simp only [Operation.permitted, unregistered, Bool.and_eq_true, decide_eq_true_eq,
    Option.isNone_iff_eq_none] at permitted
  have positive := LuaStates.Balanced.noRef_ne_of_pos permitted.1
  have registry : Function.update
      (Function.update world.registry registration.ref (some function))
      registration.ref none = world.registry := by
    rw [Function.update_idem, ← permitted.2, Function.update_eq_self]
  have refs : Function.update
      (Function.update entry.refs kind registration.ref) kind noRef =
      entry.refs := by
    rw [Function.update_idem, ← isEmpty, Function.update_eq_self]
  have same := @modifyEntry_modifyEntry world registration.client entry
    (fun cud => { cud with refs := Function.update cud.refs kind registration.ref })
    (fun cud => { cud with refs := Function.update cud.refs kind noRef }) found
    (by simp only [refs])
  rw [unregister, search_stored found kind registration.ref function]
  simp only [Function.update_self, positive, if_false, stored, unregistered]
  conv_rhs => rw [← same]
  change { world with
    registry :=
      Function.update (Function.update world.registry registration.ref (some function))
      registration.ref none
    cuds := _ } = _
  rw [registry]
  rfl

end World

/-! ## The process states -/

namespace Stateful

variable {states after : LuaStates} {state : Handle} {kind : ProcessKind}
variable {registration : Registration}

theorem unregister_fails {cud : Addr} {entry : Cud} {failure : Failure}
    (found : states.world.search .client cud = some entry)
    (fails : unregister cud kind states = (.error failure, after)) :
    failure = .noState := by
  rcases unregister_cases found kind with ⟨_, run⟩ | ⟨_, _, _, _, run⟩ | ⟨_, _, run⟩
  · rw [run] at fails
    cases fails
  · rw [run] at fails
    cases fails
  · rw [run] at fails
    cases fails
    rfl

/-- When an error follows, the callback has been unregistered. -/
theorem unregister_of_raised {cud : Addr} {entry : Cud} {message text : String}
    (found : states.world.search .client cud = some entry)
    (raised : (do unregister cud kind; raise message : Stateful Unit) states =
      (.error (.raised text), after)) :
    unregister cud kind states = (.ok (), after) := by
  cases run : unregister cud kind states with
  | mk answer last =>
      cases answer with
      | error failure =>
          rw [Fallible.bind_of_error run, unregister_fails found run] at raised
          cases raised
      | ok _ =>
          rw [Fallible.bind_of_ok run, raise, Fallible.error_apply] at raised
          cases raised
          rfl

/-- The slot is empty afterwards, and no state has been opened or closed. -/
theorem unregister_returns {cud : Addr} {entry : Cud}
    (found : states.world.search .client cud = some entry)
    (returns : unregister cud kind states = (.ok (), after)) :
    after.world.search .client cud =
        some { entry with processRefs := Function.update entry.processRefs kind noRef } ∧
      ∀ other, (after.registries other).isSome = (states.registries other).isSome := by
  rcases unregister_cases found kind with
    ⟨isEmpty, run⟩ | ⟨_, _, _, isOpen, run⟩ | ⟨_, _, run⟩
  · rw [run] at returns
    cases returns
    rw [← isEmpty, Function.update_eq_self]
    exact ⟨found, fun _ => rfl⟩
  · rw [run] at returns
    cases returns
    exact ⟨World.search_setProcessRef_self found kind noRef,
      LuaStates.isSome_setRegistry isOpen _⟩
  · rw [run] at returns
    cases returns

/-- The states when the reference to a function has been stored. -/
def stored (states : LuaStates) (state : Handle)
    (registry : Registry) (kind : ProcessKind)
    (registration : Registration) (function : LuaFunction) : LuaStates :=
  (states.setRegistry state
      (some (Function.update registry registration.ref (some function)))).modifyWorld
    (·.setProcessRef registration.client kind registration.ref)

/-- What is left of a callback that JACK has refused. The reference is released in the
registry of the process state of the client, whichever state has called. -/
theorem registrationFunction_refused (isOpen : (states.registries state).isSome)
    (refused : registrationFunction state kind registration states =
      (.error (.raised "cannot register callback"), after)) :
    ∃ entry middle registry function,
      states.world.search .client registration.client = some entry ∧
      unregister registration.client kind states = (.ok (), middle) ∧
      middle.registries state = some registry ∧
      unregister registration.client kind
        (stored middle state registry kind registration function) =
        (.ok (), after) := by
  by_cases valid : states.world.Valid .client registration.client
  · rw [registrationFunction, Fallible.bind_of_ok (cudCheck_of_valid valid)] at refused
    rcases valid with ⟨entry, found, isValid⟩
    cases isFunction : registration.function with
    | none =>
        rw [isFunction] at refused
        have message := Failure.raised.inj (Except.error.inj (Prod.mk.inj refused).1)
        exact absurd message (by decide)
    | some function =>
        rw [isFunction] at refused
        simp only [register] at refused
        cases first : unregister registration.client kind states with
        | mk answer middle =>
            cases answer with
            | error failure =>
                rw [Fallible.bind_of_error first, unregister_fails found first] at refused
                cases refused
            | ok _ =>
                have stillFound := unregister_returns found first
                rw [← stillFound.2] at isOpen
                rcases Option.isSome_iff_exists.mp isOpen with ⟨registry, isRegistry⟩
                rw [Fallible.bind_of_ok first,
                  Fallible.bind_of_ok
                    (luaRef_of_open isRegistry registration.ref function),
                  Fallible.modify_bind, Fallible.ite_apply] at refused
                refine ⟨entry, middle, registry, function, found, rfl, isRegistry, ?_⟩
                split at refused
                next =>
                  have search :=
                    World.search_setProcessRef_self stillFound.1 kind registration.ref
                  exact unregister_of_raised search refused
                next => cases refused
  · rw [registrationFunction, Fallible.bind_of_error
      (cudCheck_of_not_valid valid)] at refused
    have message := Failure.raised.inj (Except.error.inj (Prod.mk.inj refused).1)
    exact absurd message (by decide)

/-- Releasing a reference that has been stored, in the registry of the process state. -/
theorem unregister_stored {entry : Cud} {middle : LuaStates} {registry : Registry}
    {function : LuaFunction} (positive : 0 < registration.ref)
    (found : middle.world.search .client registration.client = some entry)
    (run : unregister registration.client kind
      (stored middle state registry kind registration function) = (.ok (), after)) :
    ∃ own ownRegistry, entry.processState = some own ∧
      (stored middle state registry kind registration function).registries own =
        some ownRegistry ∧
      after.registries own = some (Function.update ownRegistry registration.ref none) ∧
      after.world = (middle.world.setProcessRef registration.client kind
        registration.ref).setProcessRef registration.client kind noRef := by
  have search := World.search_setProcessRef_self found kind registration.ref
  have isRef : Function.update entry.processRefs kind registration.ref kind =
      registration.ref :=
    Function.update_self ..
  have search : (stored middle state registry kind registration function).world.search
      .client registration.client = some _ := search
  rcases unregister_cases search kind with ⟨isEmpty, _⟩ |
    ⟨own, ownRegistry, isState, isOpen, released⟩ | ⟨_, _, fails⟩
  · exact absurd (isRef.symm.trans isEmpty) (LuaStates.Balanced.noRef_ne_of_pos positive)
  · rw [released] at run
    cases run
    refine ⟨own, ownRegistry, isState, isOpen, ?_, rfl⟩
    simp only [isRef]
    exact LuaStates.setRegistry_self _
  · rw [fails] at run
    cases run

/-- The slot is empty afterwards, and the reference of the refused function is not
used. -/
theorem refused_empties (isOpen : (states.registries state).isSome)
    (positive : 0 < registration.ref)
    (refused : registrationFunction state kind registration states =
      (.error (.raised "cannot register callback"), after)) :
    ∃ entry registry, states.world.search .client registration.client = some entry ∧
      after.world.search .client registration.client =
        some { entry with processRefs := Function.update entry.processRefs kind noRef } ∧
      after.registryOf entry.processState = some registry ∧
        registry registration.ref = none := by
  rcases registrationFunction_refused isOpen refused with
    ⟨entry, middle, registry, function, found, first, _, second⟩
  have stillFound := (unregister_returns found first).1
  rcases unregister_stored positive stillFound second with
    ⟨own, ownRegistry, isState, _, isOwn, _⟩
  have isState : entry.processState = some own := isState
  have search := (unregister_returns
    (World.search_setProcessRef_self stillFound kind registration.ref) second).1
  refine ⟨entry, _, found, ?_, by rw [isState]; exact isOwn, Function.update_self ..⟩
  simp only [Function.update_idem] at search
  exact search

/-- Nothing has changed for the client if its slot was empty before. -/
theorem refused_eq {entry : Cud} (isOpen : (states.registries state).isSome)
    (positive : 0 < registration.ref)
    (refused : registrationFunction state kind registration states =
      (.error (.raised "cannot register callback"), after))
    (found : states.world.search .client registration.client = some entry)
    (isEmpty : entry.processRefs kind = noRef)
    (fresh : ∀ registry, states.registryOf entry.processState = some registry →
      registry registration.ref = none) :
    after.world = states.world ∧
      after.registryOf entry.processState = states.registryOf entry.processState := by
  rcases registrationFunction_refused isOpen refused with
    ⟨other, middle, registry, function, isFound, first, isRegistry, second⟩
  cases found.symm.trans isFound
  have unregistered : middle = states := by
    rw [unregister_of_noRef found isEmpty] at first
    cases first
    rfl
  subst unregistered
  rcases unregister_stored positive found second with
    ⟨own, ownRegistry, isState, isStored, isOwn, isWorld⟩
  constructor
  · rw [isWorld]
    apply World.modifyEntry_modifyEntry found
    simp only [Function.update_idem, ← isEmpty, Function.update_eq_self]
  · rw [isState] at fresh ⊢
    have isStored : Function.update middle.registries state
        (some (Function.update registry registration.ref (some function))) own =
        some ownRegistry := isStored
    change after.registries own = middle.registries own
    rw [isOwn]
    by_cases isCaller : own = state
    · subst isCaller
      rw [Function.update_self, Option.some.injEq] at isStored
      rw [← isStored, isRegistry, Function.update_idem, ← fresh registry isRegistry,
        Function.update_eq_self]
    · rw [Function.update_of_ne isCaller] at isStored
      rw [isStored, ← fresh ownRegistry isStored, Function.update_eq_self]

end Stateful

/-! ## All families of callbacks -/

/-- What the function runs that JACK has been given for a callback. -/
inductive Run where
  | lua (function : Option LuaFunction)
  | c (function : CFunction)
  deriving DecidableEq

namespace Registrar

/-- The Lua function that a callback in the real-time thread refers to. -/
def processLookup (registrar : Registrar) (cud : Addr) (kind : ProcessKind) :
    Option LuaFunction :=
  (registrar.states.world.search .client cud).bind fun entry =>
    (registrar.states.registryOf entry.processState).bind fun registry =>
      registry (entry.processRefs kind)

/-- What JACK runs in the real-time thread. -/
def runs (registrar : Registrar) (cud : Addr) (kind : ProcessKind) : Option Run :=
  (registrar.given cud kind).map fun
    | .lua => .lua (registrar.processLookup cud kind)
    | .c => .c (registrar.cFunctions cud kind)

/-- Everything is as before for a client: its entry and the queue of events, the
registries, the C functions, and what JACK has been given. -/
structure Unchanged (cud : Addr) (before after : Registrar) : Prop where
  world : after.states.world = before.states.world
  registry : ∀ entry : Cud, before.states.world.search .client cud = some entry →
    after.states.registryOf entry.processState =
      before.states.registryOf entry.processState
  cFunctions : after.cFunctions cud = before.cFunctions cud
  given : after.given cud = before.given cud

/-- The callbacks of a client are still the ones that have been registered: for events
that are queued or that notifications of JACK will queue, and in the real-time
thread. -/
structure Kept (cud : Addr) (before after : Registrar) : Prop extends
    Unchanged cud before after where
  called : ∀ functions evt,
    after.states.world.called functions evt = before.states.world.called functions evt
  notified : ∀ ports notification evtNew,
    notify ports notification cud evtNew after.states.world =
      notify ports notification cud evtNew before.states.world
  runs : ∀ kind, after.runs cud kind = before.runs cud kind

theorem Unchanged.kept {cud : Addr} {before after : Registrar}
    (unchanged : Unchanged cud before after) : Kept cud before after where
  toUnchanged := unchanged
  called := fun _ _ => by rw [unchanged.world]
  notified := fun _ _ _ => by rw [unchanged.world]
  runs := by
    intro kind
    have lookup : after.processLookup cud kind = before.processLookup cud kind := by
      unfold processLookup
      rw [unchanged.world]
      cases found : before.states.world.search .client cud with
      | none => rfl
      | some entry =>
          simp only [Option.bind_some]
          rw [unchanged.registry entry found]
    unfold Registrar.runs
    rw [unchanged.given, unchanged.cFunctions, lookup]

end Registrar

namespace RegistrationCall

/-- The place of the callback holds nothing, or what is registered again. In the
registry of the process state of the client nothing else has the reference, which is
always so when the function is called from that state. -/
def Vacant (before : Registrar) : RegistrationCall → Prop
  | main kind registration => before.states.world.ref (registration.client, kind) = noRef
  | process _ kind registration => ∀ entry : Cud,
      before.states.world.search .client registration.client = some entry →
        entry.processRefs kind = noRef ∧
        ∀ registry, before.states.registryOf entry.processState = some registry →
          registry registration.ref = none
  | c kind cud function _ => before.cFunctions cud kind = function

variable {before after : Registrar}

theorem unchanged_main_iff {kind : CallbackKind} {registration : Registration}
    (permitted : (main kind registration).permitted before = true)
    (refused : (main kind registration).Refused before after) :
    Registrar.Unchanged registration.client before after ↔
      (main kind registration).Vacant before := by
  have isRefused : ∃ world, registrationFunction kind registration before.states.world =
      (.error "cannot register callback", world) ∧
        after = { before with states.world := world } := by
    simp only [Refused, Registrar.mainRegistration, Stateful.lift] at refused
    cases run : registrationFunction kind registration before.states.world with
    | mk answer world =>
        rw [run] at refused
        cases answer with
        | ok _ => cases refused
        | error message =>
            cases refused
            exact ⟨world, rfl, rfl⟩
  rcases isRefused with ⟨world, run, rfl⟩
  constructor
  · intro unchanged
    have isEmpty := World.ref_refused run
    have isWorld : world = before.states.world := unchanged.world
    rw [isWorld] at isEmpty
    exact isEmpty
  · intro isEmpty
    have isWorld := World.refused_eq permitted run isEmpty
    exact ⟨isWorld, fun _ _ => rfl, rfl, rfl⟩

theorem unchanged_process_iff {state : Handle}
    {kind : ProcessKind} {registration : Registration}
    (permitted : (process state kind registration).permitted before = true)
    (refused : (process state kind registration).Refused before after) :
    Registrar.Unchanged registration.client before after ↔
      (process state kind registration).Vacant before := by
  have isRefused : ∃ states, Stateful.registrationFunction
      state kind registration before.states =
      (.error (.raised "cannot register callback"), states) ∧
        after = { before with states } := by
    simp only [Refused, Registrar.processRegistration] at refused
    cases run : Stateful.registrationFunction state kind registration before.states with
    | mk answer states =>
        rw [run] at refused
        cases answer with
        | ok _ => cases refused
        | error failure =>
            cases refused
            exact ⟨states, rfl, rfl⟩
  rcases isRefused with ⟨states, run, rfl⟩
  simp only [RegistrationCall.permitted, Bool.and_eq_true, decide_eq_true_eq] at permitted
  rcases permitted with ⟨⟨isOpen, positive⟩, _⟩
  constructor
  · intro unchanged entry found
    rcases Stateful.refused_empties isOpen positive run with
      ⟨other, registry, isFound, search, isRegistry, unused⟩
    cases found.symm.trans isFound
    have isWorld : states.world = before.states.world := unchanged.world
    rw [isWorld, found, Option.some.injEq] at search
    have same := unchanged.registry entry found
    constructor
    · rw [search]
      exact Function.update_self ..
    · intro registry' wasRegistry
      have isSame : some registry = some registry' :=
        isRegistry.symm.trans (same.trans wasRegistry)
      cases isSame
      exact unused
  · intro vacant
    rcases Stateful.refused_empties isOpen positive run with ⟨entry, _, found, _⟩
    rcases vacant entry found with ⟨isEmpty, fresh⟩
    have same := Stateful.refused_eq isOpen positive run found isEmpty fresh
    refine ⟨same.1, ?_, rfl, rfl⟩
    intro other isFound
    cases found.symm.trans isFound
    exact same.2

theorem unchanged_c_iff {kind : ProcessKind}
    {cud : Addr} {function : CFunction} {set : Int}
    (refused : (c kind cud function set).Refused before after) :
    Registrar.Unchanged cud before after ↔ (c kind cud function set).Vacant before := by
  rcases refused with ⟨isRefused, run⟩
  simp only [Registrar.processCcallback, isRefused,
    if_false, Prod.mk.injEq, true_and] at run
  subst run
  constructor
  · intro unchanged
    have same := congrFun unchanged.cFunctions kind
    simp only [Registrar.setCFunction, Function.update_self] at same
    exact same.symm
  · intro same
    have same : before.cFunctions cud kind = function := same
    refine ⟨rfl, fun _ _ => rfl, ?_, rfl⟩
    simp only [Registrar.setCFunction, Function.update_self]
    rw [← same, Function.update_eq_self]

/-- A call that JACK refuses leaves the client as it was exactly when there was no other
callback in the place that it has stored its own in. -/
theorem refused_kept_iff (call : RegistrationCall)
    (permitted : call.permitted before = true) (refused : call.Refused before after) :
    Registrar.Kept call.client before after ↔ call.Vacant before := by
  have unchanged : Registrar.Unchanged call.client before after ↔ call.Vacant before := by
    cases call with
    | main kind registration => exact unchanged_main_iff permitted refused
    | process state kind registration => exact unchanged_process_iff permitted refused
    | c kind cud function set => exact unchanged_c_iff refused
  rw [← unchanged]
  constructor
  · exact fun kept => kept.toUnchanged
  · exact fun unchanged => unchanged.kept

/-- The world after a client has been opened. -/
def opened (cud : Addr) : Option World :=
  session.run [.create (.clientOpen (.plain cud))] World.initial

/-- JACK refuses the first callback of a client. -/
theorem refused_kept_iff_first :
    ∃ world, (opened 0x601010) = some world ∧
      ∃ after, (main .xrun ⟨0x601010, some 8, 3, 1⟩).Refused
          ⟨⟨world, fun _ => none⟩, fun _ _ => ⟨0, 0⟩, fun _ _ => none⟩ after ∧
        Registrar.Kept 0x601010
          ⟨⟨world, fun _ => none⟩, fun _ _ => ⟨0, 0⟩, fun _ _ => none⟩
          after := by
  refine ⟨_, rfl, _, rfl, ?_⟩
  refine (refused_kept_iff (main .xrun ⟨0x601010, some 8, 3, 1⟩) ?_ ?_).mpr ?_
  · rfl
  · rfl
  · rfl

/-- JACK refuses a second callback of a client, which loses its first one. -/
theorem refused_not_kept :
    ∃ world, session.run (registering 0x601010 .xrun 7) World.initial = some world ∧
      ∃ after, (main .xrun ⟨0x601010, some 8, 3, 1⟩).Refused
          ⟨⟨world, fun _ => none⟩, fun _ _ => ⟨0, 0⟩, fun _ _ => none⟩ after ∧
        ¬Registrar.Kept 0x601010
          ⟨⟨world, fun _ => none⟩, fun _ _ => ⟨0, 0⟩, fun _ _ => none⟩
          after := by
  refine ⟨_, rfl, _, rfl, ?_⟩
  intro kept
  have same := congrArg (fun world => world.ref (0x601010, .xrun)) kept.world
  cases same

end RegistrationCall

/-! ## What runs after a refusal -/

namespace World

variable {world after : World} {kind : CallbackKind} {registration : Registration}

/-- Neither a notification nor an event runs the callback that was registered before. -/
theorem silent_of_refused (refused : registrationFunction kind registration world =
      (.error "cannot register callback", after)) :
    (∀ ports notification evtNew, notification.kind = kind →
      notify ports notification registration.client evtNew after = after) ∧
    (after.registry noRef = none → ∀ functions evt eventKind, evt.type =
        CallbackKind.code eventKind →
      eventKind.slot = kind → evt.clientKey = registration.client →
        after.called functions evt = []) := by
  have isEmpty := ref_refused refused
  constructor
  · rintro ports notification evtNew rfl
    rcases search_refused refused with ⟨last, found, isValid, isEmpty⟩
    rw [notify_eq, Precallback.precallback, found]
    simp only [isValid, isEmpty, Bool.not_true, Bool.false_eq_true, if_false, if_true]
  · rintro unused functions evt eventKind isKind rfl isClient
    by_cases due : after.Due evt eventKind
    · rw [called_of_due isKind due, lookup, isClient, isEmpty, unused]
      rfl
    · exact called_of_not_due isKind due

end World

namespace Registrar

/-- What the functions that JACK has been given find, for one of the clients. -/
structure Surrounds {Number : Type} (states : LuaStates) (cud : Addr)
    (client : RealTime.Client Number) : Prop where
  entry : ∃ entry : Cud, states.world.search .client cud = some entry ∧
    client.marks.get Marks.validBit = entry.valid ∧
    client.surroundings.refs = entry.processRefs ∧
    states.registryOf entry.processState = some client.surroundings.registry

/-- The next call of the function that JACK has been given ends the program. -/
theorem begin_of_refused {Number : Type} {states after : LuaStates} {state : Handle}
    {kind : ProcessKind} {registration : Registration} {client : RealTime.Client Number}
    (isOpen : (states.registries state).isSome) (positive : 0 < registration.ref)
    (refused : Stateful.registrationFunction state kind registration states =
      (.error (.raised "cannot register callback"), after))
    (surrounds : Surrounds after registration.client client)
    (isValid : client.marks.get Marks.validBit = true)
    (running : client.surroundings.exiting = none)
    (unused : client.surroundings.registry noRef = none) :
    ∃ last, RealTime.begin kind client = (.error .refused, last) ∧
      last.surroundings.exiting = some (some (chars ("4 " ++ unexpectedError))) := by
  rcases Stateful.refused_empties isOpen positive refused with ⟨entry, _, _, search, _⟩
  rcases surrounds.entry with ⟨other, found, _, isRefs, _⟩
  cases search.symm.trans found
  have isEmpty : client.surroundings.refs kind = noRef := by
    rw [isRefs]
    exact Function.update_self ..
  rw [RealTime.begin, Fallible.asks_bind, Fallible.asks_bind]
  simp only [running, isValid, isEmpty, unused, Option.isSome_none, Bool.not_true,
    Bool.false_eq_true, if_false]
  refine ⟨_, rfl, ?_⟩
  simp only [running, Option.getD_none]

/-- The C function that JACK has refused is the one that runs, if JACK has been given the
function that calls C functions. -/
theorem runs_of_refused {before after : Registrar} {kind : ProcessKind} {cud : Addr}
    {function : CFunction} {set : Int}
    (refused : (RegistrationCall.c kind cud function set).Refused before after)
    (given : before.given cud kind = some .c) :
    after.runs cud kind = some (.c function) := by
  rcases refused with ⟨isRefused, run⟩
  simp only [processCcallback, isRefused, if_false, Prod.mk.injEq, true_and] at run
  subst run
  have stillGiven : (before.setCFunction cud kind function).given cud kind =
      some .c := given
  rw [runs, stillGiven]
  simp [setCFunction]

end Registrar

end LuaJack
