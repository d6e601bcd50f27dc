import LuaJack.Callback.Registered
import LuaJack.Fallible

/-!
# The states of Lua

Beside the main state there is a process state for each client that has loaded a
process chunk.  The callbacks that are executed in the real-time thread are registered
from there, in the registry of that state.
-/

namespace LuaJack

open Atomic

/-- The registry of a Lua state, as far as it holds functions. -/
abbrev Registry := Ref → Option LuaFunction

/-- The world, with the registry of the main state, and the process states. -/
structure LuaStates where
  world : World
  /-- The registries of the process states that are open. -/
  registries : Handle → Option Registry

/-- How a function ends that does not return. -/
inductive Failure where
  | raised (message : String)
  /-- A function of Lua is called for no state, or for a state that is closed. -/
  | noState

/-- A function that is called from one of the Lua states. -/
abbrev Stateful := Fallible LuaStates Failure

/-- A function that does not concern the process states. -/
def Stateful.lift {α : Type} (function : Lua α) : Stateful α := fun states =>
  match function states.world with
  | (.ok value, world) => (.ok value, { states with world })
  | (.error message, world) => (.error (.raised message), { states with world })

/-- `luaL_error`. -/
def Stateful.raise {α : Type} (message : String) :
    Stateful α := Fallible.error (.raised message)

namespace World

/-- Assign to a member of a client's entry that holds the reference of a callback that is
executed in the real-time thread. -/
def setProcessRef (world : World) (cud : Addr) (kind : ProcessKind) (ref : Ref) : World :=
  world.modifyEntry .client cud fun cud =>
    { cud with processRefs := Function.update cud.processRefs kind ref }

/-- Assign to the member `process_state`. -/
def setProcessState (world : World) (cud : Addr) (state : Handle) : World :=
  world.modifyEntry .client cud fun cud => { cud with processState := some state }

end World

namespace LuaStates

/-- The states at program start. -/
def initial : LuaStates where
  world := .initial
  registries := fun _ => none

/-- The registry of a process state, if there is one and it is open. -/
def registryOf (states : LuaStates) (state : Option Handle) : Option Registry :=
  state.bind states.registries

/-- Open a process state, close it, or change its registry. -/
def setRegistry (states : LuaStates) (state : Handle)
    (registry : Option Registry) : LuaStates :=
  { states with registries := Function.update states.registries state registry }

/-- Change the world. -/
def modifyWorld (states : LuaStates) (change : World → World) : LuaStates :=
  { states with world := change states.world }

end LuaStates

namespace Stateful

/-- `luaL_ref` in the registry of a process state, with the reference that it returns. -/
def luaRef (state : Option Handle) (ref : Ref) (function : LuaFunction) :
    Stateful Unit := do
  match state, (← Fallible.asks (·.registryOf state)) with
  | some state, some registry =>
      Fallible.modify
        (·.setRegistry state (some (Function.update registry ref (some function))))
  | _, _ => Fallible.error .noState

/-- `luaL_unref` in the registry of a process state. -/
def luaUnref (state : Option Handle) (ref : Ref) : Stateful Unit := do
  match state, (← Fallible.asks (·.registryOf state)) with
  | some state, some registry =>
      Fallible.modify (·.setRegistry state (some (Function.update registry ref none)))
  | _, _ => Fallible.error .noState

/-! ## Registration -/

/-- `Unregister`, for the callbacks that are executed in the real-time thread. -/
def unregister (cud : Addr) (kind : ProcessKind) : Stateful Unit := do
  match ← Fallible.asks (·.world.search .client cud) with
  | none => return ()
  | some entry =>
      if entry.processRefs kind ≠ noRef then
        luaUnref entry.processState (entry.processRefs kind)
        Fallible.modify (·.modifyWorld (·.setProcessRef cud kind noRef))

/-- `Register`, for the callbacks that are executed in the real-time thread. The
function is in the state that calls. -/
def register (state : Handle) (kind : ProcessKind) (cud : Addr) (function : LuaFunction)
    (registration : Registration) : Stateful Unit := do
  unregister cud kind
  luaRef (some state) registration.ref function
  Fallible.modify (·.modifyWorld (·.setProcessRef cud kind registration.ref))
  if registration.set ≠ 0 then
    unregister cud kind
    raise "cannot register callback"

/-- A function of a process state that registers a callback. -/
def registrationFunction (state : Handle) (kind : ProcessKind)
    (registration : Registration) :
    Stateful Unit := do
  let cud ← lift (cudCheck registration.client)
  match registration.function with
  | none => raise "bad argument #2 (function expected)"
  | some function => register state kind cud function registration

/-- `ProcessCallback`. -/
def processCallback (state : Handle) : Registration → Stateful Unit :=
  registrationFunction state .process

/-- `BufferSizeCallback`. -/
def bufferSizeCallback (state : Handle) : Registration → Stateful Unit :=
  registrationFunction state .bufferSize

/-- `SyncCallback`. -/
def syncCallback (state : Handle) : Registration → Stateful Unit :=
  registrationFunction state .sync

/-- `TimebaseCallback`. -/
def timebaseCallback (state : Handle) (registration : Registration)
    (conditional : LuaValue) :
    Stateful Unit :=
  if conditional.toBoolean then
    registrationFunction state .timebaseConditional registration
  else
    registrationFunction state .timebase registration

/-- `ReleaseTimebase`. If `jack_release_timebase` fails, `released` is the text of its
code. -/
def releaseTimebase (ref : LuaInteger) (released : Except String Unit) :
    Stateful Unit := do
  let cud ← lift (cudCheck ref)
  unregister cud .timebase
  unregister cud .timebaseConditional
  lift (Lua.ofExcept released)

/-- `process_unregister`. -/
def processUnregister (cud : Addr) : Stateful Unit := do
  match ← Fallible.asks (·.world.search .client cud) with
  | none => return ()
  | some entry =>
      if entry.processState.isSome then
        unregister cud .process
        unregister cud .bufferSize
        unregister cud .sync
        unregister cud .timebase
        unregister cud .timebaseConditional

end Stateful

/-! ## Process chunks and closing -/

/-- A call of `process_loadfile` or `process_load`: its arguments, and the answers that it
receives. -/
structure ProcessLoad where
  ref : LuaInteger
  chunk : LuaValue
  arguments : List LuaValue
  newstate : Option Handle
  /-- Whether the chunk can be found and loaded. -/
  loadchunk : Except String Unit
  /-- Whether the chunk is executed without an error. What it does happens next. -/
  pcall : Except String Unit

namespace Stateful

/-- The part of `ProcessLoad_` behind `luajack_newstate`. The state is closed if the chunk
cannot be loaded, but remains the process state of the client. -/
def processStart (cud : Addr) (state : Handle) (call : ProcessLoad) : Stateful Unit := do
  Fallible.modify fun states =>
    (states.setRegistry state (some fun _ => none)).modifyWorld
      (·.setProcessState cud state)
  match call.loadchunk with
  | .error message =>
      Fallible.modify (·.setRegistry state none)
      raise message
  | .ok _ =>
      lift (Lua.ofExcept (xmove 1 call.arguments))
      lift (Lua.ofExcept call.pcall)

/-- `ProcessLoad_`. -/
def processLoad (call : ProcessLoad) : Stateful Unit := do
  let cud ← lift (cudCheck call.ref)
  if ← lift checkmain then
    let entry ← Fallible.asks (·.world.search .client cud)
    if (entry.bind Cud.processState).isSome then
      raise "process chunk already loaded"
    match call.chunk with
    | .string _ =>
        match call.newstate with
        | none => raise "cannot create Lua state"
        | some state => processStart cud state call
    | _ => raise "missing process chunk"

/-- `client_close`, called from a script. -/
def clientClose (cud : Addr) (rc : Int) : Stateful Unit := do
  let _ ← lift (deactivate_ cud rc)
  lift (threadFreeAll cud)
  lift (rbufFreeAll cud)
  lift (portCloseAll cud)
  lift (jackClientClose cud)
  lift (callbackUnregister cud)
  processUnregister cud
  lift (Lua.modify (·.modifyEntry .client cud ObjectKind.client.cancelValid))

/-- `ClientClose`. -/
def clientCloseRef (ref : LuaInteger) (rc : Int) : Stateful Unit := do
  let cud ← lift (cudCheck ref)
  clientClose cud rc

end Stateful

/-! ## Runs -/

/-- A call of a function that the process states provide. -/
inductive ProcessCall where
  | processCallback (registration : Registration)
  | bufferSizeCallback (registration : Registration)
  | syncCallback (registration : Registration)
  | timebaseCallback (registration : Registration) (conditional : LuaValue)
  | releaseTimebase (ref : LuaInteger) (released : Except String Unit)

/-- Something that happens in one of the Lua states. -/
inductive StateOperation where
  | main (operation : Operation)
  | processLoad (call : ProcessLoad)
  | process (state : Handle) (call : ProcessCall)

namespace ProcessCall

/-- The callback that is registered, if any. -/
def registers? : ProcessCall → Option (ProcessKind × Registration)
  | processCallback registration => some (.process, registration)
  | bufferSizeCallback registration => some (.bufferSize, registration)
  | syncCallback registration => some (.sync, registration)
  | timebaseCallback registration conditional =>
      some (if conditional.toBoolean then .timebaseConditional
        else .timebase, registration)
  | releaseTimebase .. => none

/-- What the function does. -/
def run (state : Handle) : ProcessCall → Stateful Unit
  | processCallback registration => Stateful.processCallback state registration
  | bufferSizeCallback registration => Stateful.bufferSizeCallback state registration
  | syncCallback registration => Stateful.syncCallback state registration
  | timebaseCallback registration conditional =>
      Stateful.timebaseCallback state registration conditional
  | releaseTimebase ref released => Stateful.releaseTimebase ref released

end ProcessCall

namespace StateOperation

/-- Besides what is permitted in a session, `lua_newstate` returns no state that is
open, a function is called only from a state that is open, and `luaL_ref` returns a
positive reference that is not in use. -/
def permitted : StateOperation → LuaStates → Bool
  | main operation, states => operation.permitted states.world
  | processLoad call, states =>
      call.newstate.all fun state => (states.registries state).isNone
  | process state call, states =>
      (states.registries state).isSome && call.registers?.all fun (kind, registration) =>
        let states := (Stateful.unregister registration.client kind states).2
        0 < registration.ref &&
          (states.registries state).all fun registry => (registry registration.ref).isNone

/-- What happens. -/
def run : StateOperation → Stateful Unit
  | main (.clientClose ref rc) => Stateful.clientCloseRef ref rc
  | main operation => Fallible.modify (·.modifyWorld operation.perform)
  | processLoad call => Stateful.processLoad call
  | process state call => call.run state

end StateOperation

/-- What happens until the program exits. The program crashes when a function of Lua is
called without a state. -/
def luaRun : Machine StateOperation LuaStates := fun operation states =>
  if operation.permitted states then
    match operation.run states with
    | (.error .noState, _) => none
    | (_, after) => some after
  else
    none

end LuaJack
