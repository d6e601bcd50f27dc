import LuaJack.Atomic.Machine
import LuaJack.Callback.Handler
import LuaJack.Callback.Notify
import LuaJack.Callback.Register

/-!
# Sessions

What may happen until the program exits, one call after the other: the functions
that a script calls, the notifications of JACK, the delivery of events, and the
ends of threads.

The allocator returns no null pointer as a success and no address that is in use,
and `luaL_ref` returns a positive reference that is not in use, perhaps one that has
just been released.
-/

namespace LuaJack

open Atomic

/-- Something that happens in a session. -/
inductive Operation where
  | create (creation : Creation)
  | activate (ref : LuaInteger) (rc : Int)
  | deactivate (ref : LuaInteger) (rc : Int)
  | clientClose (ref : LuaInteger) (rc : Int)
  | portUnregister (ref : LuaInteger)
  | register (kind : CallbackKind) (registration : Registration)
  | notify (ports : PortNames) (notification : Notification) (cud : Addr) (evtNew : Bool)
  /-- `callback_flush` removes an event. What the Lua function does that it calls
  happens next. -/
  | deliver
  /-- `ThreadFunc` ends, normally or with an error message. -/
  | threadEnd (tud : Addr) (error : Option String)

/-- `evt_remove`, as far as the queue is concerned. -/
def World.evtRemove (world : World) : World := { world with queue := world.queue.tail }

/-- The end of `ThreadFunc`. -/
def World.threadEnd (world : World) (tud : Addr) : Option String → World
  | none =>
      world.modifyEntry .thread tud fun tud => { tud with status := .done, state := none }
  | some message =>
      (world.modifyEntry .thread tud fun tud =>
        { tud with status := .failed, state := none }).luajackError message

namespace Operation

/-- The entry that an operation allocates. -/
def allocated : Operation → Option (ObjectKind × Addr)
  | create creation => creation.malloc.map fun key => (creation.kind, key)
  | _ => none

/-- The allocator and `luaL_ref` return what they may return. -/
def permitted : Operation → World → Bool
  | create creation, world => creation.malloc.all fun key =>
      key ≠ 0 && [ObjectKind.client, .port, .ringbuffer, .thread].all fun kind =>
        (world.search kind key).isNone
  | register kind registration, world =>
      let world := world.unregister registration.client kind
      0 < registration.ref && (world.registry registration.ref).isNone
  | _, _ => true

/-- The world after the operation, whether it has succeeded or raised an error. -/
def perform : Operation → World → World
  | create creation, world => (creation.run world).2
  | activate ref rc, world => (clientActivate ref rc world).2
  | deactivate ref rc, world => (clientDeactivate ref rc world).2
  | clientClose ref rc, world => (clientCloseRef ref rc world).2
  | portUnregister ref, world => (LuaJack.portUnregister ref world).2
  | register kind registration, world => (registrationFunction kind registration world).2
  | notify ports notification cud evtNew, world =>
      LuaJack.notify ports notification cud evtNew world
  | deliver, world => world.evtRemove
  | threadEnd tud error, world => world.threadEnd tud error

end Operation

/-- A session. -/
def session : Machine Operation World := fun operation world =>
  if operation.permitted world then some (operation.perform world) else none

theorem session_eq_some {operation : Operation} {before after : World} :
    session operation before = some after ↔
      operation.permitted before = true ∧ operation.perform before = after := by
  simp [session]

end LuaJack
