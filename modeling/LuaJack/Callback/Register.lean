import LuaJack.Object.Close

/-!
# Registration of callbacks

A callback is registered by storing a reference to the Lua function in the member
of the client's entry that is named after the kind of the callback.
-/

namespace LuaJack

/-- `luaL_ref` in the registry of the main state, with the reference that it returns. -/
def World.luaRef (world : World) (ref : Ref) (function : LuaFunction) : World :=
  { world with registry := Function.update world.registry ref (some function) }

/-- A call of one of the functions that register a callback. -/
structure Registration where
  client : LuaInteger
  /-- The second argument, if it is a function. -/
  function : Option LuaFunction
  /-- What `luaL_ref` returns. -/
  ref : Ref
  /-- What the function returns that sets the callback in JACK. -/
  set : Int

/-- `SetX`: `SetShutdown` always returns 0. -/
def setCallback (kind : CallbackKind) (registration : Registration) : Int :=
  if kind = .shutdown then 0 else registration.set

/-- `Register`. -/
def register (kind : CallbackKind) (cud : Addr) (function : LuaFunction)
    (registration : Registration) : Lua Unit := do
  Lua.modify (·.unregister cud kind)
  Lua.modify fun world => (world.luaRef registration.ref function).setRef
    cud kind registration.ref
  if setCallback kind registration ≠ 0 then
    Lua.modify (·.unregister cud kind)
    Lua.error "cannot register callback"

/-- `REGISTRATION_FUNCTION`. -/
def registrationFunction (kind : CallbackKind) (registration : Registration) :
    Lua Unit := do
  let cud ← cudCheck registration.client
  match registration.function with
  | none => Lua.error "bad argument #2 (function expected)"
  | some function => register kind cud function registration

end LuaJack
