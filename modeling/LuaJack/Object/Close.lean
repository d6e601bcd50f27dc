import LuaJack.Object.Reference

/-!
# Activation and closing

Activating and deactivating a client changes the static counter of active clients.
Closing a client deactivates it, releases what it owns, database by database, and
cancels its own mark.
-/

namespace LuaJack

/-! ## Activation -/

/-- `jack_activate`: the code that it returns. An active client stays active. -/
def jackActivate (cud : Addr) (rc : Int) : Lua Int := do
  if cud ∈ (← Lua.asks (·.activated)) then
    Lua.modify (·.perform (.jackActivate cud 0))
    return 0
  else
    Lua.modify (·.perform (.jackActivate cud rc))
    if rc = 0 then
      Lua.modify fun world => { world with activated := insert cud world.activated }
    return rc

/-- `jack_deactivate`: the code that it returns. An inactive client stays inactive. -/
def jackDeactivate (cud : Addr) (rc : Int) : Lua Int := do
  if cud ∉ (← Lua.asks (·.activated)) then
    Lua.modify (·.perform (.jackDeactivate cud 0))
    return 0
  else
    Lua.modify (·.perform (.jackDeactivate cud rc))
    if rc = 0 then
      Lua.modify fun world => { world with activated := world.activated.erase cud }
    return rc

/-- `Activate_`. -/
def activate_ (cud : Addr) (rc : Int) : Lua Int := do
  if ← Lua.asks (·.mainThread) then
    Lua.modify fun world => { world with activeClients := world.activeClients + 1 }
    if (← jackActivate cud rc) ≠ 0 then
      Lua.modify fun world => { world with activeClients := world.activeClients - 1 }
      return -1
    else
      return 0
  else
    return -1

/-- `Deactivate_`. -/
def deactivate_ (cud : Addr) (rc : Int) : Lua Int := do
  if ← Lua.asks (·.mainThread) then
    if (← Lua.asks (·.activeClients)) = 0 then
      return -1
    else
      Lua.modify fun world => { world with activeClients := world.activeClients - 1 }
      if (← jackDeactivate cud rc) ≠ 0 then
        Lua.modify fun world => { world with activeClients := world.activeClients + 1 }
        return -1
      else
        return 0
  else
    return -1

/-- `ClientActivate`. -/
def clientActivate (ref : LuaInteger) (rc : Int) : Lua Unit := do
  let cud ← cudCheck ref
  if (← activate_ cud rc) ≠ 0 then
    Lua.error "cannot activate client"

/-- `ClientDeactivate`. -/
def clientDeactivate (ref : LuaInteger) (rc : Int) : Lua Unit := do
  let cud ← cudCheck ref
  if (← deactivate_ cud rc) ≠ 0 then
    Lua.error "cannot deactivate client"

/-! ## Releasing -/

namespace ObjectKind

/-- The client that an object belongs to. -/
def owner : (kind : ObjectKind) → kind.Entry → Option Addr
  | client, _ => none
  | port, pud => some pud.cud
  | ringbuffer, rud => some rud.cud
  | thread, tud => some tud.cud

/-- The object is valid and belongs to a client. -/
def ownedBy (kind : ObjectKind) (cud : Addr) (entry : kind.Entry) : Bool :=
  kind.isValid entry && kind.owner entry = some cud

end ObjectKind

namespace World

/-- Release the valid objects that belong to a client, one after the other, in the
order of their keys, and cancel their marks. -/
def freeAll (world : World) (kind : ObjectKind) (cud : Addr)
    (free : Addr → kind.Entry → Effect) : World :=
  let (table, trace) := (world.table kind).sweep (kind.ownedBy cud) kind.cancelValid
    (fun key entry => [free key entry]) 0 world.trace
  { world.setTable kind table with trace }

/-- `luaL_unref` in the registry of the main state. -/
def luaUnref (world : World) (ref : Ref) : World :=
  { world with registry := Function.update world.registry ref none }

/-- Assign to a member of a client's entry that holds the reference of a callback. -/
def setRef (world : World) (cud : Addr) (kind : CallbackKind) (ref : Ref) : World :=
  world.modifyEntry .client cud fun cud =>
    { cud with refs := Function.update cud.refs kind ref }

/-- `Unregister`: release the reference of a callback. -/
def unregister (world : World) (cud : Addr) (kind : CallbackKind) : World :=
  match world.search .client cud with
  | none => world
  | some entry =>
      if entry.refs kind = noRef then
        world
      else
        (world.luaUnref (entry.refs kind)).setRef cud kind noRef

end World

/-- `thread_free`, up to cancelling the mark. -/
def threadFree (key : Addr) (tud : Tud) : Effect := .threadFree key tud.thread tud.state

/-- `rbuf_free`, up to cancelling the mark. -/
def rbufFree (key : Addr) (rud : Rud) : Effect := .ringbufferFree key rud.rbuf

/-- `port_close`, up to cancelling the mark. -/
def portClose (world : World) (key : Addr) (pud : Pud) : Effect :=
  .jackPortUnregister (some key) (world.client pud.cud) pud.port

/-- `thread_free_all`. -/
def threadFreeAll (cud : Addr) : Lua Unit := Lua.modify (·.freeAll .thread cud threadFree)

/-- `rbuf_free_all`. -/
def rbufFreeAll (cud : Addr) : Lua Unit := Lua.modify (·.freeAll .ringbuffer cud rbufFree)

/-- `port_close_all`. -/
def portCloseAll (cud : Addr) : Lua Unit :=
  Lua.modify fun world => world.freeAll .port cud (portClose world)

/-- `PortUnregister`. -/
def portUnregister (ref : LuaInteger) : Lua Unit := do
  let key ← pudCheck ref
  Lua.modify fun world =>
    match world.search .port key with
    | none => world
    | some pud =>
        (world.perform (portClose world key pud)).modifyEntry
          .port key ObjectKind.port.cancelValid

/-- `callback_unregister`. -/
def callbackUnregister (cud : Addr) : Lua Unit :=
  Lua.modify fun world =>
    [CallbackKind.shutdown, .freewheel, .sampleRate,
      .clientRegistration, .portRegistration,
      .portRename, .portConnect, .graphOrder, .xrun,
      .latency].foldl (·.unregister cud ·) world

/-- `process_unregister`. The references are released in the registry of the process
state. -/
def processUnregister (cud : Addr) : Lua Unit :=
  Lua.modify (·.modifyEntry .client cud fun cud =>
    if cud.processState.isSome then { cud with processRefs := fun _ => noRef } else cud)

/-- `jack_client_close`. -/
def jackClientClose (cud : Addr) : Lua Unit :=
  Lua.modify fun world =>
    { world.perform (.jackClientClose (some cud) (world.client cud)) with
      activated := world.activated.erase cud }

/-- `client_close`, called from a script or, without a Lua state, at exit. -/
def clientClose (cud : Addr) (rc : Int) (script : Bool) : Lua Unit := do
  let _ ← deactivate_ cud rc
  threadFreeAll cud
  rbufFreeAll cud
  portCloseAll cud
  jackClientClose cud
  if script then
    callbackUnregister cud
    processUnregister cud
  Lua.modify (·.modifyEntry .client cud ObjectKind.client.cancelValid)

/-- `ClientClose`. -/
def clientCloseRef (ref : LuaInteger) (rc : Int) : Lua Unit := do
  let cud ← cudCheck ref
  clientClose cud rc true

/-! ## What the calls do -/

section Activation

variable (cud : Addr) (rc : Int) (world : World)

theorem jackActivate_apply : jackActivate cud rc world =
    if cud ∈ world.activated then
      (.ok 0, world.perform (.jackActivate cud 0))
    else if rc = 0 then
      (.ok 0, { world.perform (.jackActivate cud 0) with
        activated := insert cud world.activated })
    else
      (.ok rc, world.perform (.jackActivate cud rc)) := by
  unfold jackActivate
  rw [Lua.asks_bind, Lua.ite_apply]
  split
  · rfl
  · by_cases isZero : rc = 0
    · subst isZero
      rfl
    · rw [if_neg isZero, if_neg isZero]
      rfl

theorem jackDeactivate_apply : jackDeactivate cud rc world =
    if cud ∉ world.activated then
      (.ok 0, world.perform (.jackDeactivate cud 0))
    else if rc = 0 then
      (.ok 0, { world.perform (.jackDeactivate cud 0) with
        activated := world.activated.erase cud })
    else
      (.ok rc, world.perform (.jackDeactivate cud rc)) := by
  unfold jackDeactivate
  rw [Lua.asks_bind, Lua.ite_apply]
  split
  · rfl
  · by_cases isZero : rc = 0
    · subst isZero
      rfl
    · rw [if_neg isZero, if_neg isZero]
      rfl

theorem activate_apply : activate_ cud rc world =
    if world.mainThread then
      if cud ∈ world.activated then
        (.ok 0, { world.perform (.jackActivate cud 0) with
          activeClients := world.activeClients + 1 })
      else if rc = 0 then
        (.ok 0, { world.perform (.jackActivate cud 0) with
          activeClients := world.activeClients + 1
          activated := insert cud world.activated })
      else
        (.ok (-1), world.perform (.jackActivate cud rc))
    else
      (.ok (-1), world) := by
  unfold activate_
  rw [Lua.asks_bind, Lua.ite_apply]
  split
  · rw [Lua.modify_bind, Lua.bind_apply, jackActivate_apply]
    by_cases isActive : cud ∈ world.activated
    · simp only [isActive, if_true]
      rfl
    · by_cases isZero : rc = 0
      · simp only [isActive, isZero, if_true, if_false]
        rfl
      · simp only [isActive, isZero, ne_eq, not_false_eq_true,
          if_true, if_false, Lua.modify_bind, World.perform, BitVec.add_sub_cancel]
        rfl
  · rfl

theorem deactivate_apply : deactivate_ cud rc world =
    if world.mainThread then
      if world.activeClients = 0 then
        (.ok (-1), world)
      else if cud ∉ world.activated then
        (.ok 0, { world.perform (.jackDeactivate cud 0) with
          activeClients := world.activeClients - 1 })
      else if rc = 0 then
        (.ok 0, { world.perform (.jackDeactivate cud 0) with
          activeClients := world.activeClients - 1
          activated := world.activated.erase cud })
      else
        (.ok (-1), world.perform (.jackDeactivate cud rc))
    else
      (.ok (-1), world) := by
  unfold deactivate_
  rw [Lua.asks_bind, Lua.ite_apply]
  split
  · rw [Lua.asks_bind, Lua.ite_apply]
    split
    · rfl
    · rw [Lua.modify_bind, Lua.bind_apply, jackDeactivate_apply]
      by_cases isInactive : cud ∉ world.activated
      · simp only [isInactive, not_false_eq_true, if_true]
        rfl
      · by_cases isZero : rc = 0
        · simp only [isInactive, isZero, if_true, if_false]
          rfl
        · simp only [isInactive, isZero, ne_eq, not_false_eq_true, if_true, if_false,
            Lua.modify_bind, World.perform, BitVec.sub_add_cancel]
          rfl
  · rfl

end Activation

end LuaJack
