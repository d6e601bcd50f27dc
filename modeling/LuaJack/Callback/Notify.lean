import LuaJack.Images
import LuaJack.Object.World

/-!
# Notifications

The functions that JACK calls outside the real-time thread.  They encode what
they are called with into an event and queue that for the main thread.
-/

namespace LuaJack

/-- What JACK notifies a client of, with the arguments of the C callback. -/
inductive Notification where
  | sampleRate (nframes : BitVec 32)
  | xrun
  | graphOrder
  | freewheel (starting : BitVec 32)
  | clientRegistration (name : CString) (reg : BitVec 32)
  | portRegistration (portid : BitVec 32) (reg : BitVec 32)
  | portRename (portid : BitVec 32) (oldName newName : CString)
  | portConnect (a b : BitVec 32) (connect : BitVec 32)
  | shutdown (code : BitVec 32) (reason : CString)
  | latency (mode : BitVec 32)
  | session (event : SessionEvent)
  deriving DecidableEq, Repr

/-- The kind of callback that a notification is for. -/
def Notification.kind : Notification → CallbackKind
  | sampleRate .. => .sampleRate
  | xrun => .xrun
  | graphOrder => .graphOrder
  | freewheel .. => .freewheel
  | clientRegistration .. => .clientRegistration
  | portRegistration .. => .portRegistration
  | portRename .. => .portRename
  | portConnect .. => .portConnect
  | shutdown .. => .shutdown
  | latency .. => .latency
  | session .. => .session

/-- `MAX_ARG_LEN`. -/
def maxArgLen : Nat := 1024

/-- The full name of a port, from `jack_port_by_id` and `jack_port_name`. -/
abbrev PortNames := BitVec 32 → Option CString

/-- The name that an event contains for a port. -/
def PortNames.name (ports : PortNames) (portid : BitVec 32) : CString :=
  (ports portid).getD (chars "???")

/-- A pre-callback, given the entry of the client and whether memory for an event can be
allocated. -/
abbrev Precallback := (cud : Addr) → (evtNew : Bool) → World → World

namespace Precallback

/-- `Copy`: the copied string, and the world in which a long string is an error. -/
def copy (src : CString) (world : World) : CString × World :=
  let world :=
    if maxArgLen ≤ src.length then world.luajackError unexpectedError else world
  (src.take maxArgLen, world)

/-- `BEGIN` and `END` around the code that stores the arguments. -/
def precallback (kind : CallbackKind) (store : Evt → World → Evt × World) : Precallback :=
  fun cud evtNew world =>
    match world.search .client cud with
    | none => world
    | some entry =>
        if !entry.valid then
          world
        else if entry.refs kind = noRef then
          world
        else if !evtNew then
          world.luajackError "cannot allocate callback event"
        else
          let (evt, world) := store { clientKey := cud, type := kind.code } world
          { world with queue := world.queue ++ [evt] }

/-- `SampleRate`. -/
def sampleRate (nframes : BitVec 32) : Precallback := fun cud =>
  precallback .sampleRate (fun evt world => ({ evt with nframes },
    world.modifyEntry .client cud fun cud => { cud with sampleRate := nframes })) cud

/-- `Xrun`. -/
def xrun : Precallback := precallback .xrun fun evt world => (evt, world)

/-- `GraphOrder`. -/
def graphOrder : Precallback := precallback .graphOrder fun evt world => (evt, world)

/-- `Freewheel_`: the argument goes to the member for the latency mode. -/
def freewheel (starting : BitVec 32) : Precallback :=
  precallback .freewheel fun evt world => ({ evt with mode := starting }, world)

/-- `ClientRegistration_`. -/
def clientRegistration (name : CString) (reg : BitVec 32) : Precallback :=
  precallback .clientRegistration fun evt world =>
    let (arg1, world) := copy name world
    ({ evt with arg1 := some arg1, op := reg }, world)

/-- `PortRegistration_`. -/
def portRegistration (ports : PortNames) (portid reg : BitVec 32) : Precallback :=
  precallback .portRegistration fun evt world =>
    let (arg1, world) := copy (ports.name portid) world
    ({ evt with arg1 := some arg1, op := reg }, world)

/-- `PortRename_`. -/
def portRename (oldName newName : CString) : Precallback :=
  precallback .portRename fun evt world =>
    let (arg1, world) := copy oldName world
    let (arg2, world) := copy newName world
    ({ evt with arg1 := some arg1, arg2 := some arg2 }, world)

/-- `PortConnect_`. -/
def portConnect (ports : PortNames) (a b connect : BitVec 32) : Precallback :=
  precallback .portConnect fun evt world =>
    let (arg1, world) := copy (ports.name a) world
    let (arg2, world) := copy (ports.name b) world
    ({ evt with arg1 := some arg1, arg2 := some arg2, op := connect }, world)

/-- `Shutdown_`. -/
def shutdown (code : BitVec 32) (reason : CString) : Precallback :=
  precallback .shutdown fun evt world =>
    let (arg1, world) := copy reason world
    ({ evt with code, arg1 := some arg1 }, world)

/-- `Latency_`. -/
def latency (mode : BitVec 32) : Precallback :=
  precallback .latency fun evt world => ({ evt with mode }, world)

/-- `Session_`. -/
def session (event : SessionEvent) : Precallback :=
  precallback .session fun evt world => ({ evt with sessionEvent := some event }, world)

end Precallback

/-- The pre-callback that JACK calls for a notification. -/
def notify (ports : PortNames) : Notification → Precallback
  | .sampleRate nframes => Precallback.sampleRate nframes
  | .xrun => Precallback.xrun
  | .graphOrder => Precallback.graphOrder
  | .freewheel starting => Precallback.freewheel starting
  | .clientRegistration name reg => Precallback.clientRegistration name reg
  | .portRegistration portid reg => Precallback.portRegistration ports portid reg
  | .portRename _ oldName newName => Precallback.portRename oldName newName
  | .portConnect a b connect => Precallback.portConnect ports a b connect
  | .shutdown code reason => Precallback.shutdown code reason
  | .latency mode => Precallback.latency mode
  | .session event => Precallback.session event

/-- What the pre-callbacks store in an event, and what else they do. -/
def Notification.store (ports : PortNames) (cud : Addr) :
    Notification → Evt → World → Evt × World
  | sampleRate nframes, evt, world => ({ evt with nframes },
      world.modifyEntry .client cud fun cud => { cud with sampleRate := nframes })
  | xrun, evt, world | graphOrder, evt, world => (evt, world)
  | freewheel starting, evt, world => ({ evt with mode := starting }, world)
  | clientRegistration name reg, evt, world =>
      let (arg1, world) := Precallback.copy name world
      ({ evt with arg1 := some arg1, op := reg }, world)
  | portRegistration portid reg, evt, world =>
      let (arg1, world) := Precallback.copy (ports.name portid) world
      ({ evt with arg1 := some arg1, op := reg }, world)
  | portRename _ oldName newName, evt, world =>
      let (arg1, world) := Precallback.copy oldName world
      let (arg2, world) := Precallback.copy newName world
      ({ evt with arg1 := some arg1, arg2 := some arg2 }, world)
  | portConnect a b connect, evt, world =>
      let (arg1, world) := Precallback.copy (ports.name a) world
      let (arg2, world) := Precallback.copy (ports.name b) world
      ({ evt with arg1 := some arg1, arg2 := some arg2, op := connect }, world)
  | shutdown code reason, evt, world =>
      let (arg1, world) := Precallback.copy reason world
      ({ evt with code, arg1 := some arg1 }, world)
  | latency mode, evt, world => ({ evt with mode }, world)
  | session event, evt, world => ({ evt with sessionEvent := some event }, world)

/-- All pre-callbacks differ only in what they store, and do that for their own kind. -/
theorem notify_eq (ports : PortNames) (notification : Notification) (cud : Addr) :
    notify ports notification cud =
      Precallback.precallback notification.kind (notification.store ports cud) cud := by
  cases notification <;> rfl

end LuaJack
