import LuaJack.Images
import LuaJack.Object.World

/-!
# Creation of objects

The functions that create clients, ports, ringbuffers and threads, and return
to Lua the integers by which these are known there.
-/

namespace LuaJack

/-- Return what a library function returns, or raise its error. -/
def Lua.ofExcept {α : Type} : Except String α → Lua α
  | .ok value => return value
  | .error message => Lua.error message

/-- `luajack_checkmain`: whether the function may go on. If not, it returns no value. -/
def checkmain : Lua Bool := do
  if ← Lua.asks (·.mainThread) then
    return true
  else
    Lua.modify (·.luajackError "function can be called only in main thread")
    return false

/-- `luajack_checkcreate`: whether the function may go on. -/
def checkcreate : Lua Bool := do
  if ← checkmain then
    if (← Lua.asks (·.activeClients)) > 0 then
      Lua.modify (·.luajackError "operation not allowed with active clients")
      return false
    else
      return true
  else
    return false

/-! ## Clients -/

/-- The arguments of `jack_client_open`. -/
structure ClientRequest where
  name : CString
  options : BitVec 32
  serverName : Option CString
  sessionId : Option CString

/-- A call of `client_open`: its arguments, and the answers that it receives. -/
structure ClientOpen where
  name : LuaValue
  /-- The fields of the table of options, if it is one. -/
  options : Option (String → LuaValue)
  /-- A client, or the status that says why there is none. -/
  jackClientOpen : ClientRequest → Except (BitVec 32) Handle
  malloc : Option Addr
  sampleRate : BitVec 32
  bufferSize : BitVec 32

/-- A call without options that succeeds, with the entry at a given address. -/
def ClientOpen.plain (key : Addr) : ClientOpen where
  name := .string (chars "client")
  options := none
  jackClientOpen := fun _ => .ok 0x7f0000001000
  malloc := some key
  sampleRate := 48000
  bufferSize := 1024

/-- The part of `ClientOpen` that reads the options. -/
def clientRequest (name : CString) :
    Option (String → LuaValue) → Except String ClientRequest
  | none => return { name, options := 0, serverName := none, sessionId := none }
  | some field => do
      let useExactName := if (field "use_exact_name").toBoolean then 0x2 else 0
      let noStartServer := if (field "no_start_server").toBoolean then 0x1 else 0
      let serverName ← (field "server_name").optString (-1)
      let sessionId ← (field "session_id").optString (-1)
      let options := useExactName ||| noStartServer |||
        (if serverName.isSome then 0x4 else 0) ||| (if sessionId.isSome then 0x20 else 0)
      return { name, options, serverName, sessionId }

/-- `ClientOpen`. -/
def clientOpen (call : ClientOpen) : Lua (Option LuaInteger) := do
  if ← checkcreate then
    match call.name.toString? with
    | none => Lua.error "bad argument #1 (string expected)"
    | some name =>
        let request ← Lua.ofExcept (clientRequest name call.options)
        match call.jackClientOpen request with
        | .error status => Lua.error s!"cannot create client ({clientPushstatus status})"
        | .ok client =>
            match ← new .client call.malloc Cud.new with
            | none =>
                Lua.modify (·.perform (.jackClientClose none client))
                Lua.error "cannot create userdata for client"
            | some key =>
                Lua.modify (·.modifyEntry .client key fun cud => { cud with
                  client, sampleRate := call.sampleRate, bufferSize := call.bufferSize })
                return some key
  else
    return none

/-- The JACK client of an entry. -/
def World.client (world : World) (cud : Addr) : Handle :=
  ((world.search .client cud).map Cud.client).getD 0

/-! ## Ports -/

/-- `JackPortIsInput`. -/
def jackPortIsInput : BitVec 64 := 0x1

/-- `JackPortIsOutput`. -/
def jackPortIsOutput : BitVec 64 := 0x2

/-- `JackPortIsPhysical`. -/
def jackPortIsPhysical : BitVec 64 := 0x4

/-- `JackPortCanMonitor`. -/
def jackPortCanMonitor : BitVec 64 := 0x8

/-- `JackPortIsTerminal`. -/
def jackPortIsTerminal : BitVec 64 := 0x10

/-- `LuaJackPortIsAudio`. -/
def luaJackPortIsAudio : BitVec 64 := 0x10000000

/-- `LuaJackPortIsMidi`. -/
def luaJackPortIsMidi : BitVec 64 := 0x20000000

/-- `LuaJackPortFlagsMask`. -/
def luaJackPortFlagsMask : BitVec 32 := 0xf0000000

/-- The arguments of `jack_port_register`. -/
structure PortRequest where
  client : Handle
  name : CString
  type : String
  flags : BitVec 64
  bufferSize : BitVec 64

/-- A call of one of the functions that register a port. -/
structure PortRegister where
  ref : LuaInteger
  name : LuaValue
  options : Option (String → LuaValue)
  jackPortRegister : PortRequest → Option Handle
  malloc : Option Addr

/-- The part of `PortRegister` that reads the options. -/
def portFlags (flags : BitVec 64) : Option (String → LuaValue) → BitVec 64
  | none => flags
  | some field =>
      flags ||| (if (field "is_physical").toBoolean then jackPortIsPhysical else 0) |||
        (if (field "can_monitor").toBoolean then jackPortCanMonitor else 0) |||
        (if (field "is_terminal").toBoolean then jackPortIsTerminal else 0)

/-- The part of `PortRegister` that prepares the registration in JACK. -/
def portRequest (client : Handle) (name : CString) (flags : BitVec 64)
    (options : Option (String → LuaValue)) : PortRequest where
  client
  name
  type :=
    if flags &&& luaJackPortIsAudio ≠ 0 then "32 bit float mono audio"
      else "8 bit raw midi"
  flags := portFlags flags options &&& (~~~luaJackPortFlagsMask).setWidth 64
  bufferSize := 0

/-- `PortRegister`. Ports of a custom type cannot be reached from Lua: the functions
that would register them are disabled. -/
def portRegister (flags : BitVec 64) (call : PortRegister) : Lua (Option LuaInteger) := do
  if ← checkcreate then
    let cud ← cudCheck call.ref
    let name ← Lua.ofExcept (call.name.checkString 2)
    let client ← Lua.asks (·.client cud)
    match call.jackPortRegister (portRequest client name flags call.options) with
    | none => Lua.error "cannot register port"
    | some port =>
        match ← new .port call.malloc (Pud.new cud) with
        | none =>
            Lua.modify (·.perform (.jackPortUnregister none client port))
            Lua.error "cannot create userdata for port"
        | some key =>
            Lua.modify (·.modifyEntry .port key fun pud => { pud with
              port
              flags := portFlags flags call.options
              samplesize := 0
              buf := none
              nframes := 0
              bufp := 0 })
            return some key
  else
    return none

/-- `InputAudioPort`. -/
def inputAudioPort : PortRegister → Lua (Option LuaInteger) :=
  portRegister (jackPortIsInput ||| luaJackPortIsAudio)

/-- `OutputAudioPort`. -/
def outputAudioPort : PortRegister → Lua (Option LuaInteger) :=
  portRegister (jackPortIsOutput ||| luaJackPortIsAudio)

/-- `InputMidiPort`. -/
def inputMidiPort : PortRegister → Lua (Option LuaInteger) :=
  portRegister (jackPortIsInput ||| luaJackPortIsMidi)

/-- `OutputMidiPort`. -/
def outputMidiPort : PortRegister → Lua (Option LuaInteger) :=
  portRegister (jackPortIsOutput ||| luaJackPortIsMidi)

/-! ## Ringbuffers -/

/-- A call of `ringbuffer`. -/
structure RingbufferCall where
  ref : LuaInteger
  /-- What `luaL_checkinteger` makes of the size. -/
  size : Except String LuaInteger
  mlock : LuaValue
  usepipe : LuaValue
  syncpipeNew : Option (Int × Int)
  malloc : Option Addr
  /-- The answer to a size and the wish to lock the memory. -/
  ringbufferNew : BitVec 64 → Bool → Option Handle

/-- A call without a pipe that succeeds, with the entry at a given address. -/
def RingbufferCall.plain (ref : LuaInteger) (key : Addr) : RingbufferCall where
  ref
  size := .ok 4096
  mlock := .boolean false
  usepipe := .boolean false
  syncpipeNew := none
  malloc := some key
  ringbufferNew := fun _ _ => some 0x7f0000002000

/-- The pipe of a new ringbuffer. -/
def rbufPipe (call : RingbufferCall) : Lua (Int × Int) :=
  if call.usepipe.toBoolean then
    match call.syncpipeNew with
    | none => Lua.error "cannot create pipe"
    | some pipefd => return pipefd
  else
    return (-1, -1)

/-- `rbuf_new`: an `int`. -/
def rbufNew (cud : Addr) (size : BitVec 64) (call : RingbufferCall) :
    Lua (BitVec 32) := do
  let pipefd ← rbufPipe call
  match ← new .ringbuffer call.malloc Rud.new with
  | none => Lua.error "cannot create userdata"
  | some key =>
      let rbuf := call.ringbufferNew size call.mlock.toBoolean
      Lua.modify (·.modifyEntry .ringbuffer key fun rud => { rud with cud, pipefd, rbuf })
      match rbuf with
      | none =>
          if call.usepipe.toBoolean then
            Lua.modify (·.perform (.closePipe pipefd))
          Lua.modify (·.modifyEntry .ringbuffer key ObjectKind.ringbuffer.cancelValid)
          Lua.error "cannot create ringbuffer"
      | some _ => return key.setWidth 32

/-- `Ringbuffer`. -/
def ringbuffer (call : RingbufferCall) : Lua (Option LuaInteger) := do
  if ← checkcreate then
    let cud ← cudCheck call.ref
    let size ← Lua.ofExcept call.size
    let key ← rbufNew cud size call
    return some (key.signExtend 64)
  else
    return none

/-! ## Threads -/

/-- A call of `thread_load` or `thread_loadfile`. -/
structure ThreadCreate where
  ref : LuaInteger
  script : LuaValue
  arguments : List LuaValue
  newstate : Option Handle
  /-- Whether the script can be found and loaded. -/
  loadchunk : Except String Unit
  malloc : Option Addr
  mutexInit : Bool
  condInit : Bool
  /-- The thread, or the nonzero code that `jack_client_create_thread` returns. -/
  createThread : Except Int Handle

/-- `luajack_loadchunk`, which closes the state when it fails. -/
def loadchunk (state : Handle) (call : ThreadCreate) : Lua Unit := do
  match call.loadchunk with
  | .ok _ => return ()
  | .error message =>
      Lua.modify (·.perform (.luaClose state))
      Lua.error message

/-- The loop of `luajack_xmove`, from the argument with number `n` on. -/
def xmove (n : Nat) : List LuaValue → Except String Unit
  | [] => return ()
  | .other typename :: _ => throw s!"invalid type '{typename}' of argument #{n} "
  | _ :: arguments => xmove (n + 1) arguments

/-- The part of `ThreadCreate_` behind `tud_new`. -/
def threadStart (key : Addr) (state : Handle) (call : ThreadCreate) : Lua LuaInteger := do
  if call.mutexInit then
    if call.condInit then
      match call.createThread with
      | .error rc =>
          Lua.modify (·.perform (.luaClose state))
          Lua.error s!"jack_client_create_thread returned {rc}"
      | .ok thread =>
          Lua.modify (·.modifyEntry .thread key fun tud =>
            { tud with thread, status := .ready })
          return key
    else
      Lua.modify (·.perform (.luaClose state))
      Lua.error "cannot initialize condition"
  else
    Lua.modify (·.perform (.luaClose state))
    Lua.error "cannot initialize mutex"

/-- `ThreadCreate_`. -/
def threadCreate (call : ThreadCreate) : Lua (Option LuaInteger) := do
  if ← checkcreate then
    let cud ← cudCheck call.ref
    match call.script with
    | .string _ =>
        match call.newstate with
        | none => Lua.error "cannot create Lua state for thread"
        | some state =>
            loadchunk state call
            Lua.ofExcept (xmove 1 call.arguments)
            match ← new .thread call.malloc Tud.new with
            | none =>
                Lua.modify (·.perform (.luaClose state))
                Lua.error "cannot create userdata for thread"
            | some key =>
                Lua.modify
                  (·.modifyEntry .thread key fun tud =>
                    { tud with cud, state := some state })
                return some (← threadStart key state call)
    | _ => Lua.error "missing thread script"
  else
    return none

end LuaJack
