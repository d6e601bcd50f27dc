import LuaJack.Atomic.Machine
import LuaJack.Basic
import LuaJack.Fallible
import Mathlib.Logic.Function.Basic

/-!
# Calls on port buffers

In the process callback of a client the script retrieves the buffers of ports, and
reads, writes and copies samples or MIDI events.  Every port has a position, which the
calls move.

The ports that exist are audio ports and MIDI ports, each for input or for output;
`InputCustomPort` and `OutputCustomPort` are not compiled.  What the script passes to a
call appears here as the conversions of the Lua API return it: an integer, an optional
integer, or the error that the conversion raises.
-/

namespace LuaJack.Buffer

open Atomic

/-- A `jack_midi_event_t`. -/
structure MidiEvent where
  time : BitVec 32
  buffer : List UInt8
  deriving DecidableEq

/-- The functions of JACK on the buffers of MIDI ports. -/
structure MidiApi (Events : Type) where
  clearBuffer : Events → Events
  getEventCount : Events → BitVec 32
  getLostEventCount : Events → BitVec 32
  maxEventSize : Events → BitVec 64
  eventGet : Events → BitVec 32 → Option MidiEvent
  /-- The buffer after the space that has been reserved is filled. -/
  eventReserve : Events → BitVec 32 → Nat → Option (List UInt8 → Events)
  eventWrite : Events → MidiEvent → Option Events

/-- Buffers that hold a list of events, of a limited size each. -/
def MidiApi.lists (size : BitVec 64) : MidiApi (List MidiEvent) where
  clearBuffer := fun _ => []
  getEventCount := fun events => .ofNat 32 events.length
  getLostEventCount := fun _ => 0
  maxEventSize := fun _ => size
  eventGet := fun events index => events[index.toNat]?
  eventReserve := fun events time length =>
    if length ≤ size.toNat then some fun buffer => events ++ [⟨time, buffer⟩] else none
  eventWrite := fun events event =>
    if event.buffer.length ≤ size.toNat then some (events ++ [event]) else none

/-- The memory of a port buffer. The type of the port says how it is used. -/
structure Memory (Sample Events : Type) where
  samples : Nat → Sample
  events : Events

/-- The flags `LuaJackPortIsAudio` and `LuaJackPortIsMidi`. -/
inductive PortType where
  | audio
  | midi
  deriving DecidableEq, Repr

/-- The flags `JackPortIsInput` and `JackPortIsOutput`. -/
inductive Direction where
  | input
  | output
  deriving DecidableEq, Repr

/-- The parts of a `pud_t` that the calls access, and a record of the samples that they
have accessed in the memory behind `buf`. -/
structure Pud (Sample Events : Type) where
  valid : Bool
  cud : Addr
  type : PortType
  direction : Direction
  buf : Option (Memory Sample Events)
  nframes : BitVec 32
  bufp : BitVec 32
  touched : List Nat

/-- What a call returns to the script. -/
inductive Value (Sample : Type) where
  | nil
  | integer (value : LuaInteger)
  /-- `lua_pushnumber` with an integer. -/
  | float (value : BitVec 32)
  | number (sample : Sample)
  | string (bytes : List UInt8)

/-- What `luaL_checkinteger` returns, or the message of the error that it raises. -/
abbrev CheckInteger := Except String LuaInteger

/-- What `luaL_optinteger` returns unless the argument is missing, or the message of the
error that it raises. -/
abbrev OptInteger := Except String (Option LuaInteger)

variable {Sample Events : Type}

namespace Pud

/-- A port that has just been registered. -/
def new (cud : Addr) (type : PortType) (direction : Direction) : Pud Sample Events where
  valid := true
  cud
  type
  direction
  buf := none
  nframes := 0
  bufp := 0
  touched := []

/-- `Avail`. -/
def avail (pud : Pud Sample Events) : BitVec 32 :=
  if pud.bufp ≤ pud.nframes then pud.nframes - pud.bufp else 0

/-- What `buffer_drop_all` does to a port. -/
def drop (pud : Pud Sample Events) : Pud Sample Events :=
  { pud with buf := none, nframes := 0, bufp := 0, touched := [] }

end Pud

/-- A call on a port. -/
abbrev PudCall (Sample Events : Type) := Fallible (Pud Sample Events) String

/-- `luaL_optinteger`, assigned to an unsigned variable of 32 bits. -/
def optInteger {State : Type} (arg : OptInteger) (default : BitVec 32) :
    Fallible State String (BitVec 32) := fun state =>
  (arg.map fun value => (value.map (BitVec.setWidth 32)).getD default, state)

/-- `CheckBuffer`, and the memory of the buffer. -/
def checkBuffer : PudCall Sample Events (Memory Sample Events) := fun pud =>
  match pud.buf with
  | none => (.error "missing get_buffer() call?", pud)
  | some memory => (.ok memory, pud)

/-- `CheckIsOutput`. -/
def checkIsOutput : PudCall Sample Events Unit := fun pud =>
  (if pud.direction = .output then .ok ()
    else .error "operation allowed only on output ports", pud)

/-- `CheckIsInput`. -/
def checkIsInput : PudCall Sample Events Unit := fun pud =>
  (if pud.direction = .input then .ok () else .error
    "operation allowed only on input ports", pud)

/-- `MidiSpace`. -/
def midiSpace (midi : MidiApi Events) (events : Events) : BitVec 64 :=
  midi.maxEventSize events - 4 - 8

/-- JACK changes the memory of the buffer. -/
def setMemory (memory : Memory Sample Events) : PudCall Sample Events Unit :=
  Fallible.modify fun pud => { pud with buf := some memory }

/-- The rest of `GetBuffer` after `CheckProcess`, with the frames of the cycle and what
`jack_port_get_buffer` returns. -/
def getBuffer (midi : MidiApi Events) (nframes : BitVec 32)
    (buf : Option (Memory Sample Events)) :
    PudCall Sample Events (List (Value Sample)) := do
  if (← Fallible.asks Pud.buf).isSome then
    Fallible.error "buffer already retrieved"
  else
    Fallible.modify fun pud => { pud with nframes, buf }
    match buf with
    | none => Fallible.error "cannot get port buffer"
    | some memory =>
        Fallible.modify fun pud => { pud with bufp := 0 }
        let pud ← Fallible.asks id
        match pud.type, pud.direction with
        | .midi, .output =>
            let events := midi.clearBuffer memory.events
            setMemory { memory with events }
            return [.integer (midiSpace midi events)]
        | .midi, .input =>
            let nframes := midi.getEventCount memory.events
            Fallible.modify fun pud => { pud with nframes }
            return [.integer (nframes.setWidth 64),
              .integer ((midi.getLostEventCount memory.events).setWidth 64)]
        | .audio, _ => return [.integer (nframes.setWidth 64)]

/-! ## Audio ports -/

/-- Store a sample. -/
def store (index : Nat) (sample : Sample) : PudCall Sample Events Unit :=
  Fallible.modify fun pud =>
    { pud with
      buf := pud.buf.map fun memory =>
        { memory with samples := Function.update memory.samples index sample }
      touched := pud.touched ++ [index] }

/-- Load a sample. -/
def load (memory : Memory Sample Events) (index : Nat) :
    PudCall Sample Events Sample := fun pud =>
  (.ok (memory.samples index), { pud with touched := pud.touched ++ [index] })

/-- Change consecutive samples, as `memset` and `memcpy` do. -/
def fill (first count : Nat) (sample : Nat → Sample) : PudCall Sample Events Unit :=
  Fallible.modify fun pud =>
    { pud with
      buf := pud.buf.map fun memory =>
        { memory with
          samples := fun index =>
            if first ≤ index ∧ index < first + count then sample index
              else memory.samples index }
      touched := pud.touched ++ List.range' first count }

/-- Advance the position. -/
def advance (count : BitVec 32) : PudCall Sample Events Unit :=
  Fallible.modify fun pud => { pud with bufp := pud.bufp + count }

/-- The loop of `AudioWrite`. The arguments end with the first one that is no number. -/
def writeLoop (bufp space : BitVec 32) :
    BitVec 32 → List (Option Sample) → PudCall Sample Events (BitVec 32)
  | n, some sample :: args => do
      if n < space then
        store (bufp + n).toNat sample
        writeLoop bufp space (n + 1) args
      else
        return n
  | n, _ => return n

/-- `AudioWrite`. -/
def audioWrite (args : List (Option Sample)) :
    PudCall Sample Events (List (Value Sample)) := do
  let _ ← checkBuffer
  checkIsOutput
  let pud ← Fallible.asks id
  let n ← writeLoop pud.bufp pud.avail 0 args
  advance n
  return [.integer (n.setWidth 64)]

/-- `AudioClear`. -/
def audioClear [Zero Sample] (arg : OptInteger) :
    PudCall Sample Events (List (Value Sample)) := do
  let _ ← checkBuffer
  checkIsOutput
  let pud ← Fallible.asks id
  let space := pud.avail
  let n ← optInteger arg space
  let n := if n < space then n else space
  if 0 < n then
    fill pud.bufp.toNat n.toNat fun _ => 0
  advance n
  return [.float n]

/-- The loop of `AudioRead`, with the number of samples that are left. -/
def readLoop (memory : Memory Sample Events) (bufp : BitVec 32) :
    Nat → BitVec 32 → PudCall Sample Events (List Sample)
  | 0, _ => return []
  | remaining + 1, n => do
      let sample ← load memory (bufp + n).toNat
      let samples ← readLoop memory bufp remaining (n + 1)
      return sample :: samples

/-- `AudioRead`. The Lua stack can grow by some numbers of values and not by others. -/
def audioRead (arg : OptInteger) (checkstack : BitVec 32 → Bool) :
    PudCall Sample Events (List (Value Sample)) := do
  let count ← optInteger arg 1
  let memory ← checkBuffer
  checkIsInput
  let pud ← Fallible.asks id
  let avail := pud.avail
  if avail = 0 then
    return [.nil]
  else
    let count := if count ≤ avail then count else avail
    if checkstack count then
      let samples ← readLoop memory pud.bufp count.toNat 0
      advance count
      return samples.map .number
    else
      Fallible.error "stack overflow (cannot grow Lua stack)"

/-- The position and what is behind it. -/
def reportPosition : PudCall Sample Events (List (Value Sample)) := do
  let pud ← Fallible.asks id
  return [.integer (pud.bufp.setWidth 64), .integer (pud.avail.setWidth 64)]

/-- `AudioSeek`, with what `lua_tointegerx` returns. -/
def audioSeek (arg : Option LuaInteger) :
    PudCall Sample Events (List (Value Sample)) := do
  let _ ← checkBuffer
  let pud ← Fallible.asks id
  match arg with
  | none => reportPosition
  | some pos =>
      if pud.nframes.setWidth 64 < pos then
        Fallible.error "position is out of range"
      else
        Fallible.modify fun pud => { pud with bufp := pos.setWidth 32 }
        reportPosition

/-! ## MIDI ports -/

/-- `MidiWrite`. -/
def midiWrite (midi : MidiApi Events) (time : CheckInteger)
    (data : Except String (List UInt8)) :
    PudCall Sample Events (List (Value Sample)) := do
  let memory ← checkBuffer
  checkIsOutput
  let space := midiSpace midi memory.events
  match time, data with
  | .error message, _ => Fallible.error message
  | .ok _, .error message => Fallible.error message
  | .ok time, .ok data =>
      if data.length = 0 then
        Fallible.error "midi data must have at least one byte"
      else if space.toNat < data.length then
        return []
      else
        match midi.eventReserve memory.events (time.setWidth 32) data.length with
        | none => return []
        | some reserved =>
            let events := reserved data
            setMemory { memory with events }
            return [.integer (midiSpace midi events)]

/-- `MidiRead`. -/
def midiRead (midi : MidiApi Events) (arg : OptInteger) :
    PudCall Sample Events (List (Value Sample)) := do
  let memory ← checkBuffer
  checkIsInput
  let pud ← Fallible.asks id
  let index ← optInteger arg pud.bufp
  if pud.avail = 0 then
    return [.nil]
  else
    advance 1
    match midi.eventGet memory.events index with
    | none => return [.nil]
    | some event => return [.integer (event.time.setWidth 64), .string event.buffer]

/-- `MidiSeek`, with what `lua_tointegerx` returns. -/
def midiSeek (arg : Option LuaInteger) : PudCall Sample Events (List (Value Sample)) := do
  let _ ← checkBuffer
  checkIsInput
  let pud ← Fallible.asks id
  match arg.map (BitVec.setWidth 32) with
  | none => reportPosition
  | some index =>
      if pud.nframes < index then
        Fallible.error "index is out of range"
      else
        Fallible.modify fun pud => { pud with bufp := index }
        reportPosition

/-- `MidiClear`. -/
def midiClear : PudCall Sample Events (List (Value Sample)) :=
  Fallible.error "method not available for this port type"

/-! ## Copies -/

/-- The two ports of a copy. -/
structure Pair (Sample Events : Type) where
  pud : Pud Sample Events
  srcpud : Pud Sample Events

/-- A call on two ports. -/
abbrev PairCall (Sample Events : Type) := Fallible (Pair Sample Events) String

/-- Call a function on the destination. -/
def onPud {α : Type} (call : PudCall Sample Events α) :
    PairCall Sample Events α := fun pair =>
  let (result, pud) := call pair.pud
  (result, { pair with pud })

/-- Call a function on the source. -/
def onSrcpud {α : Type} (call : PudCall Sample Events α) :
    PairCall Sample Events α := fun pair =>
  let (result, srcpud) := call pair.srcpud
  (result, { pair with srcpud })

/-- The checks that `AudioCopy` and `MidiCopy` begin with. -/
def checkPorts (type : PortType) :
    PairCall Sample Events (Memory Sample Events × Memory Sample Events) := do
  let pair ← Fallible.asks id
  if pair.srcpud.type ≠ type then
    Fallible.error "invalid source port type"
  else if pair.srcpud.direction ≠ .input then
    Fallible.error "source port is not an input port"
  else if pair.pud.direction ≠ .output then
    Fallible.error "destination port is not an output port"
  else
    let memory ← onPud checkBuffer
    let srcmemory ← onSrcpud checkBuffer
    return (memory, srcmemory)

/-- `AudioCopy`. -/
def audioCopy (arg : OptInteger) : PairCall Sample Events (List (Value Sample)) := do
  let (_, srcmemory) ← checkPorts .audio
  let pair ← Fallible.asks id
  let dstcount := pair.pud.avail
  let srccount := pair.srcpud.avail
  if dstcount = 0 ∨ srccount = 0 then
    return [.integer 0]
  else
    let countmax := if dstcount < srccount then dstcount else srccount
    let count ← optInteger arg countmax
    let count := if countmax < count then countmax else count
    if 0 < count then
      -- the samples are copied between the starts of the buffers
      onPud (fill 0 count.toNat srcmemory.samples)
      onSrcpud (fill 0 count.toNat srcmemory.samples)
      onSrcpud (advance count)
      onPud (advance count)
    return [.integer (count.setWidth 64)]

/-- The loop of `MidiCopy`, with the number of events that are left. -/
def copyLoop (midi : MidiApi Events) (srcevents : Events) :
    Nat → BitVec 32 → Memory Sample Events → PairCall Sample Events (BitVec 32)
  | 0, i, _ => return i
  | remaining + 1, i, memory => do
      let pair ← Fallible.asks id
      match midi.eventGet srcevents pair.srcpud.bufp with
      | none => return i
      | some event =>
          match midi.eventWrite memory.events event with
          | none => return i
          | some events =>
              onPud (setMemory { memory with events })
              onSrcpud (advance 1)
              copyLoop midi srcevents remaining (i + 1) { memory with events }

/-- `MidiCopy`. -/
def midiCopy (midi : MidiApi Events) (arg : OptInteger) :
    PairCall Sample Events (List (Value Sample)) := do
  let (memory, srcmemory) ← checkPorts .midi
  let pair ← Fallible.asks id
  let countmax := pair.srcpud.avail
  if countmax = 0 then
    return [.integer 0]
  else
    let count ← optInteger arg countmax
    let count := if countmax < count then countmax else count
    let copied ← copyLoop midi srcmemory.events count.toNat 0 memory
    return [.integer (copied.setWidth 64)]

/-! ## Calls of the script -/

/-- The parts of a `cud_t` that the calls access. -/
structure Cud where
  processCallback : Bool
  nframes : BitVec 32
  deriving DecidableEq

/-- The ports and clients that exist. Entries of clients are kept until the program
exits. -/
structure State (Sample Events : Type) where
  puds : Addr → Option (Pud Sample Events)
  cuds : Addr → Cud
  /-- `luajack_exiting`. -/
  exiting : Bool

/-- A call of the script. -/
abbrev Call (Sample Events : Type) := Fallible (State Sample Events) String

/-- `pud_check`. -/
def pudCheck (arg : CheckInteger) :
    Call Sample Events (Addr × Pud Sample Events) := fun state =>
  match arg with
  | .error message => (.error message, state)
  | .ok key =>
      match state.puds key with
      | none => (.error "invalid port reference", state)
      | some pud =>
          (if pud.valid then .ok (key, pud) else .error "invalid port reference", state)

/-- `CheckProcess`, and the frames of the cycle. -/
def checkProcess (pud : Pud Sample Events) :
    Call Sample Events (BitVec 32) := fun state =>
  (if (state.cuds pud.cud).processCallback then .ok (state.cuds pud.cud).nframes
    else .error "function available only in process callback", state)

/-- The rest of a call works on one port. -/
def onPort {α : Type} (key : Addr) (pud : Pud Sample Events)
    (call : PudCall Sample Events α) :
    Call Sample Events α := fun state =>
  let (result, pud) := call pud
  (result, { state with puds := Function.update state.puds key (some pud) })

/-- The rest of a call works on two ports. -/
def onPorts {α : Type} (key srckey : Addr) (pair : Pair Sample Events)
    (call : PairCall Sample Events α) : Call Sample Events α := fun state =>
  let (result, pair) := call pair
  (result, { state with
    puds := Function.update (Function.update state.puds key (some pair.pud)) srckey
      (some pair.srcpud) })

/-- `SWITCH`, with the functions for the two types of ports. -/
def switch {α : Type} (port : CheckInteger)
    (audio midi : Addr → Pud Sample Events → Call Sample Events α) :
    Call Sample Events α := do
  let (key, pud) ← pudCheck port
  let _ ← checkProcess pud
  match pud.type with
  | .audio => audio key pud
  | .midi => midi key pud

/-- The calls, with their arguments and with what other functions return in their
course. -/
inductive Operation (Sample Events : Type) where
  | getBuffer (port : CheckInteger) (buf : Option (Memory Sample Events))
  | write (port : CheckInteger) (args : List (Option Sample)) (time : CheckInteger)
      (data : Except String (List UInt8))
  | clear (port : CheckInteger) (count : OptInteger)
  | read (port : CheckInteger) (count : OptInteger) (checkstack : BitVec 32 → Bool)
  | seek (port : CheckInteger) (position : Option LuaInteger)
  | copy (port source : CheckInteger) (count : OptInteger)

/-- `GetBuffer`, `SwitchWrite`, `SwitchClear`, `SwitchRead`, `SwitchSeek` and
`SwitchCopy`. -/
def Operation.call [Zero Sample] (midi : MidiApi Events) :
    Operation Sample Events → Call Sample Events (List (Value Sample))
  | getBuffer port buf => do
      let (key, pud) ← pudCheck port
      let nframes ← checkProcess pud
      onPort key pud (Buffer.getBuffer midi nframes buf)
  | write port args time data =>
      switch port (fun key pud => onPort key pud (audioWrite args))
        fun key pud => onPort key pud (midiWrite midi time data)
  | clear port count =>
      switch port (fun key pud => onPort key pud (audioClear count))
        fun key pud => onPort key pud midiClear
  | read port count checkstack =>
      switch port (fun key pud => onPort key pud (audioRead count checkstack))
        fun key pud => onPort key pud (midiRead midi count)
  | seek port position =>
      switch port (fun key pud => onPort key pud (audioSeek position))
        fun key pud => onPort key pud (midiSeek position)
  | copy port source count =>
      switch port
        (fun key pud => do
          let (srckey, srcpud) ← pudCheck source
          onPorts key srckey ⟨pud, srcpud⟩ (audioCopy count))
        fun key pud => do
          let (srckey, srcpud) ← pudCheck source
          onPorts key srckey ⟨pud, srcpud⟩ (midiCopy midi count)

/-! ## Cycles -/

/-- What happens to ports and clients. -/
inductive Action (Sample Events : Type) where
  /-- A port is registered. -/
  | register (key cud : Addr) (type : PortType) (direction : Direction)
  /-- A port is closed. -/
  | close (key : Addr)
  /-- JACK calls the process callback of a client. -/
  | enter (cud : Addr) (nframes : BitVec 32)
  | call (operation : Operation Sample Events)
  /-- The process callback returns. -/
  | leave (cud : Addr)
  /-- The process callback raises an error. -/
  | abort (cud : Addr)

/-- Registering and closing of ports, and the calls in process callbacks, whose entry
and exit are those of `Process`. Clients may be inside their callbacks at the same
time. -/
def cycles [Zero Sample] (midi : MidiApi Events) :
    Machine (Action Sample Events) (State Sample Events)
  | .register key cud type direction, state =>
      if (state.puds key).isNone then
        some { state with
          puds := Function.update state.puds key (some (.new cud type direction)) }
      else
        none
  | .close key, state =>
      some { state with
        puds := Function.update state.puds key
          ((state.puds key).map fun pud => { pud with valid := false }) }
  | .enter cud nframes, state =>
      if !state.exiting && !(state.cuds cud).processCallback then
        some { state with cuds := Function.update state.cuds cud ⟨true, nframes⟩ }
      else
        none
  | .call operation, state => some (operation.call midi state).2
  | .leave cud, state =>
      if (state.cuds cud).processCallback then
        some { state with
          puds := fun key => (state.puds key).map fun pud =>
            if pud.cud = cud then pud.drop else pud
          cuds := Function.update state.cuds cud ⟨false, 0⟩ }
      else
        none
  | .abort cud, state =>
      if (state.cuds cud).processCallback then some { state with exiting :=
        true } else none

/-- No port has been registered. -/
def State.initial : State Sample Events where
  puds := fun _ => none
  cuds := fun _ => ⟨false, 0⟩
  exiting := false

end LuaJack.Buffer
