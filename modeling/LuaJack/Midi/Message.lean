import Mathlib.Data.List.Basic
import Mathlib.Tactic.Common

/-!
# MIDI messages

The encoders and the decoder of `midi.lua`.  A message is a binary string that
starts with a status byte; a number in it is an unsigned byte.
-/

namespace LuaJack.Midi

/-- A MIDI message, a binary string. -/
abbrev Message := List UInt8

/-- The decoded parameters of a message, by the function that decodes them. -/
inductive Parameters where
  | kv (key velocity : Int)
  | kp (key pressure : Int)
  | cc (number value : Int) (controller : Option String)
  | n (number : Int)
  | p (pressure : Int)
  | v (lsb msb value : Int)
  | mtcqf (nnn dddd value : Int)
  deriving DecidableEq, Repr

/-- `assertf`: raise an error unless the condition holds. -/
def assertf (condition : Prop) [Decidable condition] (errmsg : String) :
    Except String PUnit :=
  if condition then .ok ⟨⟩ else .error errmsg

/-- The low seven bits of a fourteen-bit number and the bits above them. -/
def numtolsbmsb (num : Int) : Int × Int := (num % 128, num / 128)

/-- The number with the given seven low bits and the given bits above them. -/
def lsbmsbtonum (lsb msb : Int) : Int := msb * 128 + lsb

/-- The calls of `definecontroller`. -/
def controllers : List (Int × String) :=
  [(0, "bank select (coarse)"), (1, "modulation wheel (coarse)"),
   (2, "breath controller (coarse)"), (4, "foot pedal (coarse)"),
   (5, "portamento time (coarse)"), (6, "data entry (coarse)"),
   (7, "volume (coarse)"), (8, "balance (coarse)"),
   (10, "pan position (coarse)"), (11, "expression (coarse)"),
   (12, "effect control 1 (coarse)"), (13, "effect control 2 (coarse)"),
   (16, "general purpose slider 1"), (17, "general purpose slider 2"),
   (18, "general purpose slider 3"), (19, "general purpose slider 4"),
   (32, "bank select (fine)"), (33, "modulation wheel (fine)"),
   (34, "breath controller (fine)"), (36, "foot pedal (fine)"),
   (37, "portamento time (fine)"), (38, "data entry (fine)"),
   (39, "volume (fine)"), (40, "balance (fine)"),
   (42, "pan position (fine)"), (43, "expression (fine)"),
   (44, "effect control 1 (fine)"), (45, "effect control 2 (fine)"),
   (64, "hold pedal"), (65, "portamento"),
   (66, "sustenuto pedal"), (67, "soft pedal"),
   (68, "legato pedal"), (69, "hold 2 pedal"),
   (70, "sound variation"), (71, "sound timbre"),
   (72, "sound release time"), (73, "sound attack time"),
   (74, "sound brightness"), (75, "sound control 6"),
   (76, "sound control 7"), (77, "sound control 8"),
   (78, "sound control 9"), (79, "sound control 10"),
   (80, "general purpose button 1"), (81, "general purpose button 2"),
   (82, "general purpose button 3"), (83, "general purpose button 4"),
   (91, "effects level"), (92, "tremulo level"),
   (93, "chorus level"), (94, "celeste level"),
   (95, "phaser level"), (96, "data button increment"),
   (97, "data button decrement"), (98, "non-registered parameter (fine)"),
   (99, "non-registered parameter (coarse)"), (100, "registered parameter (fine)"),
   (101, "registered parameter (coarse)"), (120, "all sound off"),
   (121, "all controllers off"), (122, "local keyboard"),
   (123, "all notes off"), (124, "omni mode off"),
   (125, "omni mode on"), (126, "mono operation"),
   (127, "poly operation")]

/-- `controller_to_number[name]`. -/
def controllerToNumber (name : String) : Option Int :=
  (controllers.find? fun entry => entry.2 = name).map Prod.fst

/-- `number_to_controller[number]`. -/
def numberToController (number : Int) : Option String :=
  (controllers.find? fun entry => entry.1 = number).map Prod.snd

/-! ## Decoding -/

/-- A parameters decoding function: it returns a table or nothing, or `nil` and a
message. -/
abbrev Decoder := Message → Except String (Option Parameters)

/-- `decode_notdefined`. -/
def decodeNotdefined : Decoder := fun _ =>
  .error "parameters decoder not defined for this midi message type"

/-- `decode_nodata`. -/
def decodeNodata : Decoder := fun _ => .ok none

/-- Decode the byte after the status. -/
def decodeOne (par : Int → Parameters) : Decoder
  | _ :: byte :: _ => .ok (some (par byte.toNat))
  | _ => .error "message too short"

/-- Decode the two bytes after the status. -/
def decodeTwo (par : Int → Int → Parameters) : Decoder
  | _ :: first :: second :: _ => .ok (some (par first.toNat second.toNat))
  | _ => .error "message too short"

/-- `decode_kv`. -/
def decodeKv : Decoder := decodeTwo .kv

/-- `decode_kp`. -/
def decodeKp : Decoder := decodeTwo .kp

/-- `decode_cc`. -/
def decodeCc :
    Decoder := decodeTwo fun number value => .cc number value (numberToController number)

/-- `decode_n`. -/
def decodeN : Decoder := decodeOne fun byte => .n (byte + 1)

/-- `decode_p`. -/
def decodeP : Decoder := decodeOne .p

/-- `decode_v`. -/
def decodeV : Decoder := decodeTwo fun lsb msb => .v lsb msb (lsbmsbtonum lsb msb)

/-- `decode_mtcqf`. -/
def decodeMtcqf : Decoder := decodeOne fun val => .mtcqf (val / 16) (val % 16) val

/-- The arguments of a call of `definemessage`. -/
structure Definition where
  val : Int
  name : String
  dec : Option Decoder

/-- The calls of `definemessage`. -/
def messages : List Definition :=
  [⟨0x80, "note off", some decodeKv⟩,
   ⟨0x90, "note on", some decodeKv⟩,
   ⟨0xa0, "aftertouch", some decodeKp⟩,
   ⟨0xb0, "control change", some decodeCc⟩,
   ⟨0xc0, "program change", some decodeN⟩,
   ⟨0xd0, "channel pressure", some decodeP⟩,
   ⟨0xe0, "pitch wheel", some decodeV⟩,
   ⟨0xf0, "system exclusive", none⟩,
   ⟨0xf1, "mtc quarter frame", some decodeMtcqf⟩,
   ⟨0xf2, "song position", some decodeV⟩,
   ⟨0xf3, "song select", some decodeN⟩,
   ⟨0xf6, "tune request", some decodeNodata⟩,
   ⟨0xf7, "end of exclusive", some decodeNodata⟩,
   ⟨0xf8, "clock", some decodeNodata⟩,
   ⟨0xfa, "start", some decodeNodata⟩,
   ⟨0xfb, "continue", some decodeNodata⟩,
   ⟨0xfc, "stop", some decodeNodata⟩,
   ⟨0xfe, "active sensing", some decodeNodata⟩,
   ⟨0xff, "reset", some decodeNodata⟩]

/-- `type_to_name[t]`. -/
def typeToName (t : Int) : Option String :=
  (messages.find? fun message => message.val = t).map Definition.name

/-- `decodefunc[t]`. -/
def decodefunc (t : Int) : Option Decoder :=
  (messages.find? fun message => message.val = t).bind Definition.dec

/-- `midi.decode_status`: the name of a status, its channel and the function that
decodes the parameters. -/
def decodeStatus (status : Int) : Except String (String × Option Int × Decoder) := do
  assertf (0x80 ≤ status ∧ status ≤ 0xff) s!"invalid midi status = {status}"
  let (t, c) := if 0x80 ≤ status ∧ status < 0xf0
    then (status / 16 * 16, some (status - status / 16 * 16 + 1))
    else (status, none)
  return ((typeToName t).getD "undefined", c, (decodefunc t).getD decodeNotdefined)

/-- What `midi.decode` returns. -/
inductive Decoded where
  /-- `nil` and a message. -/
  | unknown (errmsg : String)
  /-- The name, the channel and what decoding the parameters returns. -/
  | message (name : String) (chan : Option Int) (par : Except String (Option Parameters))
  deriving DecidableEq

/-- `midi.decode` without `stringize`. -/
def decode : Message → Except String Decoded
  | [] => .error "bad argument #2 to 'unpack' (data string too short)"
  | byte :: bytes => do
    let status : Int := byte.toNat
    if status < 0x80 then
      return .unknown s!"midi status {status} is out of range"
    let (name, chan, dec) ← decodeStatus status
    return .message name chan (dec (byte :: bytes))

theorem decode_cons (byte : UInt8) (bytes : Message) :
    decode (byte :: bytes) =
      if (byte.toNat : Int) < 0x80 then
        .ok (.unknown s!"midi status {(byte.toNat : Int)} is out of range")
      else decodeStatus byte.toNat >>= fun (name, chan, dec) =>
        .ok (.message name chan (dec (byte :: bytes))) := rfl

/-! ## Encoding -/

/-- `string.pack` of values from the given argument on, each with the format `B`. -/
def packFrom : (argument : Nat) → List Int → Except String Message
  | _, [] => .ok []
  | argument, value :: values => do
    assertf (0 ≤ value ∧ value < 256)
      s!"bad argument #{argument} to 'pack' (unsigned overflow)"
    return UInt8.ofNat value.toNat :: (← packFrom (argument + 1) values)

/-- `string.pack` of values, each with the format `B`. -/
def pack : List Int → Except String Message := packFrom 2

/-- The check of a channel. -/
def checkChannel (chan : Int) : Except String PUnit :=
  assertf (chan > 0 ∧ chan ≤ 16) s!"invalid channel {chan}"

/-- The check of a data byte. -/
def checkData (what : String) (value : Int) : Except String PUnit :=
  assertf (value ≥ 0 ∧ value < 128) s!"invalid {what} {value}"

/-- The check of a number that counts from one. -/
def checkNumber (number : Int) : Except String PUnit :=
  assertf (number > 0 ∧ number ≤ 128) s!"invalid number {number}"

/-- The check of a fourteen-bit value. -/
def checkValue (value : Int) : Except String PUnit :=
  assertf (value ≥ 0 ∧ value ≤ 0x3fff) s!"invalid value {value}"

/-- Encode a key and a data byte that goes with it. -/
def encodeKey (type : Int) (what : String) (chan key value : Int) :
    Except String Message := do
  checkChannel chan
  checkData "key" key
  checkData what value
  pack [type + chan - 1, key, value]

/-- `midi.note_off`. -/
def noteOff (chan key : Int) (velocity : Option Int) : Except String Message :=
  encodeKey 0x80 "velocity" chan key (velocity.getD 64)

/-- `midi.note_on`. -/
def noteOn (chan key : Int) (velocity : Option Int) : Except String Message :=
  encodeKey 0x90 "velocity" chan key (velocity.getD 64)

/-- `midi.aftertouch`. -/
def aftertouch (chan key pressure : Int) : Except String Message :=
  encodeKey 0xa0 "pressure" chan key pressure

/-- An argument that is an integer or a string. -/
inductive Argument where
  | integer (value : Int)
  | string (text : String)
  deriving DecidableEq, Repr

/-- The controller number that `midi.control_change` takes from its second argument. -/
def controlNumber : Argument → Except String Int
  | .string control =>
      match controllerToNumber control with
      | some ctl => .ok ctl
      | none => .error s!"unknown controller '{control}'"
  | .integer ctl => do
      checkData "controller number" ctl
      return ctl

/-- The value that `midi.control_change` takes from its third argument. -/
def controlValue : Option Argument → Except String Int
  | none => .ok 0
  | some (.string value) =>
      if value = "on" then .ok 127
      else if value = "off" then .ok 0
      else .error s!"unkown value '{value}'"
  | some (.integer value) => do
      checkData "value" value
      return value

/-- `midi.control_change`. -/
def controlChange (chan : Int) (control : Argument) (value : Option Argument) :
    Except String Message := do
  checkChannel chan
  let ctl ← controlNumber control
  let val ← controlValue value
  pack [0xb0 + chan - 1, ctl, val]

/-- `midi.program_change`. -/
def programChange (chan number : Int) : Except String Message := do
  checkChannel chan
  checkNumber number
  pack [0xc0 + chan - 1, number - 1]

/-- `midi.channel_pressure`. -/
def channelPressure (chan pressure : Int) : Except String Message := do
  checkChannel chan
  checkData "pressure" pressure
  pack [0xd0 + chan - 1, pressure]

/-- `midi.pitch_wheel`. -/
def pitchWheel (chan value : Int) : Except String Message := do
  checkChannel chan
  checkValue value
  pack [0xe0 + chan - 1, (numtolsbmsb value).1, (numtolsbmsb value).2]

/-- `midi.mtc_quarter_frame`. -/
def mtcQuarterFrame (nnn dddd : Int) : Except String Message := do
  assertf (nnn ≥ 0 ∧ nnn ≤ 7) s!"invalid mtc quarter frame type {nnn}"
  assertf (dddd ≥ 0 ∧ dddd ≤ 0x0f) s!"invalid mtc quarter frame nibble value {dddd}"
  pack [0xf1, nnn * 16 + dddd]

/-- `midi.song_position`. -/
def songPosition (value : Int) : Except String Message := do
  checkValue value
  pack [0xf2, (numtolsbmsb value).1, (numtolsbmsb value).2]

/-- `midi.song_select`. -/
def songSelect (number : Int) : Except String Message := do
  checkNumber number
  pack [0xf3, number - 1]

/-- `midi.tune_request`. -/
def tuneRequest : Except String Message := pack [0xf6]

/-- `midi.end_of_exclusive`. -/
def endOfExclusive : Except String Message := pack [0xf7]

/-- `midi.clock`. -/
def clock : Except String Message := pack [0xf8]

/-- `midi.start`. -/
def start : Except String Message := pack [0xfa]

/-- `midi.continue`. -/
def «continue» : Except String Message := pack [0xfb]

/-- `midi.stop`. -/
def stop : Except String Message := pack [0xfc]

/-- `midi.active_sensing`. -/
def activeSensing : Except String Message := pack [0xfe]

/-- `midi.reset`. -/
def reset : Except String Message := pack [0xff]

end LuaJack.Midi
