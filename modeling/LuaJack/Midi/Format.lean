import LuaJack.Midi.Message

/-!
# The MIDI format

A message in the terms of the format: its kind, its channel and its parameters.  The
content of a message determines its bytes, every complete message has a content, and
the decoder finds it.
-/

namespace LuaJack.Midi

/-! ## Bytes -/

/-- A number that fits in a data byte. -/
def Data (value : Int) : Prop := 0 ≤ value ∧ value < 128

instance (value : Int) : Decidable (Data value) :=
  inferInstanceAs (Decidable (0 ≤ value ∧ value < 128))

theorem Data.ofByte {byte : UInt8} (small : byte < 0x80) : Data byte.toNat := by
  have bound : byte.toNat < 128 := small
  constructor
  · exact Int.natCast_nonneg _
  · exact_mod_cast bound

/-- The bytes that hold the given numbers. -/
def toBytes (values : List Int) :
    Message := values.map fun value => UInt8.ofNat value.toNat

@[simp] theorem toBytes_nil : toBytes [] = [] := rfl

@[simp] theorem toBytes_cons (value : Int) (values : List Int) :
    toBytes (value :: values) = UInt8.ofNat value.toNat :: toBytes values := rfl

theorem toNat_ofNat_toNat {value : Int} (nonneg : 0 ≤ value) (bound : value < 256) :
    ((UInt8.ofNat value.toNat).toNat : Int) = value := by
  rw [UInt8.toNat_ofNat']
  omega

theorem Data.toNat_ofNat {value : Int} (data : Data value) :
    ((UInt8.ofNat value.toNat).toNat : Int) = value :=
  toNat_ofNat_toNat data.1 (by have := data.2; omega)

@[simp] theorem ofNat_toNat_toNat (byte : UInt8) :
    UInt8.ofNat (byte.toNat : Int).toNat = byte := by
  simp

/-- Bytes that hold data stay below `0x80`. -/
theorem toBytes_small {values : List Int} (data : ∀ value ∈ values, Data value) :
    ∀ byte ∈ toBytes values, byte < 0x80 := by
  intro byte member
  obtain ⟨value, held, rfl⟩ := List.mem_map.mp member
  have read := (data value held).toNat_ofNat
  have bound := (data value held).2
  change (UInt8.ofNat value.toNat).toNat < 128
  omega

/-- A channel. -/
def Channel (chan : Int) : Prop := 0 < chan ∧ chan ≤ 16

instance (chan : Int) : Decidable (Channel chan) :=
  inferInstanceAs (Decidable (0 < chan ∧ chan ≤ 16))

/-! ## Status bytes -/

/-- The status of a message that addresses a channel says its type and the channel. -/
theorem decodeStatus_voice {t chan : Int} (low : 0x80 ≤ t) (high : t < 0xf0)
    (aligned : t % 16 = 0) (channel : Channel chan) :
    decodeStatus (t + chan - 1) = .ok ((typeToName t).getD "undefined", some chan,
      (decodefunc t).getD decodeNotdefined) := by
  obtain ⟨first, last⟩ := channel
  have valid : 0x80 ≤ t + chan - 1 ∧ t + chan - 1 ≤ 0xff := by omega
  have isVoice : 0x80 ≤ t + chan - 1 ∧ t + chan - 1 < 0xf0 := by omega
  have base : (t + chan - 1) / 16 * 16 = t := by omega
  have number : t + chan - 1 - t + 1 = chan := by omega
  unfold decodeStatus assertf
  rw [if_pos valid, if_pos isVoice, base, number]
  rfl

/-- The status of any other message is its type. -/
theorem decodeStatus_system {t : Int} (low : 0xf0 ≤ t) (high : t ≤ 0xff) :
    decodeStatus t = .ok ((typeToName t).getD "undefined", none,
      (decodefunc t).getD decodeNotdefined) := by
  have valid : 0x80 ≤ t ∧ t ≤ 0xff := by omega
  have isSystem : ¬ (0x80 ≤ t ∧ t < 0xf0) := by omega
  unfold decodeStatus assertf
  rw [if_pos valid, if_neg isSystem]
  rfl

/-! ## Kinds of messages -/

/-- How the parameters of a message lie in its data bytes. -/
inductive Layout where
  | kv | kp | cc | n | p | v | mtcqf | nodata
  deriving DecidableEq, Repr

namespace Layout

/-- The number of data bytes. -/
def size : Layout → Nat
  | kv | kp | cc | v => 2
  | n | p | mtcqf => 1
  | nodata => 0

/-- The function that decodes the parameters. -/
def decoder : Layout → Decoder
  | kv => decodeKv
  | kp => decodeKp
  | cc => decodeCc
  | n => decodeN
  | p => decodeP
  | v => decodeV
  | mtcqf => decodeMtcqf
  | nodata => decodeNodata

/-- Parameters that a message can carry: the numbers lie in their ranges, and what one
number says again agrees with it. -/
inductive Fits : Layout → Option Parameters → Prop
  | kv {key velocity : Int} : Data key → Data velocity → Fits kv (some (.kv key velocity))
  | kp {key pressure : Int} : Data key → Data pressure → Fits kp (some (.kp key pressure))
  | cc {number value : Int} : Data number → Data value →
      Fits cc (some (.cc number value (numberToController number)))
  | n {number : Int} : 0 < number → number ≤ 128 → Fits n (some (.n number))
  | p {pressure : Int} : Data pressure → Fits p (some (.p pressure))
  | v {lsb msb : Int} : Data lsb → Data msb →
    Fits v (some (.v lsb msb (lsbmsbtonum lsb msb)))
  | mtcqf {nnn dddd : Int} : 0 ≤ nnn → nnn ≤ 7 → 0 ≤ dddd → dddd ≤ 0x0f →
      Fits mtcqf (some (.mtcqf nnn dddd (nnn * 16 + dddd)))
  | nodata : Fits nodata none

end Layout

/-- The numbers in the data bytes of a message with the given parameters. -/
def Parameters.data : Option Parameters → List Int
  | some (.kv key velocity) => [key, velocity]
  | some (.kp key pressure) => [key, pressure]
  | some (.cc number value _) => [number, value]
  | some (.n number) => [number - 1]
  | some (.p pressure) => [pressure]
  | some (.v lsb msb _) => [lsb, msb]
  | some (.mtcqf _ _ value) => [value]
  | none => []

namespace Layout.Fits

variable {layout : Layout} {par : Option Parameters}

theorem data (fits : layout.Fits par) : ∀ value ∈ Parameters.data par, Data value := by
  cases fits with
  | kv key velocity => simp [Parameters.data, key, velocity]
  | kp key pressure => simp [Parameters.data, key, pressure]
  | cc number value => simp [Parameters.data, number, value]
  | p pressure => simp [Parameters.data, pressure]
  | v lsb msb => simp [Parameters.data, lsb, msb]
  | nodata => simp [Parameters.data]
  | n low high =>
      simp only [Parameters.data, List.mem_singleton, forall_eq, Data]
      omega
  | mtcqf nnnLow nnnHigh ddddLow ddddHigh =>
      simp only [Parameters.data, List.mem_singleton, forall_eq, Data]
      omega

@[simp] theorem kv_iff {key velocity : Int} :
    Layout.kv.Fits (some (.kv key velocity)) ↔ Data key ∧ Data velocity :=
  ⟨fun | .kv key velocity => ⟨key, velocity⟩, fun ⟨key, velocity⟩ => .kv key velocity⟩

@[simp] theorem kp_iff {key pressure : Int} :
    Layout.kp.Fits (some (.kp key pressure)) ↔ Data key ∧ Data pressure :=
  ⟨fun | .kp key pressure => ⟨key, pressure⟩, fun ⟨key, pressure⟩ => .kp key pressure⟩

@[simp] theorem cc_iff {number value : Int} {controller : Option String} :
    Layout.cc.Fits (some (.cc number value controller)) ↔
      Data number ∧ Data value ∧ controller = numberToController number :=
  ⟨fun | .cc number value => ⟨number, value, rfl⟩,
    fun ⟨number, value, same⟩ => same ▸ .cc number value⟩

@[simp] theorem n_iff {number : Int} :
    Layout.n.Fits (some (.n number)) ↔ 0 < number ∧ number ≤ 128 :=
  ⟨fun | .n low high => ⟨low, high⟩, fun ⟨low, high⟩ => .n low high⟩

@[simp] theorem p_iff {pressure : Int} :
    Layout.p.Fits (some (.p pressure)) ↔ Data pressure :=
  ⟨fun | .p pressure => pressure, .p⟩

@[simp] theorem v_iff {lsb msb value : Int} :
    Layout.v.Fits (some (.v lsb msb value)) ↔
      Data lsb ∧ Data msb ∧ value = lsbmsbtonum lsb msb :=
  ⟨fun | .v lsb msb => ⟨lsb, msb, rfl⟩, fun ⟨lsb, msb, same⟩ => same ▸ .v lsb msb⟩

@[simp] theorem mtcqf_iff {nnn dddd value : Int} :
    Layout.mtcqf.Fits (some (.mtcqf nnn dddd value)) ↔
      (0 ≤ nnn ∧ nnn ≤ 7) ∧ (0 ≤ dddd ∧ dddd ≤ 0x0f) ∧ value = nnn * 16 + dddd :=
  ⟨fun | .mtcqf low high low' high' => ⟨⟨low, high⟩, ⟨low', high'⟩, rfl⟩,
    fun ⟨⟨low, high⟩, ⟨low', high'⟩, same⟩ => same ▸ .mtcqf low high low' high'⟩

@[simp] theorem nodata_iff : Layout.nodata.Fits none ↔ True := iff_true_intro .nodata

/-- Decoding the data bytes gives the parameters back, whatever follows them. -/
theorem decoder_data (fits : layout.Fits par) (status : UInt8) (rest : Message) :
    layout.decoder (status :: (toBytes (Parameters.data par) ++ rest)) = .ok par := by
  have read := fun value member => (fits.data value member).toNat_ofNat
  cases fits with
  | kv _ _ =>
      simp_all [Parameters.data, Layout.decoder, decodeKv, decodeTwo]
  | kp _ _ =>
      simp_all [Parameters.data, Layout.decoder, decodeKp, decodeTwo]
  | cc _ _ =>
      simp_all [Parameters.data, Layout.decoder, decodeCc, decodeTwo]
  | n _ _ =>
      simp_all [Parameters.data, Layout.decoder, decodeN, decodeOne]
  | p _ =>
      simp_all [Parameters.data, Layout.decoder, decodeP, decodeOne]
  | v _ _ =>
      simp_all [Parameters.data, Layout.decoder, decodeV, decodeTwo]
  | mtcqf _ _ _ _ =>
      simp_all [Parameters.data, Layout.decoder, decodeMtcqf, decodeOne]
      omega
  | nodata => rfl

/-- One byte of data holds the parameters of a layout with one number. -/
theorem of_byte {byte : UInt8} {bytes : Message} {par : Option Parameters} {value : Int}
    (fits : layout.Fits par) (held : Parameters.data par = [value])
    (read : value = byte.toNat) (one : layout.size = 1) :
    ∃ par, layout.Fits par ∧ toBytes (Parameters.data par) =
      (byte :: bytes).take layout.size := by
  refine ⟨par, fits, ?_⟩
  rw [held, one, read]
  simp

/-- Two bytes of data hold the parameters of a layout with two numbers. -/
theorem of_bytes {first second : UInt8} {bytes : Message} {par : Option Parameters}
    (fits : layout.Fits par)
    (held : Parameters.data par = [(first.toNat : Int), (second.toNat : Int)])
    (two : layout.size = 2) :
    ∃ par, layout.Fits par ∧
      toBytes (Parameters.data par) = (first :: second :: bytes).take layout.size := by
  refine ⟨par, fits, ?_⟩
  rw [held, two]
  simp

/-- Enough data bytes hold parameters. -/
theorem of_data (layout : Layout) (bytes : Message) (enough : layout.size ≤ bytes.length)
    (small : ∀ byte ∈ bytes.take layout.size, byte < 0x80) :
    ∃ par, layout.Fits par ∧ toBytes (Parameters.data par) = bytes.take layout.size := by
  match layout, bytes with
  | .nodata, _ => exact ⟨none, .nodata, rfl⟩
  | .kv, first :: second :: _ =>
      exact of_bytes (.kv (.ofByte (small first (by simp [size])))
        (.ofByte (small second (by simp [size])))) rfl rfl
  | .kp, first :: second :: _ =>
      exact of_bytes (.kp (.ofByte (small first (by simp [size])))
        (.ofByte (small second (by simp [size])))) rfl rfl
  | .cc, first :: second :: _ =>
      exact of_bytes (.cc (.ofByte (small first (by simp [size])))
        (.ofByte (small second (by simp [size])))) rfl rfl
  | .v, first :: second :: _ =>
      exact of_bytes (.v (.ofByte (small first (by simp [size])))
        (.ofByte (small second (by simp [size])))) rfl rfl
  | .p, byte :: _ =>
      exact of_byte (.p (.ofByte (small byte (by simp [size])))) rfl rfl rfl
  | .n, byte :: _ =>
      have data : Data byte.toNat := .ofByte (small byte (by simp [size]))
      have low : (0 : Int) < byte.toNat + 1 := by have := data.1; omega
      have high : (byte.toNat : Int) + 1 ≤ 128 := by have := data.2; omega
      exact of_byte (.n low high) rfl (by omega) rfl
  | .mtcqf, byte :: _ =>
      have data : Data byte.toNat := .ofByte (small byte (by simp [size]))
      have bound := data.2
      have fits : Layout.mtcqf.Fits _ :=
        @mtcqf (byte.toNat / 16) (byte.toNat % 16)
          (by omega) (by omega) (by omega) (by omega)
      exact of_byte fits rfl (by omega) rfl

end Layout.Fits

/-- The kinds of messages that have an encoder; `midi.system_exclusive` is empty. -/
inductive Kind where
  | noteOff | noteOn | aftertouch | controlChange |
    programChange | channelPressure | pitchWheel
  | mtcQuarterFrame | songPosition | songSelect | tuneRequest | endOfExclusive
  | clock | start | «continue» | stop | activeSensing | reset
  deriving DecidableEq, Repr

namespace Kind

/-- The name of the message. -/
def name : Kind → String
  | noteOff => "note off"
  | noteOn => "note on"
  | aftertouch => "aftertouch"
  | controlChange => "control change"
  | programChange => "program change"
  | channelPressure => "channel pressure"
  | pitchWheel => "pitch wheel"
  | mtcQuarterFrame => "mtc quarter frame"
  | songPosition => "song position"
  | songSelect => "song select"
  | tuneRequest => "tune request"
  | endOfExclusive => "end of exclusive"
  | clock => "clock"
  | start => "start"
  | «continue» => "continue"
  | stop => "stop"
  | activeSensing => "active sensing"
  | reset => "reset"

/-- The status byte, of the first channel where the kind has channels. -/
def type : Kind → Int
  | noteOff => 0x80
  | noteOn => 0x90
  | aftertouch => 0xa0
  | controlChange => 0xb0
  | programChange => 0xc0
  | channelPressure => 0xd0
  | pitchWheel => 0xe0
  | mtcQuarterFrame => 0xf1
  | songPosition => 0xf2
  | songSelect => 0xf3
  | tuneRequest => 0xf6
  | endOfExclusive => 0xf7
  | clock => 0xf8
  | start => 0xfa
  | «continue» => 0xfb
  | stop => 0xfc
  | activeSensing => 0xfe
  | reset => 0xff

/-- Whether the message addresses a channel. -/
def voice : Kind → Bool
  | noteOff | noteOn | aftertouch | controlChange | programChange | channelPressure
  | pitchWheel => true
  | _ => false

/-- How the parameters lie in the data bytes. -/
def layout : Kind → Layout
  | noteOff | noteOn => .kv
  | aftertouch => .kp
  | controlChange => .cc
  | programChange | songSelect => .n
  | channelPressure => .p
  | pitchWheel | songPosition => .v
  | mtcQuarterFrame => .mtcqf
  | _ => .nodata

/-- The channels that a message of the kind may have. -/
inductive Chan (kind : Kind) : Option Int → Prop
  | voice {chan : Int} : kind.voice = true → Channel chan → Chan kind (some chan)
  | system : kind.voice = false → Chan kind none

/-- The status of a message of the kind with the given channel. -/
def status (kind : Kind) : Option Int → Int
  | some chan => kind.type + chan - 1
  | none => kind.type

/-- A status byte of a message of the kind. -/
def HasStatus (kind : Kind) (status : UInt8) : Prop :=
  kind.type ≤ status.toNat ∧ status.toNat < kind.type + if kind.voice then 16 else 1

instance (kind : Kind) (status : UInt8) : Decidable (kind.HasStatus status) :=
  inferInstanceAs (Decidable (_ ∧ _))

/-- Every kind is defined under its name, with the decoder of its layout. -/
theorem defined (kind : Kind) :
    typeToName kind.type = some kind.name ∧
      decodefunc kind.type = some kind.layout.decoder := by
  cases kind <;> exact ⟨rfl, rfl⟩

/-- The types of the kinds with channels are sixteen apart; the others follow. -/
theorem type_bounds (kind : Kind) :
    if kind.voice then 0x80 ≤ kind.type ∧ kind.type < 0xf0 ∧ kind.type % 16 = 0
    else 0xf0 ≤ kind.type ∧ kind.type ≤ 0xff := by
  cases kind <;> decide

theorem chan_some {kind : Kind} {chan : Int} (voice : kind.voice = true) :
    kind.Chan (some chan) ↔ Channel chan :=
  ⟨fun | .voice _ channel => channel, .voice voice⟩

theorem Chan.of_voice {kind : Kind} {chan : Option Int} (fits : kind.Chan chan)
    (voice : kind.voice = true) : ∃ number, chan = some number := by
  cases fits with
  | voice _ _ => exact ⟨_, rfl⟩
  | system system => rw [voice] at system; cases system

theorem Chan.of_system {kind : Kind} {chan : Option Int} (fits : kind.Chan chan)
    (system : kind.voice = false) : chan = none := by
  cases fits with
  | voice voice _ => rw [voice] at system; cases system
  | system _ => rfl

theorem and_system {kind : Kind} {valid : Prop} (system : kind.voice = false) :
    valid ↔ kind.Chan none ∧ valid :=
  ⟨fun holds => ⟨.system system, holds⟩, And.right⟩

theorem Chan.bounds {kind : Kind} {chan : Option Int} (fits : kind.Chan chan) :
    0x80 ≤ kind.status chan ∧ kind.status chan ≤ 0xff := by
  have bounds := kind.type_bounds
  cases fits with
  | voice voice channel =>
      rw [if_pos voice] at bounds
      have low := channel.1
      have high := channel.2
      simp only [status]
      omega
  | system system =>
      rw [if_neg (by simp [system])] at bounds
      simp only [status]
      omega

/-- A status is decoded to the name and the channel it was made of. -/
theorem Chan.decodeStatus {kind : Kind} {chan : Option Int} (fits : kind.Chan chan) :
    Midi.decodeStatus (kind.status chan) =
      .ok (kind.name, chan, kind.layout.decoder) := by
  have bounds := kind.type_bounds
  obtain ⟨named, decoded⟩ := kind.defined
  cases fits with
  | voice voice channel =>
      rw [if_pos voice] at bounds
      obtain ⟨low, high, aligned⟩ := bounds
      rw [status, decodeStatus_voice low high aligned channel, named, decoded]
      rfl
  | system system =>
      rw [if_neg (by simp [system])] at bounds
      rw [status, decodeStatus_system bounds.1 bounds.2, named, decoded]
      rfl

/-- Every status byte of a kind is the status of one of its channels. -/
theorem HasStatus.chan {kind : Kind} {byte : UInt8} (has : kind.HasStatus byte) :
    ∃ chan, kind.Chan chan ∧ (byte.toNat : Int) = kind.status chan := by
  obtain ⟨low, high⟩ := has
  cases voice : kind.voice with
  | true =>
      rw [voice, if_pos rfl] at high
      refine ⟨some (byte.toNat - kind.type + 1), .voice voice ⟨by omega, by omega⟩, ?_⟩
      simp only [status]
      omega
  | false =>
      rw [voice, if_neg (by simp)] at high
      refine ⟨none, .system voice, ?_⟩
      simp only [status]
      omega

end Kind

/-! ## Contents of messages -/

/-- What a message says. -/
@[ext] structure Content where
  kind : Kind
  chan : Option Int
  par : Option Parameters
  channel : kind.Chan chan
  parameters : kind.layout.Fits par

namespace Content

/-- The status and the data of the message. -/
def bytes (content : Content) : Message :=
  toBytes (content.kind.status content.chan :: Parameters.data content.par)

theorem bytes_eq (content : Content) :
    content.bytes = UInt8.ofNat (content.kind.status content.chan).toNat ::
      toBytes (Parameters.data content.par) := rfl

/-- The status and the data are numbers that fit in bytes. -/
theorem fit (content : Content) :
    ∀ value ∈ content.kind.status content.chan :: Parameters.data content.par,
      0 ≤ value ∧ value < 256 := by
  obtain ⟨low, high⟩ := content.channel.bounds
  intro value member
  cases member with
  | head => omega
  | tail _ member =>
      obtain ⟨nonneg, small⟩ := content.parameters.data value member
      omega

/-- A status byte is followed by data bytes. -/
theorem bytes_shape (content : Content) :
    ∃ status data, content.bytes = status :: data ∧
      0x80 ≤ status ∧ ∀ byte ∈ data, byte < 0x80 := by
  obtain ⟨low, high⟩ := content.channel.bounds
  refine ⟨_, _, content.bytes_eq, ?_, toBytes_small content.parameters.data⟩
  obtain ⟨nonneg, small⟩ := content.fit _ List.mem_cons_self
  have read := toNat_ofNat_toNat nonneg small
  change 128 ≤ (UInt8.ofNat _).toNat
  omega

/-- The decoder finds the content of a message, whatever follows the message. -/
theorem decode_bytes (content : Content) (rest : Message) :
    decode (content.bytes ++ rest) =
      .ok (.message content.kind.name content.chan (.ok content.par)) := by
  obtain ⟨low, high⟩ := content.channel.bounds
  obtain ⟨nonneg, small⟩ := content.fit _ List.mem_cons_self
  have read := toNat_ofNat_toNat nonneg small
  rw [bytes_eq, List.cons_append, decode_cons, read, if_neg (by omega),
    content.channel.decodeStatus]
  have parameters := content.parameters.decoder_data
    (UInt8.ofNat (content.kind.status content.chan).toNat) rest
  change Except.ok (Decoded.message _ _ (content.kind.layout.decoder _)) = _
  rw [parameters]

/-- Every complete message has a content. -/
theorem of_message {kind : Kind} {status : UInt8}
    {data : Message} (has : kind.HasStatus status)
    (enough : kind.layout.size ≤ data.length)
    (small : ∀ byte ∈ data.take kind.layout.size, byte < 0x80) :
    ∃ content : Content, content.kind = kind ∧
      content.bytes = (status :: data).take (1 + kind.layout.size) := by
  obtain ⟨chan, channel, statusEq⟩ := has.chan
  obtain ⟨par, parameters, dataEq⟩ := Layout.Fits.of_data kind.layout data enough small
  refine ⟨⟨kind, chan, par, channel, parameters⟩, rfl, ?_⟩
  rw [bytes_eq, ← statusEq, dataEq, ofNat_toNat_toNat, Nat.add_comm]
  rfl

end Content

end LuaJack.Midi
