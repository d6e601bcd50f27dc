import LuaJack.Midi.Format

/-!
# Ranges of decoded parameters

The functions that decode parameters check how long a message is.  They do not check
that its data bytes are data, so the parameters of a message that is no MIDI are out of
their ranges. -/

namespace LuaJack.Midi

/-- The documented ranges of parameters. -/
def Parameters.InRange : Parameters → Prop
  | kv key velocity => Data key ∧ Data velocity
  | kp key pressure => Data key ∧ Data pressure
  | cc number value _ => Data number ∧ Data value
  | n number => 1 ≤ number ∧ number ≤ 128
  | p pressure => Data pressure
  | v lsb msb value => Data lsb ∧ Data msb ∧ 0 ≤ value ∧ value ≤ 16383
  | mtcqf nnn dddd value => (0 ≤ nnn ∧ nnn ≤ 7) ∧ (0 ≤ dddd ∧ dddd ≤ 15) ∧ Data value

/-- The data bytes that a message needs are there, and they are data. -/
def Layout.Complete (layout : Layout) (data : Message) : Prop :=
  layout.size ≤ data.length ∧ ∀ byte ∈ data.take layout.size, byte < 0x80

/-- `midi.decode` returns `nil` and a message for the parameters. -/
def Reported (returned : Except String Decoded) : Prop :=
  ∃ errmsg, returned = .ok (.unknown errmsg) ∨
    ∃ name chan, returned = .ok (.message name chan (.error errmsg))

/-- The decoder returns parameters only within their ranges, and reports messages whose
data bytes are missing or no data. -/
structure Strict (status : UInt8) (data : Message) : Prop where
  inRange : ∀ name chan par,
    decode (status :: data) = .ok (.message name chan (.ok (some par))) → par.InRange
  reported : ∀ kind : Kind, kind.HasStatus status → ¬ kind.layout.Complete data →
    Reported (decode (status :: data))

/-! ## Decoders of parameters -/

theorem data_toNat {byte : UInt8} : Data byte.toNat ↔ byte < 0x80 := by
  constructor
  · intro data
    exact_mod_cast data.2
  · exact .ofByte

/-- Where the numbers of a fourteen-bit value are data, the value is in its range. -/
theorem inRange_v {lsb msb : Int} :
    (Parameters.v lsb msb (lsbmsbtonum lsb msb)).InRange ↔ Data lsb ∧ Data msb := by
  simp only [Parameters.InRange, Data, lsbmsbtonum]
  omega

theorem inRange_n {value : Int} : (Parameters.n (value + 1)).InRange ↔ Data value := by
  simp only [Parameters.InRange, Data]
  omega

theorem inRange_mtcqf {value : Int} :
    (Parameters.mtcqf (value / 16) (value % 16) value).InRange ↔ Data value := by
  simp only [Parameters.InRange, Data]
  omega

/-- A decoder reports messages that are too short, and takes any bytes of others for
data. -/
structure Layout.Decodes (layout : Layout) (status : UInt8) (data : Message) : Prop where
  short : data.length < layout.size →
    layout.decoder (status :: data) = .error "message too short"
  whole : layout.size ≤ data.length → ∃ par, layout.decoder (status :: data) = .ok par ∧
    ∀ some ∈ par, some.InRange ↔ ∀ byte ∈ data.take layout.size, byte < 0x80

section Decoders

variable {layout : Layout}

theorem decodes_one {par : Int → Parameters} (isDecoder : layout.decoder = decodeOne par)
    (one : layout.size = 1) (ranges : ∀ value, (par value).InRange ↔ Data value)
    (status : UInt8) (data : Message) : layout.Decodes status data := by
  cases data with
  | nil =>
      constructor
      · intro _
        rw [isDecoder]
        rfl
      · intro enough
        simp [one] at enough
  | cons byte data =>
      constructor
      · intro short
        simp [one] at short
      · intro _
        refine ⟨some (par byte.toNat), by rw [isDecoder]; rfl, ?_⟩
        intro some isSome
        cases isSome
        rw [one, ranges, data_toNat]
        simp

theorem decodes_two {par : Int → Int → Parameters}
    (isDecoder : layout.decoder = decodeTwo par) (two : layout.size = 2)
    (ranges : ∀ first second, (par first second).InRange ↔ Data first ∧ Data second)
    (status : UInt8) (data : Message) : layout.Decodes status data := by
  match data with
  | [] =>
      constructor
      · intro _
        rw [isDecoder]
        rfl
      · intro enough
        simp [two] at enough
  | [_] =>
      constructor
      · intro _
        rw [isDecoder]
        rfl
      · intro enough
        simp [two] at enough
  | first :: second :: data =>
      constructor
      · intro short
        rw [two, List.length_cons, List.length_cons] at short
        omega
      · intro _
        refine ⟨some (par first.toNat second.toNat), by rw [isDecoder]; rfl, ?_⟩
        intro some isSome
        cases isSome
        rw [two, ranges, data_toNat, data_toNat]
        simp

/-- What each of the decoders does with a message. -/
theorem decodes (layout : Layout) (status : UInt8) (data : Message) :
    layout.Decodes status data := by
  cases layout with
  | kv => exact decodes_two rfl rfl (fun _ _ => Iff.rfl) status data
  | kp => exact decodes_two rfl rfl (fun _ _ => Iff.rfl) status data
  | cc =>
      have isDecoder : Layout.cc.decoder =
          decodeTwo fun number value => .cc number value
            (numberToController number) := rfl
      exact decodes_two isDecoder rfl (fun _ _ => Iff.rfl) status data
  | v => exact decodes_two rfl rfl (fun _ _ => inRange_v) status data
  | n => exact decodes_one rfl rfl (fun _ => inRange_n) status data
  | p => exact decodes_one rfl rfl (fun _ => Iff.rfl) status data
  | mtcqf => exact decodes_one rfl rfl (fun _ => inRange_mtcqf) status data
  | nodata =>
      constructor
      · intro short
        cases short
      · intro _
        exact ⟨none, rfl, fun _ isSome => by cases isSome⟩

end Decoders

/-! ## Messages -/

/-- The definition of the messages of a kind. -/
def Kind.definition (kind : Kind) :
    Definition := ⟨kind.type, kind.name, some kind.layout.decoder⟩

/-- All messages are defined by their kinds, apart from the one without a decoder. -/
theorem mem_messages_cases {message : Definition} (member : message ∈ messages) :
    message.dec = none ∨ ∃ kind : Kind, message = kind.definition := by
  have isMessages : messages =
      [Kind.noteOff, .noteOn, .aftertouch, .controlChange,
        .programChange, .channelPressure,
        .pitchWheel].map Kind.definition ++ ⟨0xf0, "system exclusive", none⟩ ::
      [Kind.mtcQuarterFrame, .songPosition, .songSelect,
        .tuneRequest, .endOfExclusive, .clock,
        .start, .continue, .stop, .activeSensing, .reset].map Kind.definition := rfl
  rw [isMessages, List.mem_append, List.mem_cons] at member
  rcases member with voice | rfl | system
  · obtain ⟨kind, _, rfl⟩ := List.mem_map.mp voice
    exact .inr ⟨kind, rfl⟩
  · exact .inl rfl
  · obtain ⟨kind, _, rfl⟩ := List.mem_map.mp system
    exact .inr ⟨kind, rfl⟩

/-- Where a decoder is defined for a type, it is the one of a kind. -/
theorem exists_kind_of_decodefunc {t : Int}
    {dec : Decoder} (isDecoder : decodefunc t = some dec) :
    ∃ kind : Kind, kind.type = t ∧ kind.layout.decoder = dec := by
  obtain ⟨message, found, isDec⟩ := Option.bind_eq_some_iff.mp isDecoder
  have isType : message.val = t := by simpa using List.find?_some found
  rcases mem_messages_cases (List.mem_of_find?_eq_some found) with none | ⟨kind, rfl⟩
  · rw [none] at isDec
    cases isDec
  · exact ⟨kind, isType, Option.some.inj isDec⟩

/-- The type of a status byte, without the channel. -/
def typeOf (status : Int) : Int := if status < 0xf0 then status / 16 * 16 else status

/-- A status byte is decoded by its type. -/
theorem decodeStatus_typeOf {status : Int} (low : 0x80 ≤ status) (high : status ≤ 0xff) :
    ∃ name chan, decodeStatus status =
      .ok (name, chan, (decodefunc (typeOf status)).getD decodeNotdefined) := by
  unfold typeOf
  by_cases voice : status < 0xf0
  · have channel : Channel (status - status / 16 * 16 + 1) := ⟨by omega, by omega⟩
    have decoded := @decodeStatus_voice (status / 16 * 16) _
        (by omega) (by omega) (by omega) channel
    have isStatus : status / 16 * 16 + (status - status / 16 * 16 + 1) - 1 =
        status := by omega
    rw [isStatus] at decoded
    rw [if_pos voice]
    exact ⟨_, _, decoded⟩
  · rw [if_neg voice]
    exact ⟨_, _, decodeStatus_system (Int.not_lt.mp voice) high⟩

/-- A byte of the type of a kind is a status byte of the kind. -/
theorem Kind.hasStatus_of_typeOf (kind : Kind) {status : UInt8}
    (isType : typeOf status.toNat = kind.type) : kind.HasStatus status := by
  have bounds := kind.type_bounds
  unfold typeOf at isType
  unfold HasStatus
  cases voice : kind.voice with
  | true =>
      rw [voice, if_pos rfl] at bounds
      simp only [↓reduceIte]
      split at isType <;> omega
  | false =>
      rw [voice, if_neg (by simp)] at bounds
      simp only [Bool.false_eq_true, ↓reduceIte]
      split at isType <;> omega

section Messages

variable {kind : Kind} {status : UInt8} {data : Message}

/-- The decoder that belongs to the status decodes the message. -/
theorem decode_of_status {name : String} {chan : Option Int}
    {dec : Decoder} (data : Message)
    (decoded : decodeStatus status.toNat = .ok (name, chan, dec))
    (isStatus : ¬ (status.toNat : Int) < 0x80) :
    decode (status :: data) = .ok (.message name chan (dec (status :: data))) := by
  rw [decode_cons, if_neg isStatus, decoded]
  rfl

/-- A message of a kind is decoded by the decoder of the kind. -/
theorem Kind.HasStatus.decode_eq (has : kind.HasStatus status) (data : Message) :
    ∃ chan, decode (status :: data) =
      .ok (.message kind.name chan (kind.layout.decoder (status :: data))) := by
  obtain ⟨chan, channel, isStatus⟩ := has.chan
  have low := channel.bounds.1
  have decoded := channel.decodeStatus
  rw [← isStatus] at decoded
  exact ⟨chan, decode_of_status data decoded (by omega)⟩

/-- Only messages of a kind are decoded to parameters. -/
theorem exists_kind_of_decode {name : String} {chan : Option Int} {par : Parameters}
    (decoded : decode (status :: data) = .ok (.message name chan (.ok (some par)))) :
    ∃ kind : Kind, kind.HasStatus status ∧
      kind.layout.decoder (status :: data) = .ok (some par) := by
  by_cases isStatus : (status.toNat : Int) < 0x80
  · rw [decode_cons, if_pos isStatus] at decoded
    cases decoded
  · have low : (0x80 : Int) ≤ status.toNat := Int.not_lt.mp isStatus
    have high : (status.toNat : Int) ≤ 0xff := by
      have bound := UInt8.toNat_lt status
      omega
    obtain ⟨name', chan', decodedStatus⟩ := decodeStatus_typeOf low high
    rw [decode_of_status data decodedStatus isStatus] at decoded
    injection decoded with isMessage
    injection isMessage with _ _ isPar
    cases isDecoder : decodefunc (typeOf status.toNat) with
    | none =>
        rw [isDecoder] at isPar
        cases isPar
    | some dec =>
        obtain ⟨kind, isType, rfl⟩ := exists_kind_of_decodefunc isDecoder
        rw [isDecoder] at isPar
        exact ⟨kind, kind.hasStatus_of_typeOf isType.symm, isPar⟩

end Messages

/-- The decoder is strict exactly where the bytes that it takes for data are data. -/
theorem strict_iff (status : UInt8) (data : Message) :
    Strict status data ↔ ∀ kind : Kind, kind.HasStatus status →
      kind.layout.size ≤ data.length →
        ∀ byte ∈ data.take kind.layout.size, byte < 0x80 := by
  constructor
  · intro strict kind has enough
    by_contra notData
    obtain ⟨chan, isMessage⟩ := has.decode_eq data
    obtain ⟨par, isPar, _⟩ := (decodes kind.layout status data).whole enough
    rw [isPar] at isMessage
    obtain ⟨errmsg, unknown | ⟨name, chan', error⟩⟩ :=
      strict.reported kind has fun complete => notData complete.2
    · cases isMessage.symm.trans unknown
    · cases isMessage.symm.trans error
  · intro small
    constructor
    · intro name chan par decoded
      obtain ⟨kind, has, isPar⟩ := exists_kind_of_decode decoded
      have decodes := decodes kind.layout status data
      rcases Nat.lt_or_ge data.length kind.layout.size with short | enough
      · cases isPar.symm.trans (decodes.short short)
      · obtain ⟨other, isOther, ranges⟩ := decodes.whole enough
        cases isPar.symm.trans isOther
        exact (ranges par rfl).mpr (small kind has enough)
    · intro kind has incomplete
      have short : data.length < kind.layout.size := by
        by_contra enough
        exact incomplete ⟨Nat.not_lt.mp enough, small kind has (Nat.not_lt.mp enough)⟩
      obtain ⟨chan, isMessage⟩ := has.decode_eq data
      rw [(decodes kind.layout status data).short short] at isMessage
      exact ⟨_, .inr ⟨_, _, isMessage⟩⟩

/-- The status byte of another message is taken for a key. -/
theorem not_strict : ¬ Strict 0x90 [0x90, 60] := by
  intro strict
  have inRange := strict.inRange "note on" (some 1) (.kv 0x90 60) (by decide)
  exact absurd inRange.1 (by decide)

end LuaJack.Midi
