import LuaJack.Images
import LuaJack.Midi.Format

/-!
# Status bytes of messages

`midi.status` makes a status byte from the name of a message and a channel, and
`midi.decode_status` takes it apart again.  The check of the channel is passed to
`assertf` as the level, so it is never looked at. -/

namespace LuaJack.Midi

/-- `name_to_type[name]`. -/
def nameToType (name : String) : Option Int :=
  (messages.find? fun message => message.name = name).map Definition.val

/-- `assertf` with the arguments in their places, where the rest of them is formatted to a
message. -/
def assertfAt (level condition : LuaValue) (errmsg : String) : Except String LuaValue :=
  if condition.toBoolean then
    .ok condition
  else
    match level with
    | .integer _ | .float _ => .error errmsg
    | level => .error s!"attempt to perform arithmetic on a {level.typename} value"

/-- `midi.status`. It returns `nil` if there is no message of this name. -/
def status (name : String) (chan : Option LuaInteger) :
    Except String (Option LuaInteger) :=
  match nameToType name with
  | none => .ok none
  | some t =>
      if 0x80 ≤ t ∧ t < 0xf0 then
        match chan with
        | none => .error "attempt to compare number with nil"
        | some chan => do
            -- there is no level, so the condition is the format
            let _ ← assertfAt (.boolean (chan.toInt > 0 ∧ chan.toInt ≤ 16))
              (.string (chars "invalid midi channel = %u")) (toString chan.toInt)
            return some (BitVec.ofInt 64 t + chan - 1)
      else
        .ok (some (BitVec.ofInt 64 t))

/-- The message is a channel voice message. -/
def IsVoice (name : String) : Prop := ∃ t ∈ nameToType name, 0x80 ≤ t ∧ t < 0xf0

/-- The channel of a channel voice message is checked, and what `midi.status` makes of a
name and a channel is decoded to them again. -/
structure Decodable (name : String) (chan : LuaInteger) : Prop where
  checked : IsVoice name → ¬ Channel chan.toInt →
    ∃ errmsg, status name (some chan) = .error errmsg
  decoded : ∀ byte, status name (some chan) = .ok (some byte) →
    ∃ chan' dec, decodeStatus byte.toInt = .ok (name, chan', dec) ∧
      (IsVoice name → chan' = some chan.toInt)

/-! ## What `midi.status` returns -/

section Status

variable {name : String} {t : Int} {chan : LuaInteger}

theorem status_of_voice (isType : nameToType name = some t)
    (low : 0x80 ≤ t) (high : t < 0xf0) :
    status name (some chan) = .ok (some (BitVec.ofInt 64 t + chan - 1)) := by
  simp only [status, isType]
  rw [if_pos ⟨low, high⟩]
  rfl

theorem status_of_system (isType : nameToType name = some t) (system : 0xf0 ≤ t) :
    status name (some chan) = .ok (some (BitVec.ofInt 64 t)) := by
  simp only [status, isType]
  rw [if_neg (by omega)]

/-- The tables of names and types are inverse to each other. -/
theorem tables_inverse : ∀ message ∈ messages,
    nameToType message.name = some message.val ∧
      typeToName message.val = some message.name := by
  decide

theorem type_of_message : ∀ message ∈ messages, 0x80 ≤ message.val ∧ message.val ≤ 0xff ∧
    (message.val < 0xf0 → message.val % 16 = 0) := by
  decide

theorem mem_messages (isType : nameToType name = some t) :
    ∃ message ∈ messages, message.name = name ∧ message.val = t := by
  obtain ⟨message, found, isVal⟩ := Option.map_eq_some_iff.mp isType
  exact ⟨message, List.mem_of_find?_eq_some
    found, by simpa using List.find?_some found, isVal⟩

theorem not_isVoice (isType : nameToType name = some t) (system : 0xf0 ≤ t) :
    ¬ IsVoice name := by
  rintro ⟨other, isOther, _, high⟩
  cases isType.symm.trans isOther
  omega

/-- The sum does not wrap around. -/
theorem toInt_status (low : 0x80 ≤ t) (high : t < 0xf0) (channel : Channel chan.toInt) :
    (BitVec.ofInt 64 t + chan - 1).toInt = t + chan.toInt - 1 := by
  obtain ⟨first, last⟩ := channel
  rw [BitVec.toInt_sub, BitVec.toInt_add, BitVec.toInt_ofInt]
  have one : (1 : LuaInteger).toInt = 1 := rfl
  rw [one]
  simp only [Int.bmod_def]
  omega

end Status

/-- A status byte is decoded to the name and the channel that it was made of, and other
channels are refused, exactly if the channel of a channel voice message is one from 1 to
16. -/
theorem decodable_iff (name : String) (chan : LuaInteger) :
    Decodable name chan ↔ (IsVoice name → Channel chan.toInt) := by
  constructor
  · intro decodable voice
    obtain ⟨t, isType, low, high⟩ := voice
    by_contra notChannel
    obtain ⟨errmsg, raised⟩ := decodable.checked ⟨t, isType, low, high⟩ notChannel
    rw [status_of_voice isType low high] at raised
    cases raised
  · intro channel
    constructor
    · intro voice notChannel
      exact absurd (channel voice) notChannel
    · intro byte returned
      cases isType : nameToType name with
      | none =>
          simp only [status, isType] at returned
          cases returned
      | some t =>
          obtain ⟨message, member, rfl, rfl⟩ := mem_messages isType
          have named := (tables_inverse message member).2
          obtain ⟨low, high, aligned⟩ := type_of_message message member
          by_cases isVoice : message.val < 0xf0
          · have channel := channel ⟨message.val, isType, low, isVoice⟩
            rw [status_of_voice isType low isVoice] at returned
            cases returned
            rw [toInt_status low isVoice channel,
              decodeStatus_voice low isVoice (aligned isVoice) channel, named]
            exact ⟨_, _, rfl, fun _ => rfl⟩
          · have system : 0xf0 ≤ message.val := by omega
            rw [status_of_system isType system] at returned
            cases returned
            have isByte : (BitVec.ofInt 64 message.val).toInt = message.val := by
              rw [BitVec.toInt_ofInt, Int.bmod_def]
              omega
            rw [isByte, decodeStatus_system system high, named]
            exact ⟨_, _, rfl, fun voice => absurd voice (not_isVoice isType system)⟩

/-- The channel behind it is the first one of the next type. -/
theorem not_decodable : ¬ Decodable "note off" 17 := by
  intro decodable
  obtain ⟨errmsg, raised⟩ :=
    decodable.checked ⟨0x80, by decide, by decide, by decide⟩ (by decide)
  have returned : status "note off" (some 17) = .ok (some 0x90) := by decide
  rw [returned] at raised
  cases raised

end LuaJack.Midi
