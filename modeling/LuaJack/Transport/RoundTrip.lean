import LuaJack.Transport.Decode

/-!
# Positions to Lua and back

The table that `transport_pushposition` makes of a position says which groups of fields
are valid, so `transport_checkposition` finds the position again, with zeros where it is
not valid. -/

namespace LuaJack.Transport

variable {Number : Type}

/-- The validity bits of optional groups. -/
def positionBits : BitVec 32 :=
  jackPositionBBT ||| jackPositionTimecode |||
    jackBBTFrameOffset ||| jackAudioVideoRatio |||
    jackVideoFrameOffset

/-- A `jack_position_t`: its fields of type `float` hold numbers of single precision. -/
structure CPosition (numbers : Numbers Number) where
  position : Position Number
  beats_per_bar : numbers.single position.beats_per_bar = position.beats_per_bar
  beat_type : numbers.single position.beat_type = position.beat_type
  audio_frames_per_video_frame :
    numbers.single position.audio_frames_per_video_frame =
      position.audio_frames_per_video_frame

/-- The position with zeros in all fields of invalid groups. -/
def restrict (numbers : Numbers Number) (pos : Position Number) : Position Number :=
  let bbt := pos.valid &&& jackPositionBBT ≠ 0
  let timecode := pos.valid &&& jackPositionTimecode ≠ 0
  { pos with
    bar := if bbt then pos.bar else 0
    beat := if bbt then pos.beat else 0
    tick := if bbt then pos.tick else 0
    bar_start_tick := if bbt then pos.bar_start_tick else numbers.zero
    beats_per_bar := if bbt then pos.beats_per_bar else numbers.zero
    beat_type := if bbt then pos.beat_type else numbers.zero
    ticks_per_beat := if bbt then pos.ticks_per_beat else numbers.zero
    beats_per_minute := if bbt then pos.beats_per_minute else numbers.zero
    frame_time := if timecode then pos.frame_time else numbers.zero
    next_time := if timecode then pos.next_time else numbers.zero
    bbt_offset := if pos.valid &&& jackBBTFrameOffset ≠ 0 then pos.bbt_offset else 0
    audio_frames_per_video_frame :=
      if pos.valid &&& jackAudioVideoRatio ≠ 0 then pos.audio_frames_per_video_frame
      else numbers.zero
    video_offset :=
      if pos.valid &&& jackVideoFrameOffset ≠ 0 then pos.video_offset else 0 }

/-- `transport_pushposition` pushes a table with these fields. -/
def Pushes (pos : Position Number) (fields : List (String × Field Number)) : Prop :=
  ∀ client : RealTime.Client Number, RealTime.transportPushposition pos client =
    (.ok (), { client with stack := .table fields :: client.stack })

/-! ## Pushing a position -/

theorem addFields_table (fields before : List (String × Field Number))
    (client : RealTime.Client Number) (stack : List (RealTime.Slot Number))
    (isStack : client.stack = .table before :: stack) :
    RealTime.addFields fields client =
      (.ok (), { client with stack := .table (before ++ fields) :: stack }) := by
  induction fields generalizing before client with
  | nil =>
      rw [List.append_nil, ← isStack]
      rfl
  | cons field fields ih =>
      have added : RealTime.addField field.1 field.2 client =
          (.ok (), { client with stack := .table (before ++ [field]) :: stack }) := by
        simp [RealTime.addField, RealTime.push, RealTime.setfield, isStack]
      rw [RealTime.addFields, Fallible.bind_of_ok added, ih _ _ rfl, List.append_assoc]
      rfl

theorem pushes_fields (pos : Position Number) : Pushes pos pos.fields := by
  intro client
  have pushed := addFields_table pos.fields []
    { client with stack := .table [] :: client.stack } client.stack rfl
  exact pushed

/-! ## The fields of a position -/

section Fields

variable {numbers : Numbers Number} {pos : Position Number}

theorem sublist_group {α : Type} {valid all : Prop}
    [Decidable valid] [Decidable all] (holds : all)
    (list : List α) :
    (if valid then list else []).Sublist (if all then list else []) := by
  rw [if_pos holds]
  split
  · exact .refl _
  · exact list.nil_sublist

/-- The fields are among those of a position with all groups. -/
theorem fields_sublist (pos : Position Number) :
    pos.fields.Sublist (Position.fields { pos with valid := positionBits }) := by
  unfold Position.fields
  refine .append
    (.append (.append (.append (.append (.append (.refl _) ?_) ?_) ?_) ?_) ?_)
    (.refl _)
  all_goals exact sublist_group (by change positionBits &&& _ ≠ 0; decide) _

/-- No field is set twice. -/
theorem fields_distinct (pos : Position Number) : (pos.fields.map Prod.fst).Nodup := by
  have all : ((Position.fields { pos with valid := positionBits }).map
      Prod.fst).Nodup := by
    have isNames : (Position.fields { pos with valid := positionBits }).map Prod.fst =
        ["unique_1", "usecs", "frame_rate", "frame",
          "bar", "beat", "tick", "bar_start_tick",
          "beats_per_bar", "beat_type", "ticks_per_beat",
          "beats_per_minute", "frame_time",
          "next_time", "bbt_offset", "audio_frames_per_video_frame", "video_offset",
          "unique_2"] := by
      simp [Position.fields, positionBits, jackPositionBBT, jackPositionTimecode,
        jackBBTFrameOffset, jackAudioVideoRatio, jackVideoFrameOffset]
    rw [isNames]
    decide
  exact all.sublist ((fields_sublist pos).map Prod.fst)

theorem getInteger_of_mem {x : String} {value : LuaInteger}
    (member : (x, .integer value) ∈ pos.fields) :
    getInteger numbers (tableOf pos.fields) x = .ok value := by
  rw [getInteger, tableOf_of_mem (fields_distinct pos) member]
  rfl

theorem getNumber_of_mem {x : String} {value : Number}
    (member : (x, .number value) ∈ pos.fields) :
    getNumber numbers (tableOf pos.fields) x = .ok value := by
  rw [getNumber, tableOf_of_mem (fields_distinct pos) member]
  rfl

end Fields

/-! ## Groups of fields -/

section Groups

@[simp] theorem ok_bind {α β : Type} (value : α) (rest : α → Except String β) :
    (Except.ok value >>= rest) = rest value := rfl

theorem bind_of_eq_ok {α β : Type} {first : Except String α} {rest : α → Except String β}
    {value : α} {result : Except String β} (succeeds : first = .ok value)
    (continues : rest value = result) : (first >>= rest) = result := by
  rw [succeeds, ok_bind, continues]

@[simp] theorem pure_eq_ok {α : Type} (value : α) :
    (pure value : Except String α) = .ok value :=
  rfl

/-- A signed number of 32 bits comes back. -/
@[simp] theorem setWidth_signExtend (value : BitVec 32) :
    (value.signExtend 64).setWidth 32 = value := by
  apply BitVec.eq_of_getLsbD_eq
  intro index inside
  have isInside : index < 64 := Nat.lt_trans inside (by decide)
  rw [BitVec.getLsbD_setWidth, BitVec.getLsbD_signExtend]
  simp [inside, isInside]

/-- A single bit is set or not. -/
def IsBit (bit : BitVec 32) : Prop :=
  ∀ valid : BitVec 32, valid &&& bit ≠ 0 → valid &&& bit = bit

theorem isBit_twoPow (index : Nat) : IsBit (BitVec.twoPow 32 index) := by
  intro valid set
  rw [BitVec.and_twoPow] at set ⊢
  split at set
  next isSet => rw [if_pos isSet]
  next => exact absurd rfl set

theorem or_and_self {valid bit : BitVec 32} : (valid ||| bit) &&& bit = bit := by
  ext index inside
  simp only [BitVec.getElem_and, BitVec.getElem_or]
  cases valid[index] <;> simp

variable {numbers : Numbers Number} {pos before after : Position Number}
variable {table : LuaTable Number}

/-- A group is read if the field that stands for it is there, and this is so if the
group is valid. -/
theorem getGroup_eq_ok {bit : BitVec 32} (isBit : IsBit bit)
    (valid : BitVec 32) {x : String}
    {get : Position Number → Except String (Position Number)}
    (unset : before.valid &&& bit = 0)
    (present : valid &&& bit ≠ 0#32 → isNil (table x) = false ∧
      get { before with valid := before.valid ||| valid &&& bit } = .ok after)
    (absent : valid &&& bit = 0#32 → isNil (table x) = true ∧ before = after) :
    getGroup table bit x get before = .ok after := by
  unfold getGroup getValid
  by_cases isUnset : valid &&& bit = 0#32
  · obtain ⟨nil, rfl⟩ := absent isUnset
    simp only [nil, ↓reduceIte, unset, ne_eq, not_true_eq_false]
  · obtain ⟨someValue, got⟩ := present isUnset
    rw [isBit valid isUnset] at got isUnset
    simp [someValue, or_and_self, isUnset, got]

theorem getMandatory_eq_ok (before pos : Position Number) :
    getMandatory numbers (tableOf pos.fields) before = .ok { before with
      unique_1 := pos.unique_1
      usecs := pos.usecs
      frame_rate := pos.frame_rate
      frame := pos.frame } := by
  have unique_1 : ("unique_1", .integer pos.unique_1) ∈
      pos.fields := by simp [Position.fields]
  have usecs : ("usecs", .integer pos.usecs) ∈ pos.fields := by simp [Position.fields]
  have frame_rate : ("frame_rate", .integer (pos.frame_rate.setWidth 64)) ∈
      pos.fields := by
    simp [Position.fields]
  have frame : ("frame", .integer (pos.frame.setWidth 64)) ∈ pos.fields := by
    simp [Position.fields]
  simp [getMandatory, getInteger_of_mem unique_1, getInteger_of_mem usecs,
    getInteger_of_mem frame_rate, getInteger_of_mem frame]

/-- `GetInteger` of `unique_2`. -/
theorem getInteger_unique_2 (pos : Position Number) :
    getInteger numbers (tableOf pos.fields) "unique_2" = .ok pos.unique_2 :=
  getInteger_of_mem (by simp [Position.fields])

/-- The field of a valid group is there. -/
theorem isNil_of_mem {x : String} {value : Field Number}
    (member : (x, value) ∈ pos.fields) :
    isNil (tableOf pos.fields x) = false := by
  rw [tableOf_of_mem (fields_distinct pos) member]
  cases value <;> rfl

theorem isNil_of_not_mem {x : String} (absent : x ∉ pos.fields.map Prod.fst) :
    isNil (tableOf pos.fields x) = true := by
  rw [tableOf_of_not_mem absent]
  rfl

theorem getBBT_eq_ok (isFloat : numbers.single pos.beats_per_bar = pos.beats_per_bar)
    (isFloat' : numbers.single pos.beat_type = pos.beat_type)
    (unset : before.valid &&& jackPositionBBT = 0)
    (isClear : before = { before with
      bar := 0
      beat := 0
      tick := 0
      bar_start_tick := numbers.zero
      beats_per_bar := numbers.zero
      beat_type := numbers.zero
      ticks_per_beat := numbers.zero
      beats_per_minute := numbers.zero }) :
    getBBT numbers (tableOf pos.fields) before = .ok { before with
      valid := before.valid ||| pos.valid &&& jackPositionBBT
      bar := if pos.valid &&& jackPositionBBT ≠ 0 then pos.bar else 0
      beat := if pos.valid &&& jackPositionBBT ≠ 0 then pos.beat else 0
      tick := if pos.valid &&& jackPositionBBT ≠ 0 then pos.tick else 0
      bar_start_tick :=
        if pos.valid &&& jackPositionBBT ≠ 0 then pos.bar_start_tick else numbers.zero
      beats_per_bar :=
        if pos.valid &&& jackPositionBBT ≠ 0 then pos.beats_per_bar else numbers.zero
      beat_type :=
        if pos.valid &&& jackPositionBBT ≠ 0 then pos.beat_type else numbers.zero
      ticks_per_beat :=
        if pos.valid &&& jackPositionBBT ≠ 0 then pos.ticks_per_beat else numbers.zero
      beats_per_minute :=
        if pos.valid &&& jackPositionBBT ≠ 0 then pos.beats_per_minute
          else numbers.zero } := by
  have isBit : IsBit jackPositionBBT := isBit_twoPow 4
  apply getGroup_eq_ok isBit pos.valid unset
  · intro valid
    have bar : ("bar", .integer (pos.bar.signExtend 64)) ∈ pos.fields := by
      simp [Position.fields, valid]
    have beat : ("beat", .integer (pos.beat.signExtend 64)) ∈ pos.fields := by
      simp [Position.fields, valid]
    have tick : ("tick", .integer (pos.tick.signExtend 64)) ∈ pos.fields := by
      simp [Position.fields, valid]
    have bar_start_tick : ("bar_start_tick", .number pos.bar_start_tick) ∈
        pos.fields := by
      simp [Position.fields, valid]
    have beats_per_bar : ("beats_per_bar", .number pos.beats_per_bar) ∈ pos.fields := by
      simp [Position.fields, valid]
    have beat_type : ("beat_type", .number pos.beat_type) ∈ pos.fields := by
      simp [Position.fields, valid]
    have ticks_per_beat : ("ticks_per_beat", .number pos.ticks_per_beat) ∈
        pos.fields := by
      simp [Position.fields, valid]
    have beats_per_minute : ("beats_per_minute", .number pos.beats_per_minute) ∈
        pos.fields := by
      simp [Position.fields, valid]
    simp [isNil_of_mem bar, getInteger_of_mem bar,
      getInteger_of_mem beat, getInteger_of_mem tick,
      getNumber_of_mem bar_start_tick, getNumber_of_mem beats_per_bar,
      getNumber_of_mem beat_type,
      getNumber_of_mem ticks_per_beat, getNumber_of_mem beats_per_minute,
      isFloat, isFloat', valid]
  · intro invalid
    refine ⟨isNil_of_not_mem (by simp [Position.fields, invalid]), ?_⟩
    rw [isClear]
    simp [invalid]

theorem getTimecode_eq_ok (unset : before.valid &&& jackPositionTimecode = 0)
    (isClear : before =
      { before with frame_time := numbers.zero, next_time := numbers.zero }) :
    getTimecode numbers (tableOf pos.fields) before = .ok { before with
      valid := before.valid ||| pos.valid &&& jackPositionTimecode
      frame_time :=
        if pos.valid &&& jackPositionTimecode ≠ 0 then pos.frame_time else numbers.zero
      next_time :=
        if pos.valid &&& jackPositionTimecode ≠ 0 then pos.next_time
          else numbers.zero } := by
  have isBit : IsBit jackPositionTimecode := isBit_twoPow 5
  apply getGroup_eq_ok isBit pos.valid unset
  · intro valid
    have frame_time : ("frame_time", .number pos.frame_time) ∈ pos.fields := by
      simp [Position.fields, valid]
    have next_time : ("next_time", .number pos.next_time) ∈ pos.fields := by
      simp [Position.fields, valid]
    simp [isNil_of_mem frame_time, getNumber_of_mem frame_time,
      getNumber_of_mem next_time, valid]
  · intro invalid
    refine ⟨isNil_of_not_mem (by simp [Position.fields, invalid]), ?_⟩
    rw [isClear]
    simp [invalid]

theorem getBBTOffset_eq_ok (unset : before.valid &&& jackBBTFrameOffset = 0)
    (isClear : before = { before with bbt_offset := 0 }) :
    getBBTOffset numbers (tableOf pos.fields) before = .ok { before with
      valid := before.valid ||| pos.valid &&& jackBBTFrameOffset
      bbt_offset :=
        if pos.valid &&& jackBBTFrameOffset ≠ 0 then pos.bbt_offset else 0 } := by
  have isBit : IsBit jackBBTFrameOffset := isBit_twoPow 6
  apply getGroup_eq_ok isBit pos.valid unset
  · intro valid
    have bbt_offset : ("bbt_offset", .integer (pos.bbt_offset.setWidth 64)) ∈
        pos.fields := by
      simp [Position.fields, valid]
    simp [isNil_of_mem bbt_offset, getInteger_of_mem bbt_offset, valid]
  · intro invalid
    refine ⟨isNil_of_not_mem (by simp [Position.fields, invalid]), ?_⟩
    rw [isClear]
    simp [invalid]

theorem getRatio_eq_ok
    (isFloat : numbers.single pos.audio_frames_per_video_frame =
      pos.audio_frames_per_video_frame)
    (unset : before.valid &&& jackAudioVideoRatio = 0)
    (isClear : before = { before with audio_frames_per_video_frame := numbers.zero }) :
    getRatio numbers (tableOf pos.fields) before = .ok { before with
      valid := before.valid ||| pos.valid &&& jackAudioVideoRatio
      audio_frames_per_video_frame :=
        if pos.valid &&& jackAudioVideoRatio ≠ 0 then pos.audio_frames_per_video_frame
        else numbers.zero } := by
  have isBit : IsBit jackAudioVideoRatio := isBit_twoPow 7
  apply getGroup_eq_ok isBit pos.valid unset
  · intro valid
    have ratio : ("audio_frames_per_video_frame",
        .number pos.audio_frames_per_video_frame) ∈
        pos.fields := by
      simp [Position.fields, valid]
    simp [isNil_of_mem ratio, getNumber_of_mem ratio, isFloat, valid]
  · intro invalid
    refine ⟨isNil_of_not_mem (by simp [Position.fields, invalid]), ?_⟩
    rw [isClear]
    simp [invalid]

theorem getVideoOffset_eq_ok (unset : before.valid &&& jackVideoFrameOffset = 0)
    (isClear : before = { before with video_offset := 0 }) :
    getVideoOffset numbers (tableOf pos.fields) before = .ok { before with
      valid := before.valid ||| pos.valid &&& jackVideoFrameOffset
      video_offset :=
        if pos.valid &&& jackVideoFrameOffset ≠ 0 then pos.video_offset else 0 } := by
  have isBit : IsBit jackVideoFrameOffset := isBit_twoPow 8
  apply getGroup_eq_ok isBit pos.valid unset
  · intro valid
    have video_offset : ("video_offset", .integer (pos.video_offset.setWidth 64)) ∈
        pos.fields := by
      simp [Position.fields, valid]
    simp [isNil_of_mem video_offset, getInteger_of_mem video_offset, valid]
  · intro invalid
    refine ⟨isNil_of_not_mem (by simp [Position.fields, invalid]), ?_⟩
    rw [isClear]
    simp [invalid]

end Groups

/-! ## The round trip -/

section RoundTrip

variable {numbers : Numbers Number}

/-- Different bits of a validity word. -/
theorem and_and_eq_zero {valid first second : BitVec 32}
    (different : first &&& second = 0#32) :
    (valid &&& first) &&& second = 0#32 := by
  rw [BitVec.and_assoc, different, BitVec.and_zero]

theorem valid_of_groups {valid : BitVec 32} (known : valid &&& positionBits = valid) :
    0#32 ||| valid &&& jackPositionBBT ||| valid &&& jackPositionTimecode |||
      valid &&& jackBBTFrameOffset ||| valid &&& jackAudioVideoRatio |||
      valid &&& jackVideoFrameOffset = valid := by
  rw [BitVec.zero_or, ← BitVec.and_or_distrib_left, ← BitVec.and_or_distrib_left,
    ← BitVec.and_or_distrib_left, ← BitVec.and_or_distrib_left]
  exact known

/-- The table of a position is decoded to the position. -/
theorem checkposition_fields (pos : CPosition numbers)
    (known : pos.position.valid &&& positionBits = pos.position.valid) :
    transportCheckposition numbers (some (tableOf pos.position.fields)) =
      .ok (restrict numbers pos.position) := by
  -- The groups that have been read so far do not concern the bit of the next one.
  have bbt : 0#32 &&& jackPositionBBT = 0#32 := BitVec.zero_and
  have timecode : (0#32 ||| pos.position.valid &&& jackPositionBBT) &&&
      jackPositionTimecode =
      0#32 := by
    rw [BitVec.zero_or]
    exact and_and_eq_zero (by decide)
  have bbtOffset : (0#32 ||| pos.position.valid &&& jackPositionBBT |||
      pos.position.valid &&& jackPositionTimecode) &&& jackBBTFrameOffset = 0#32 := by
    simp only [BitVec.zero_or, ← BitVec.and_or_distrib_left]
    exact and_and_eq_zero (by decide)
  have ratio : (0#32 ||| pos.position.valid &&& jackPositionBBT |||
      pos.position.valid &&& jackPositionTimecode |||
        pos.position.valid &&& jackBBTFrameOffset) &&&
      jackAudioVideoRatio = 0#32 := by
    simp only [BitVec.zero_or, ← BitVec.and_or_distrib_left]
    exact and_and_eq_zero (by decide)
  have videoOffset : (0#32 ||| pos.position.valid &&& jackPositionBBT |||
      pos.position.valid &&& jackPositionTimecode |||
        pos.position.valid &&& jackBBTFrameOffset |||
      pos.position.valid &&& jackAudioVideoRatio) &&& jackVideoFrameOffset = 0#32 := by
    simp only [BitVec.zero_or, ← BitVec.and_or_distrib_left]
    exact and_and_eq_zero (by decide)
  refine bind_of_eq_ok (getMandatory_eq_ok _ _) ?_
  refine bind_of_eq_ok (getBBT_eq_ok pos.beats_per_bar pos.beat_type bbt rfl) ?_
  refine bind_of_eq_ok (getTimecode_eq_ok timecode rfl) ?_
  refine bind_of_eq_ok (getBBTOffset_eq_ok bbtOffset rfl) ?_
  refine bind_of_eq_ok (getRatio_eq_ok pos.audio_frames_per_video_frame ratio rfl) ?_
  refine bind_of_eq_ok (getVideoOffset_eq_ok videoOffset rfl) ?_
  refine bind_of_eq_ok (getInteger_unique_2 _) ?_
  have isValid := valid_of_groups known
  simp only [restrict, pure_eq_ok, Except.ok.injEq, Position.mk.injEq, true_and, and_true]
  exact isValid

/-- What is left out does not matter to the table. -/
theorem fields_restrict (pos : Position Number) :
    (restrict numbers pos).fields = pos.fields := by
  have group {α : Type} {valid : Prop} [Decidable valid] {first second : List α}
      (same : valid → first = second) : (if valid then first else []) =
        if valid then second else [] := by
    split
    next holds => exact same holds
    next => rfl
  unfold Position.fields
  refine congrArg₂ (· ++ ·) (congrArg₂ (· ++ ·) (congrArg₂ (· ++ ·) (congrArg₂ (· ++ ·)
    (congrArg₂ (· ++ ·) (congrArg₂ (· ++ ·) rfl ?_) ?_) ?_) ?_) ?_) rfl
  all_goals
    apply group
    intro valid
    change pos.valid &&& _ ≠ 0 at valid
    simp only [restrict, if_pos valid]

/-- Decoding the table of a position gives the position, with zeros in the fields of
invalid groups, and encoding it again gives the same table. -/
theorem position_decoded (pos : CPosition numbers)
    (known : pos.position.valid &&& positionBits = pos.position.valid) :
    ∃ fields, Pushes pos.position fields ∧
      transportCheckposition numbers (some (tableOf fields)) =
        .ok (restrict numbers pos.position) ∧
      Pushes (restrict numbers pos.position) fields := by
  have again := pushes_fields (restrict numbers pos.position)
  rw [fields_restrict] at again
  exact ⟨_, pushes_fields _, checkposition_fields pos known, again⟩

end RoundTrip

/-- Whole numbers, which all have single precision. -/
def wholeNumbers : Numbers Int where
  zero := 0
  single := id
  ofInteger := BitVec.toInt
  toInteger := fun number => some (BitVec.ofInt 64 number)
  ofString := fun _ => none

/-- The second bar of a measure of four beats. -/
def secondBar : CPosition wholeNumbers where
  position :=
    { clear wholeNumbers with
      unique_1 := 7
      frame_rate := 48000
      frame := 96000
      valid := jackPositionBBT
      bar := 2
      beat := 1
      bar_start_tick := 7680
      beats_per_bar := 4
      beat_type := 4
      ticks_per_beat := 1920
      beats_per_minute := 120
      unique_2 := 7 }
  beats_per_bar := rfl
  beat_type := rfl
  audio_frames_per_video_frame := rfl

theorem position_decoded_secondBar :
    ∃ fields, Pushes secondBar.position fields ∧
      transportCheckposition wholeNumbers (some (tableOf fields)) =
        .ok (restrict wholeNumbers secondBar.position) ∧
      Pushes (restrict wholeNumbers secondBar.position) fields :=
  position_decoded secondBar (by decide)

end LuaJack.Transport
