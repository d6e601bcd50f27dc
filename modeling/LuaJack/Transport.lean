import LuaJack.Images

/-!
# Transport

The state of the transport and the position, as the callbacks of Lua receive them.
-/

namespace LuaJack

/-- `JackPositionBBT`. -/
def jackPositionBBT : BitVec 32 := 0x10

/-- `JackPositionTimecode`. -/
def jackPositionTimecode : BitVec 32 := 0x20

/-- `JackBBTFrameOffset`. -/
def jackBBTFrameOffset : BitVec 32 := 0x40

/-- `JackAudioVideoRatio`. -/
def jackAudioVideoRatio : BitVec 32 := 0x80

/-- `JackVideoFrameOffset`. -/
def jackVideoFrameOffset : BitVec 32 := 0x100

/-- A `jack_position_t`. A `Number` is a `float` or a `double`. -/
structure Position (Number : Type) where
  unique_1 : BitVec 64
  usecs : BitVec 64
  frame_rate : BitVec 32
  frame : BitVec 32
  valid : BitVec 32
  bar : BitVec 32
  beat : BitVec 32
  tick : BitVec 32
  bar_start_tick : Number
  beats_per_bar : Number
  beat_type : Number
  ticks_per_beat : Number
  beats_per_minute : Number
  frame_time : Number
  next_time : Number
  bbt_offset : BitVec 32
  audio_frames_per_video_frame : Number
  video_offset : BitVec 32
  unique_2 : BitVec 64

/-- The value of a field of a table. -/
inductive Field (Number : Type) where
  | integer (value : LuaInteger)
  | number (value : Number)
  deriving DecidableEq

/-- The fields that `transport_pushposition` adds to the table, in this order. Signed
and unsigned numbers of 32 bits are extended. -/
def Position.fields {Number : Type} (pos : Position Number) :
    List (String × Field Number) :=
  let unsigned := fun value : BitVec 32 =>
      (Field.integer (value.setWidth 64) : Field Number)
  let signed := fun value : BitVec 32 =>
      (Field.integer (value.signExtend 64) : Field Number)
  let group := fun (bit : BitVec 32) (fields : List (String × Field Number)) =>
    if pos.valid &&& bit ≠ 0 then fields else []
  [("unique_1", .integer pos.unique_1), ("usecs", .integer pos.usecs),
    ("frame_rate", unsigned pos.frame_rate), ("frame", unsigned pos.frame)] ++
  group jackPositionBBT
    [("bar", signed pos.bar), ("beat", signed pos.beat), ("tick", signed pos.tick),
      ("bar_start_tick", .number pos.bar_start_tick),
      ("beats_per_bar", .number pos.beats_per_bar),
      ("beat_type", .number pos.beat_type),
      ("ticks_per_beat", .number pos.ticks_per_beat),
      ("beats_per_minute", .number pos.beats_per_minute)] ++
  group jackPositionTimecode
    [("frame_time", .number pos.frame_time), ("next_time", .number pos.next_time)] ++
  group jackBBTFrameOffset [("bbt_offset", unsigned pos.bbt_offset)] ++
  group jackAudioVideoRatio
    [("audio_frames_per_video_frame", .number pos.audio_frames_per_video_frame)] ++
  group jackVideoFrameOffset [("video_offset", unsigned pos.video_offset)] ++
  [("unique_2", .integer pos.unique_2)]

/-- The word that `transport_pushstate` pushes for a state, or the message of the error
that it raises. -/
def transportWord (state : BitVec 32) : Except String String :=
  if state = 0 then .ok "stopped"
  else if state = 1 then .ok "rolling"
  else if state = 3 then .ok "starting"
  else .error s!"invalid transport state ({state.toInt})"

end LuaJack
