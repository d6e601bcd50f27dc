import LuaJack.Object.Xmove
import LuaJack.RealTime.Wrappers

/-!
# Positions from Lua

`transport_checkposition` makes a position of a table.  The validity bits are not in the
table: each optional group of fields is valid if one of its fields is present. -/

namespace LuaJack.Transport

open Scripts (Datum)

variable {Number : Type}

/-- What Lua and C make of numbers that are no integers. -/
structure Numbers (Number : Type) where
  zero : Number
  /-- The conversion to `float`, and back. -/
  single : Number → Number
  ofInteger : LuaInteger → Number
  /-- The integer that a number is equal to. -/
  toInteger : Number → Option LuaInteger
  /-- `lua_stringtonumber`. -/
  ofString : List UInt8 → Option (Field Number)

/-! ## Tables -/

/-- The fields of a table. -/
abbrev LuaTable (Number : Type) := String → Datum Number

/-- The number as a Lua value. -/
def datum : Field Number → Datum Number
  | .integer value => .integer value
  | .number value => .float value

/-- `lua_setfield`. -/
def setfield (table : LuaTable Number) (field : String × Field Number) :
    LuaTable Number :=
  Function.update table field.1 (datum field.2)

/-- The table after its fields have been set one after the other. -/
def tableOf (fields : List (String × Field Number)) : LuaTable Number :=
  fields.foldl setfield fun _ => .nil

/-- `lua_isnil`. -/
def isNil : Datum Number → Bool
  | .nil => true
  | _ => false

section Checks

variable (numbers : Numbers Number)

/-- The number that a value is or can be converted to. -/
def numeric : Datum Number → Option (Field Number)
  | .integer value => some (.integer value)
  | .float value => some (.number value)
  | .string bytes => numbers.ofString bytes
  | _ => none

/-- The error of `luaL_checkinteger` and `luaL_checknumber` if the value on the top is no
number. -/
def typeError (value : Datum Number) : String :=
  s!"bad argument #-1 (number expected, got {value.typename})"

/-- `luaL_checkinteger` of the value on the top. -/
def checkinteger (value : Datum Number) : Except String LuaInteger :=
  match numeric numbers value with
  | some (.integer integer) => .ok integer
  | some (.number number) =>
      match numbers.toInteger number with
      | some integer => .ok integer
      | none => .error "bad argument #-1 (number has no integer representation)"
  | none => .error (typeError value)

/-- `luaL_checknumber` of the value on the top. -/
def checknumber (value : Datum Number) : Except String Number :=
  match numeric numbers value with
  | some (.integer integer) => .ok (numbers.ofInteger integer)
  | some (.number number) => .ok number
  | none => .error (typeError value)

/-! ## `transport_checkposition` -/

/-- A position after `memset`. -/
def clear : Position Number where
  unique_1 := 0
  usecs := 0
  frame_rate := 0
  frame := 0
  valid := 0
  bar := 0
  beat := 0
  tick := 0
  bar_start_tick := numbers.zero
  beats_per_bar := numbers.zero
  beat_type := numbers.zero
  ticks_per_beat := numbers.zero
  beats_per_minute := numbers.zero
  frame_time := numbers.zero
  next_time := numbers.zero
  bbt_offset := 0
  audio_frames_per_video_frame := numbers.zero
  video_offset := 0
  unique_2 := 0

variable (table : LuaTable Number)

/-- `GetInteger`, before the assignment. -/
def getInteger (x : String) : Except String LuaInteger := checkinteger numbers (table x)

/-- `GetNumber`, before the assignment. -/
def getNumber (x : String) : Except String Number := checknumber numbers (table x)

/-- `GetValid`. -/
def getValid (bit : BitVec 32) (x : String) (pos : Position Number) : Position Number :=
  if isNil (table x) then pos else { pos with valid := pos.valid ||| bit }

/-- An optional group of fields: its bit, the field that stands for it, and the others. -/
def getGroup (bit : BitVec 32) (x : String)
    (fields : Position Number → Except String (Position Number)) (pos : Position Number) :
    Except String (Position Number) :=
  let pos := getValid table bit x pos
  if pos.valid &&& bit ≠ 0 then fields pos else .ok pos

/-- The fields that are mandatory, apart from the last one. -/
def getMandatory (pos : Position Number) : Except String (Position Number) := do
  let unique_1 ← getInteger numbers table "unique_1"
  let usecs ← getInteger numbers table "usecs"
  let frame_rate ← getInteger numbers table "frame_rate"
  let frame ← getInteger numbers table "frame"
  return { pos with
    unique_1
    usecs
    frame_rate := frame_rate.setWidth 32
    frame := frame.setWidth 32 }

/-- The group of `JackPositionBBT`. -/
def getBBT : Position Number → Except String (Position Number) :=
  getGroup table jackPositionBBT "bar" fun pos => do
    let bar ← getInteger numbers table "bar"
    let beat ← getInteger numbers table "beat"
    let tick ← getInteger numbers table "tick"
    let bar_start_tick ← getNumber numbers table "bar_start_tick"
    let beats_per_bar ← getNumber numbers table "beats_per_bar"
    let beat_type ← getNumber numbers table "beat_type"
    let ticks_per_beat ← getNumber numbers table "ticks_per_beat"
    let beats_per_minute ← getNumber numbers table "beats_per_minute"
    return { pos with
      bar := bar.setWidth 32
      beat := beat.setWidth 32
      tick := tick.setWidth 32
      bar_start_tick
      beats_per_bar := numbers.single beats_per_bar
      beat_type := numbers.single beat_type
      ticks_per_beat
      beats_per_minute }

/-- The group of `JackPositionTimecode`. -/
def getTimecode : Position Number → Except String (Position Number) :=
  getGroup table jackPositionTimecode "frame_time" fun pos => do
    let frame_time ← getNumber numbers table "frame_time"
    let next_time ← getNumber numbers table "next_time"
    return { pos with frame_time, next_time }

/-- The group of `JackBBTFrameOffset`. -/
def getBBTOffset : Position Number → Except String (Position Number) :=
  getGroup table jackBBTFrameOffset "bbt_offset" fun pos => do
    let bbt_offset ← getInteger numbers table "bbt_offset"
    return { pos with bbt_offset := bbt_offset.setWidth 32 }

/-- The group of `JackAudioVideoRatio`. -/
def getRatio : Position Number → Except String (Position Number) :=
  getGroup table jackAudioVideoRatio "audio_frames_per_video_frame" fun pos => do
    let ratio ← getNumber numbers table "audio_frames_per_video_frame"
    return { pos with audio_frames_per_video_frame := numbers.single ratio }

/-- The group of `JackVideoFrameOffset`. -/
def getVideoOffset : Position Number → Except String (Position Number) :=
  getGroup table jackVideoFrameOffset "video_offset" fun pos => do
    let video_offset ← getInteger numbers table "video_offset"
    return { pos with video_offset := video_offset.setWidth 32 }

/-- `transport_checkposition`, of a table or of another value. -/
def transportCheckposition : Option (LuaTable Number) → Except String (Position Number)
  | none => .error "missing position table"
  | some table => do
      let pos ← getMandatory numbers table (clear numbers)
      let pos ← getBBT numbers table pos
      let pos ← getTimecode numbers table pos
      let pos ← getBBTOffset numbers table pos
      let pos ← getRatio numbers table pos
      let pos ← getVideoOffset numbers table pos
      let unique_2 ← getInteger numbers table "unique_2"
      return { pos with unique_2 }

end Checks

/-! ## What a table holds -/

section Tables

variable {fields : List (String × Field Number)} {x : String} {value : Field Number}

theorem foldl_of_not_mem {table : LuaTable Number} (absent : x ∉ fields.map Prod.fst) :
    fields.foldl setfield table x = table x := by
  induction fields generalizing table with
  | nil => rfl
  | cons field fields ih =>
      rw [List.map_cons, List.mem_cons, not_or] at absent
      rw [List.foldl_cons, ih absent.2, setfield, Function.update_of_ne absent.1]

theorem tableOf_of_not_mem (absent : x ∉ fields.map Prod.fst) : tableOf fields x = .nil :=
  foldl_of_not_mem absent

theorem foldl_of_mem {table : LuaTable Number} (distinct : (fields.map Prod.fst).Nodup)
    (member : (x, value) ∈ fields) :
    fields.foldl setfield table x = datum value := by
  induction fields generalizing table with
  | nil => cases member
  | cons field fields ih =>
      rw [List.map_cons, List.nodup_cons] at distinct
      rw [List.foldl_cons]
      rcases List.mem_cons.mp member with rfl | member
      · rw [foldl_of_not_mem distinct.1, setfield, Function.update_self]
      · exact ih distinct.2 member

/-- A field has the value that it has been set to, if no field is set twice. -/
theorem tableOf_of_mem (distinct : (fields.map Prod.fst).Nodup)
    (member : (x, value) ∈ fields) :
    tableOf fields x = datum value :=
  foldl_of_mem distinct member

end Tables

end LuaJack.Transport
