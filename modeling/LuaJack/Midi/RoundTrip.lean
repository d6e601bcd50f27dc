import LuaJack.Checked
import LuaJack.Midi.Format
import Mathlib.Data.List.Nodup

/-!
# Encoding and decoding

Every encoder checks its arguments and gives the bytes of the message that they
describe, so that the decoder gives the arguments back, and a decoded message is
encoded again to the same bytes.
-/

namespace LuaJack.Midi

/-! ## Tables -/

/-- Controllers have data bytes as numbers, each of them only once. -/
theorem controllers_numbers :
    (controllers.map Prod.fst).Nodup ∧ ∀ entry ∈ controllers, Data entry.1 := by
  decide

theorem mem_controllers {name : String} {number : Int}
    (found : controllerToNumber name = some number) : (number, name) ∈ controllers := by
  obtain ⟨entry, lookup, rfl⟩ := Option.map_eq_some_iff.mp found
  have named : entry.2 = name := by simpa using List.find?_some lookup
  rw [← named]
  exact List.mem_of_find?_eq_some lookup

theorem exists_controllerToNumber {name : String} {number : Int}
    (member : (number, name) ∈ controllers) :
    ∃ number, controllerToNumber name = some number := by
  have isSome : (controllerToNumber name).isSome := by
    rw [controllerToNumber, Option.isSome_map, List.find?_isSome]
    exact ⟨_, member, by simp⟩
  exact Option.isSome_iff_exists.mp isSome

theorem numberToController_of_mem {name : String} {number : Int}
    (member : (number, name) ∈ controllers) : numberToController number = some name := by
  have isSome : (controllers.find? fun entry => entry.1 = number).isSome :=
    List.find?_isSome.mpr ⟨_, member, by simp⟩
  obtain ⟨entry, lookup⟩ := Option.isSome_iff_exists.mp isSome
  have numbered : entry.1 = number := by simpa using List.find?_some lookup
  have same : entry = (number, name) :=
    List.inj_on_of_nodup_map controllers_numbers.1
      (List.mem_of_find?_eq_some lookup) member numbered
  rw [numberToController, lookup, same]
  rfl

/-! ## Checks -/

theorem assertf_checked (condition : Prop) [Decidable condition] (errmsg : String) :
    Checked (assertf condition errmsg) condition ⟨⟩ where
  succeeds holds := if_pos holds
  raises fails := ⟨errmsg, if_neg fails⟩

theorem packFrom_checked (values : List Int) (argument : Nat) :
    Checked (packFrom argument values) (∀ value ∈ values, 0 ≤ value ∧ value < 256)
      (toBytes values) := by
  induction values generalizing argument with
  | nil => exact .of_ok rfl (by simp)
  | cons value values ih =>
      have packed : Checked (packFrom argument (value :: values)) _
          (toBytes (value :: values)) :=
        (assertf_checked _ _).bind fun _ =>
          (ih (argument + 1)).bind fun _ => Checked.of_ok rfl trivial
      exact packed.congr (by simp) fun _ => rfl

/-- Numbers that fit in a byte are packed. -/
theorem pack_checked {values : List Int}
    (fit : ∀ value ∈ values, 0 ≤ value ∧ value < 256) :
    Checked (pack values) True (toBytes values) :=
  (packFrom_checked values 2).congr (iff_true_intro fit) fun _ => rfl

theorem checkChannel_checked (chan : Int) :
    Checked (checkChannel chan) (Channel chan) ⟨⟩ :=
  assertf_checked _ _

theorem checkData_checked (what : String) (value : Int) :
    Checked (checkData what value) (Data value) ⟨⟩ :=
  assertf_checked _ _

theorem checkNumber_checked (number : Int) :
    Checked (checkNumber number) (0 < number ∧ number ≤ 128) ⟨⟩ :=
  assertf_checked _ _

theorem checkValue_checked (value : Int) :
    Checked (checkValue value) (0 ≤ value ∧ value ≤ 0x3fff) ⟨⟩ :=
  assertf_checked _ _

/-! ## Calls of the encoders -/

namespace Argument

/-- The number of the controller that the argument stands for. -/
def number : Argument → Option Int
  | integer number => some number
  | string name => controllerToNumber name

/-- The name of the controller that the argument stands for. -/
def controller : Argument → Option String
  | integer number => numberToController number
  | string name => some name

/-- A number from 0 to 127 or the name of a controller. -/
def IsControl : Argument → Prop
  | integer number => Data number
  | string name => ∃ number, (number, name) ∈ controllers

/-- The value that the argument of a control change stands for. -/
def value : Option Argument → Option Int
  | none => some 0
  | some (integer value) => some value
  | some (string text) =>
      if text = "on" then some 127 else if text = "off" then some 0 else none

/-- A number from 0 to 127, `"on"` or `"off"`, or no argument. -/
def IsValue : Option Argument → Prop
  | none => True
  | some (integer value) => Data value
  | some (string text) => text = "on" ∨ text = "off"

theorem controlNumber_checked (control : Argument) :
    Checked (controlNumber control) control.IsControl (control.number.getD 0) := by
  cases control with
  | integer number =>
      have checked : Checked (controlNumber (integer number))
          (Data number ∧ True) number :=
        (checkData_checked _ _).bind fun _ => .of_ok rfl trivial
      exact checked.congr (iff_of_eq (and_true _)) fun _ => rfl
  | string name =>
      unfold controlNumber
      cases found : controllerToNumber name with
      | some number =>
          exact .of_ok (by simp [Argument.number, found]) ⟨number, mem_controllers found⟩
      | none =>
          refine .of_error (by simp only [found]; rfl) ?_
          rintro ⟨number, member⟩
          obtain ⟨_, known⟩ := exists_controllerToNumber member
          rw [found] at known
          cases known

theorem controlValue_checked (argument : Option Argument) :
    Checked (controlValue argument) (IsValue argument) ((value argument).getD 0) := by
  match argument with
  | none => exact .of_ok rfl trivial
  | some (integer given) =>
      have checked : Checked (controlValue (some (integer given)))
          (Data given ∧ True) given :=
        (checkData_checked _ _).bind fun _ => .of_ok rfl trivial
      exact checked.congr (iff_of_eq (and_true _)) fun _ => rfl
  | some (string text) =>
      by_cases on : text = "on"
      · exact .of_ok (by simp [controlValue, value, on]) (.inl on)
      · by_cases off : text = "off"
        · exact .of_ok (by simp [controlValue, value, off]) (.inr off)
        · exact .of_error (by simp [controlValue, on, off]; rfl)
            (by simp [IsValue, on, off])

/-- A control is a controller: it has a number, and its name is the name of the number. -/
theorem isControl_iff {control : Argument} :
    control.IsControl ↔
      ∃ number, control.number = some number ∧ Data number ∧
        control.controller = numberToController number := by
  cases control with
  | integer number => simp [IsControl, Argument.number, controller]
  | string name =>
      constructor
      · rintro ⟨number, member⟩
        obtain ⟨number, found⟩ := exists_controllerToNumber member
        have member := mem_controllers found
        exact ⟨number, found, controllers_numbers.2 _ member,
          (numberToController_of_mem member).symm⟩
      · rintro ⟨number, found, _⟩
        exact ⟨number, mem_controllers found⟩

theorem isValue_iff {argument : Option Argument} :
    IsValue argument ↔ ∃ value, Argument.value argument = some value ∧ Data value := by
  match argument with
  | none => exact iff_of_true trivial ⟨0, rfl, by decide⟩
  | some (integer given) => simp [IsValue, value]
  | some (string text) =>
      by_cases on : text = "on"
      · exact iff_of_true (.inl on) ⟨127, by simp [value, on], by decide⟩
      · by_cases off : text = "off"
        · exact iff_of_true (.inr off) ⟨0, by simp [value, off], by decide⟩
        · simp [IsValue, value, on, off]

end Argument

/-- A velocity, or none for the default, is in its range where the velocity that is
used is. -/
theorem data_velocity {velocity : Option Int} :
    (∀ given ∈ velocity, Data given) ↔ Data (velocity.getD 64) := by
  cases velocity with
  | none => exact iff_of_true (by simp) (by decide)
  | some given => simp

/-- A call of an encoder with its arguments. -/
inductive Call where
  | noteOff (chan key : Int) (velocity : Option Int)
  | noteOn (chan key : Int) (velocity : Option Int)
  | aftertouch (chan key pressure : Int)
  | controlChange (chan : Int) (control : Argument) (value : Option Argument)
  | programChange (chan number : Int)
  | channelPressure (chan pressure : Int)
  | pitchWheel (chan value : Int)
  | mtcQuarterFrame (nnn dddd : Int)
  | songPosition (value : Int)
  | songSelect (number : Int)
  | tuneRequest | endOfExclusive | clock | start |
    «continue» | stop | activeSensing | reset
  deriving DecidableEq, Repr

namespace Call

/-- Call the encoder. -/
def encode : Call → Except String Message
  | noteOff chan key velocity => Midi.noteOff chan key velocity
  | noteOn chan key velocity => Midi.noteOn chan key velocity
  | aftertouch chan key pressure => Midi.aftertouch chan key pressure
  | controlChange chan control value => Midi.controlChange chan control value
  | programChange chan number => Midi.programChange chan number
  | channelPressure chan pressure => Midi.channelPressure chan pressure
  | pitchWheel chan value => Midi.pitchWheel chan value
  | mtcQuarterFrame nnn dddd => Midi.mtcQuarterFrame nnn dddd
  | songPosition value => Midi.songPosition value
  | songSelect number => Midi.songSelect number
  | tuneRequest => Midi.tuneRequest
  | endOfExclusive => Midi.endOfExclusive
  | clock => Midi.clock
  | start => Midi.start
  | «continue» => Midi.continue
  | stop => Midi.stop
  | activeSensing => Midi.activeSensing
  | reset => Midi.reset

/-- The kind of message that the encoder makes. -/
def kind : Call → Kind
  | noteOff .. => .noteOff
  | noteOn .. => .noteOn
  | aftertouch .. => .aftertouch
  | controlChange .. => .controlChange
  | programChange .. => .programChange
  | channelPressure .. => .channelPressure
  | pitchWheel .. => .pitchWheel
  | mtcQuarterFrame .. => .mtcQuarterFrame
  | songPosition .. => .songPosition
  | songSelect .. => .songSelect
  | tuneRequest => .tuneRequest
  | endOfExclusive => .endOfExclusive
  | clock => .clock
  | start => .start
  | «continue» => .continue
  | stop => .stop
  | activeSensing => .activeSensing
  | reset => .reset

/-- The channel among the arguments. -/
def chan : Call → Option Int
  | noteOff chan .. | noteOn chan .. | aftertouch chan .. | controlChange chan ..
  | programChange chan _ | channelPressure chan _ | pitchWheel chan _ => some chan
  | _ => none

/-- The parameters that the arguments stand for, with their defaults. -/
def par : Call → Option Parameters
  | noteOff _ key velocity | noteOn _ key velocity => some (.kv key (velocity.getD 64))
  | aftertouch _ key pressure => some (.kp key pressure)
  | controlChange _ control value => do
      some (.cc (← control.number) (← Argument.value value) control.controller)
  | programChange _ number | songSelect number => some (.n number)
  | channelPressure _ pressure => some (.p pressure)
  | pitchWheel _ value | songPosition value => some (.v (value % 128) (value / 128) value)
  | mtcQuarterFrame nnn dddd => some (.mtcqf nnn dddd (nnn * 16 + dddd))
  | _ => none

/-- The documented ranges of the arguments. -/
def InRange : Call → Prop
  | noteOff chan key velocity | noteOn chan key velocity =>
      Channel chan ∧ Data key ∧ ∀ given ∈ velocity, Data given
  | aftertouch chan key pressure => Channel chan ∧ Data key ∧ Data pressure
  | controlChange chan control value =>
      Channel chan ∧ control.IsControl ∧ Argument.IsValue value
  | programChange chan number => Channel chan ∧ 1 ≤ number ∧ number ≤ 128
  | channelPressure chan pressure => Channel chan ∧ Data pressure
  | pitchWheel chan value => Channel chan ∧ 0 ≤ value ∧ value ≤ 16383
  | mtcQuarterFrame nnn dddd => (0 ≤ nnn ∧ nnn ≤ 7) ∧ 0 ≤ dddd ∧ dddd ≤ 15
  | songPosition value => 0 ≤ value ∧ value ≤ 16383
  | songSelect number => 1 ≤ number ∧ number ≤ 128
  | _ => True

theorem fits_controlChange {chan : Int} {control : Argument} {value : Option Argument} :
    control.IsControl ∧ Argument.IsValue value ↔
      Layout.cc.Fits (controlChange chan control value).par := by
  rw [Argument.isControl_iff, Argument.isValue_iff]
  simp only [Call.par]
  constructor
  · rintro ⟨⟨number, numbered, numberData, named⟩, given, valued, valueData⟩
    rw [numbered, valued]
    exact Layout.Fits.cc_iff.mpr ⟨numberData, valueData, named⟩
  · intro fits
    cases numbered : control.number with
    | none => rw [numbered] at fits; cases fits
    | some number =>
        cases valued : Argument.value value with
        | none => rw [numbered, valued] at fits; cases fits
        | some given =>
            rw [numbered, valued] at fits
            obtain ⟨numberData, valueData, named⟩ := Layout.Fits.cc_iff.mp fits
            exact ⟨⟨number, rfl, numberData, named⟩, given, rfl, valueData⟩

theorem fits_number {number : Int} :
    1 ≤ number ∧ number ≤ 128 ↔ Layout.n.Fits (some (.n number)) := by
  rw [Layout.Fits.n_iff]
  omega

theorem fits_value {value : Int} :
    0 ≤ value ∧ value ≤ 16383 ↔
      Layout.v.Fits (some (.v (value % 128) (value / 128) value)) := by
  rw [Layout.Fits.v_iff]
  simp only [Data, lsbmsbtonum]
  omega

theorem fits_quarterFrame {nnn dddd : Int} :
    (0 ≤ nnn ∧ nnn ≤ 7) ∧ 0 ≤ dddd ∧ dddd ≤ 15 ↔
      Layout.mtcqf.Fits (some (.mtcqf nnn dddd (nnn * 16 + dddd))) := by
  rw [Layout.Fits.mtcqf_iff]
  omega

/-- The arguments are in their ranges where a message can carry what they stand for. -/
theorem inRange_iff (call : Call) :
    call.InRange ↔ call.kind.Chan call.chan ∧ call.kind.layout.Fits call.par := by
  cases call with
  | noteOff _ _ _ =>
      exact and_congr (Kind.chan_some rfl).symm
        ((and_congr_right' data_velocity).trans Layout.Fits.kv_iff.symm)
  | noteOn _ _ _ =>
      exact and_congr (Kind.chan_some rfl).symm
        ((and_congr_right' data_velocity).trans Layout.Fits.kv_iff.symm)
  | aftertouch _ _ _ => exact and_congr (Kind.chan_some rfl).symm Layout.Fits.kp_iff.symm
  | controlChange _ _ _ => exact and_congr (Kind.chan_some rfl).symm fits_controlChange
  | programChange _ _ => exact and_congr (Kind.chan_some rfl).symm fits_number
  | channelPressure _ _ =>
      exact and_congr (Kind.chan_some rfl).symm Layout.Fits.p_iff.symm
  | pitchWheel _ _ => exact and_congr (Kind.chan_some rfl).symm fits_value
  | mtcQuarterFrame _ _ => exact fits_quarterFrame.trans (Kind.and_system rfl)
  | songPosition _ => exact fits_value.trans (Kind.and_system rfl)
  | songSelect _ => exact fits_number.trans (Kind.and_system rfl)
  | _ => exact iff_of_true trivial ⟨.system rfl, .nodata⟩

/-- What the arguments in their ranges stand for. -/
def content (call : Call) (inRange : call.InRange) : Content where
  kind := call.kind
  chan := call.chan
  par := call.par
  channel := (call.inRange_iff.mp inRange).1
  parameters := (call.inRange_iff.mp inRange).2

theorem pack_content (call : Call) (inRange : call.InRange) :
    Checked (pack (call.kind.status call.chan :: Parameters.data call.par)) True
      (toBytes (call.kind.status call.chan :: Parameters.data call.par)) :=
  pack_checked (call.content inRange).fit

theorem encodeKey_checked (type : Int) (what : String) (chan key value : Int)
    (packed : Channel chan → Data key → Data value →
      Checked (pack [type + chan - 1, key, value]) True
        (toBytes [type + chan - 1, key, value])) :
    Checked (encodeKey type what chan key value)
      (Channel chan ∧ Data key ∧ Data value ∧ True)
        (toBytes [type + chan - 1, key, value]) :=
  (checkChannel_checked chan).bind fun channel =>
    (checkData_checked "key" key).bind fun keyData =>
      (checkData_checked what value).bind fun valueData =>
        packed channel keyData valueData

theorem data_controlChange {chan : Int} {control : Argument} {value : Option Argument}
    (isControl : control.IsControl) (isValue : Argument.IsValue value) :
    Parameters.data (controlChange chan control value).par =
      [control.number.getD 0, (Argument.value value).getD 0] := by
  obtain ⟨number, numbered, _⟩ := Argument.isControl_iff.mp isControl
  obtain ⟨given, valued, _⟩ := Argument.isValue_iff.mp isValue
  simp only [Call.par, numbered, valued]
  rfl

/-- Every encoder gives the bytes of its message where its arguments are in their
ranges, and raises an error elsewhere. -/
theorem encode_checked (call : Call) :
    Checked call.encode call.InRange
      (toBytes (call.kind.status call.chan :: Parameters.data call.par)) := by
  cases call with
  | noteOff chan key velocity =>
      refine (encodeKey_checked 0x80 "velocity" chan key (velocity.getD 64)
        fun channel keyData valueData => pack_content (noteOff chan key velocity)
          ⟨channel, keyData, data_velocity.mpr valueData⟩).congr ?_ fun _ => rfl
      simp only [and_true, InRange, data_velocity]
  | noteOn chan key velocity =>
      refine (encodeKey_checked 0x90 "velocity" chan key (velocity.getD 64)
        fun channel keyData valueData => pack_content (noteOn chan key velocity)
          ⟨channel, keyData, data_velocity.mpr valueData⟩).congr ?_ fun _ => rfl
      simp only [and_true, InRange, data_velocity]
  | aftertouch chan key pressure =>
      refine (encodeKey_checked 0xa0 "pressure" chan key pressure
        fun channel keyData valueData => pack_content (aftertouch chan key pressure)
          ⟨channel, keyData, valueData⟩).congr ?_ fun _ => rfl
      simp only [and_true, InRange]
  | controlChange chan control value =>
      have packed := fun (inRange : (controlChange chan control value).InRange) =>
        data_controlChange inRange.2.1 inRange.2.2 ▸
          pack_content (controlChange chan control value) inRange
      refine ((checkChannel_checked chan).bind fun channel =>
        (Argument.controlNumber_checked control).bind fun isControl =>
        (Argument.controlValue_checked value).bind fun isValue =>
          packed ⟨channel, isControl, isValue⟩).congr ?_ ?_
      · simp only [and_true, InRange]
      · rintro ⟨_, isControl, isValue, _⟩
        rw [data_controlChange isControl isValue]
  | programChange chan number =>
      refine ((checkChannel_checked chan).bind fun channel =>
        (checkNumber_checked number).bind fun numberBounds =>
          pack_content (programChange chan number)
            ⟨channel, numberBounds⟩).congr ?_ fun _ => rfl
      simp only [and_true, InRange]
      rfl
  | channelPressure chan pressure =>
      refine ((checkChannel_checked chan).bind fun channel =>
        (checkData_checked "pressure" pressure).bind fun pressureData =>
          pack_content (channelPressure chan pressure) ⟨channel, pressureData⟩).congr ?_
            fun _ => rfl
      simp only [and_true, InRange]
  | pitchWheel chan value =>
      refine ((checkChannel_checked chan).bind fun channel =>
        (checkValue_checked value).bind fun valueBounds =>
          pack_content (pitchWheel chan value)
            ⟨channel, valueBounds⟩).congr ?_ fun _ => rfl
      simp only [and_true, InRange]
  | mtcQuarterFrame nnn dddd =>
      refine ((assertf_checked _ _).bind fun nnnBounds => (assertf_checked _ _).bind
        fun ddddBounds => pack_content (mtcQuarterFrame nnn dddd)
          ⟨nnnBounds, ddddBounds⟩).congr ?_ fun _ => rfl
      simp only [and_true, InRange]
  | songPosition value =>
      exact ((checkValue_checked value).bind fun valueBounds =>
        pack_content (songPosition value) valueBounds).congr
          (iff_of_eq (and_true _)) fun _ => rfl
  | songSelect number =>
      exact ((checkNumber_checked number).bind fun numberBounds =>
        pack_content (songSelect number) numberBounds).congr
          (iff_of_eq (and_true _)) fun _ => rfl
  | tuneRequest => exact pack_content tuneRequest trivial
  | endOfExclusive => exact pack_content endOfExclusive trivial
  | clock => exact pack_content clock trivial
  | start => exact pack_content start trivial
  | «continue» => exact pack_content «continue» trivial
  | stop => exact pack_content stop trivial
  | activeSensing => exact pack_content activeSensing trivial
  | reset => exact pack_content reset trivial

/-- A fourteen-bit value is split into the data bytes that it was read from. -/
theorem split_value {lsb msb : Int} (lsbData : Data lsb) :
    some (Parameters.v (lsbmsbtonum lsb msb % 128) (lsbmsbtonum lsb msb / 128)
      (lsbmsbtonum lsb msb)) = some (.v lsb msb (lsbmsbtonum lsb msb)) := by
  have low : lsbmsbtonum lsb msb % 128 = lsb := by
    simp only [Data, lsbmsbtonum] at *
    omega
  have high : lsbmsbtonum lsb msb / 128 = msb := by
    simp only [Data, lsbmsbtonum] at *
    omega
  rw [low, high]

theorem nodata {kind : Kind} {chan : Option Int} {par : Option Parameters}
    (channel : kind.Chan chan) (system : kind.voice = false)
    (parameters : kind.layout.Fits par)
    (isNodata : kind.layout = .nodata) : none = chan ∧ none = par := by
  cases channel.of_system system
  rw [isNodata] at parameters
  cases parameters
  exact ⟨rfl, rfl⟩

/-- Everything that a message can say is said by a call of an encoder. -/
theorem of_content (content : Content) :
    ∃ call : Call, call.kind = content.kind ∧ call.chan = content.chan ∧
      call.par = content.par := by
  obtain ⟨kind, chan, par, channel, parameters⟩ := content
  cases kind with
  | noteOff =>
      obtain ⟨chan, rfl⟩ := channel.of_voice rfl
      cases parameters with
      | @kv key velocity _ _ => exact ⟨noteOff chan key (some velocity), rfl, rfl, rfl⟩
  | noteOn =>
      obtain ⟨chan, rfl⟩ := channel.of_voice rfl
      cases parameters with
      | @kv key velocity _ _ => exact ⟨noteOn chan key (some velocity), rfl, rfl, rfl⟩
  | aftertouch =>
      obtain ⟨chan, rfl⟩ := channel.of_voice rfl
      cases parameters with
      | @kp key pressure _ _ => exact ⟨aftertouch chan key pressure, rfl, rfl, rfl⟩
  | controlChange =>
      obtain ⟨chan, rfl⟩ := channel.of_voice rfl
      cases parameters with
      | @cc number value _ _ =>
          exact ⟨controlChange chan (.integer number) (some (.integer value)),
            rfl, rfl, rfl⟩
  | programChange =>
      obtain ⟨chan, rfl⟩ := channel.of_voice rfl
      cases parameters with
      | @n number _ _ => exact ⟨programChange chan number, rfl, rfl, rfl⟩
  | channelPressure =>
      obtain ⟨chan, rfl⟩ := channel.of_voice rfl
      cases parameters with
      | @p pressure _ => exact ⟨channelPressure chan pressure, rfl, rfl, rfl⟩
  | pitchWheel =>
      obtain ⟨chan, rfl⟩ := channel.of_voice rfl
      cases parameters with
      | @v lsb msb lsbData _ =>
          exact ⟨pitchWheel chan (lsbmsbtonum lsb msb), rfl, rfl, split_value lsbData⟩
  | mtcQuarterFrame =>
      cases channel.of_system rfl
      cases parameters with
      | @mtcqf nnn dddd _ _ _ _ => exact ⟨mtcQuarterFrame nnn dddd, rfl, rfl, rfl⟩
  | songPosition =>
      cases channel.of_system rfl
      cases parameters with
      | @v lsb msb lsbData _ =>
          exact ⟨songPosition (lsbmsbtonum lsb msb), rfl, rfl, split_value lsbData⟩
  | songSelect =>
      cases channel.of_system rfl
      cases parameters with
      | @n number _ _ => exact ⟨songSelect number, rfl, rfl, rfl⟩
  | tuneRequest => exact ⟨tuneRequest, rfl, nodata channel rfl parameters rfl⟩
  | endOfExclusive => exact ⟨endOfExclusive, rfl, nodata channel rfl parameters rfl⟩
  | clock => exact ⟨clock, rfl, nodata channel rfl parameters rfl⟩
  | start => exact ⟨start, rfl, nodata channel rfl parameters rfl⟩
  | «continue» => exact ⟨«continue», rfl, nodata channel rfl parameters rfl⟩
  | stop => exact ⟨stop, rfl, nodata channel rfl parameters rfl⟩
  | activeSensing => exact ⟨activeSensing, rfl, nodata channel rfl parameters rfl⟩
  | reset => exact ⟨reset, rfl, nodata channel rfl parameters rfl⟩

end Call

/-- The encoders and the decoder are inverse to each other. -/
theorem encode_decode_inverse :
    (∀ call : Call,
      ((∃ errmsg, call.encode = .error errmsg) ↔ ¬ call.InRange) ∧
      ∀ msg, call.encode = .ok msg →
        (∃ status data, msg = status :: data ∧ 0x80 ≤ status ∧
          ∀ byte ∈ data, byte < 0x80) ∧
        decode msg = .ok (.message call.kind.name call.chan (.ok call.par))) ∧
    ∀ (kind : Kind) (status : UInt8) (data : Message), kind.HasStatus status →
      kind.layout.size ≤ data.length →
        (∀ byte ∈ data.take kind.layout.size, byte < 0x80) →
      ∃ chan par, decode (status :: data) = .ok (.message kind.name chan (.ok par)) ∧
        (∃ call : Call, call.kind = kind ∧ call.chan = chan ∧ call.par = par) ∧
        ∀ call : Call, call.kind = kind → call.chan = chan → call.par = par →
          call.encode = .ok ((status :: data).take (1 + kind.layout.size)) := by
  constructor
  · intro call
    refine ⟨call.encode_checked.raises_iff, ?_⟩
    intro msg encoded
    obtain ⟨inRange, msgEq⟩ := call.encode_checked.eq_ok encoded
    have decoded := (call.content inRange).decode_bytes []
    rw [List.append_nil] at decoded
    rw [msgEq]
    exact ⟨(call.content inRange).bytes_shape, decoded⟩
  · intro kind status data has enough small
    obtain ⟨content, rfl, bytes⟩ := Content.of_message has enough small
    refine ⟨content.chan, content.par, ?_, Call.of_content content, ?_⟩
    · have whole : content.bytes ++ (status :: data).drop (1 + content.kind.layout.size) =
          status :: data := by
        rw [bytes, List.take_append_drop]
      rw [← whole, content.decode_bytes]
    · intro call kind chan par
      rw [← bytes, Content.bytes, ← kind, ← chan, ← par]
      apply call.encode_checked.succeeds
      rw [call.inRange_iff, kind, chan, par]
      exact ⟨content.channel, content.parameters⟩

/-- A velocity left out is decoded as the default, and a message that is followed by
others is encoded again without them. -/
theorem encode_decode_inverse_noteOn :
    decode [0x90, 60, 64] = .ok (.message "note on" (some 1) (.ok (some (.kv 60 64)))) ∧
      noteOn 1 60 (some 64) = .ok [0x90, 60, 64] := by
  have encoded : (Call.noteOn 1 60 none).encode = .ok [0x90, 60, 64] := by decide
  have decoded := ((encode_decode_inverse.1 (.noteOn 1 60 none)).2 _ encoded).2
  have small : ∀ byte ∈ ([60, 64] : Message), byte < 0x80 :=
    List.forall_mem_cons.mpr ⟨by decide, List.forall_mem_singleton.mpr (by decide)⟩
  obtain ⟨chan, par, decoded', _, again⟩ :=
    encode_decode_inverse.2 .noteOn 0x90 [60, 64, 0xf8]
    (by decide) (by decide) small
  have valueEq : decode [0x90, 60, 64, 0xf8] =
      .ok (.message "note on" (some 1) (.ok (some (.kv 60 64)))) := by decide
  rw [valueEq] at decoded'
  injection decoded' with same
  injection same with _ chanEq parEq
  injection parEq with parEq
  exact ⟨decoded, again (.noteOn 1 60 (some 64)) rfl chanEq parEq⟩

end LuaJack.Midi
