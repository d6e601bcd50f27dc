import LuaJack.Buffer.Ports

/-!
# The space for MIDI events

`get_buffer` and `MidiWrite` return what JACK reports as the size of the largest event,
less twelve bytes.  `MidiWrite` refuses larger events before it asks JACK, and
`MidiCopy` does not. -/

namespace LuaJack.Buffer

open Atomic

variable {Sample Events : Type}

/-- JACK accepts events of the size that it reports, and smaller ones, at admissible
times. -/
structure MidiApi.Accepts (midi : MidiApi Events)
    (admissible : Events → BitVec 32 → Prop) :
    Prop where
  reserves : ∀ events time length, (midi.eventReserve events time length).isSome = true ↔
    admissible events time ∧ length ≤ (midi.maxEventSize events).toNat
  writes : ∀ events event, (midi.eventWrite events event).isSome = true ↔
    admissible events event.time ∧ event.buffer.length ≤ (midi.maxEventSize events).toNat

/-! ## Writing one event after the other -/

/-- The arguments of a call of `MidiWrite`. -/
structure WriteArguments where
  time : CheckInteger
  data : Except String (List UInt8)

/-- A MIDI output port, and the space that the script has been told last. -/
structure Writing (Sample Events : Type) where
  pud : Pud Sample Events
  space : LuaInteger

/-- The space that a call returns when it has accepted an event. -/
def acceptedSpace : Except String (List (Value Sample)) → Option LuaInteger
  | .ok [.integer space] => some space
  | _ => none

/-- The script calls `MidiWrite`. -/
def writes (midi : MidiApi Events) : Machine WriteArguments (Writing Sample Events) :=
  fun args writing =>
    let (result, pud) := midiWrite midi args.time args.data writing.pud
    some ⟨pud, (acceptedSpace result).getD writing.space⟩

namespace Writing

variable (midi : MidiApi Events) (writing : Writing Sample Events)

/-- The space is between zero and what JACK reports. -/
def InRange : Prop :=
  ∀ memory, writing.pud.buf = some memory → 0 ≤ writing.space.toInt ∧
    writing.space.toInt ≤ (midi.maxEventSize memory.events).toNat

/-- What JACK reports leaves room for a time and a size, and is in the range of Lua
integers then. -/
def Roomy : Prop :=
  ∀ memory, writing.pud.buf = some memory → 12 ≤ (midi.maxEventSize memory.events).toNat ∧
    (midi.maxEventSize memory.events).toNat < 9223372036854775820

end Writing

/-- The next call accepts an event if there is the space for it that the script has been
told, and if `jack_midi_event_write` would accept it. -/
def Honoured (midi : MidiApi Events) (admissible : Events → BitVec 32 → Prop)
    (args : WriteArguments) (writing : Writing Sample Events) : Prop :=
  ∀ memory time data, writing.pud.buf = some memory → args = ⟨.ok time, .ok data⟩ →
    1 ≤ data.length →
    (admissible memory.events (time.setWidth 32) →
      ((acceptedSpace (midiWrite midi args.time args.data writing.pud).1).isSome = true ↔
        data.length ≤ writing.space.toInt)) ∧
    ((acceptedSpace (midiWrite midi args.time args.data writing.pud).1).isSome = true ↔
      (midi.eventWrite memory.events ⟨time.setWidth 32, data⟩).isSome = true)

/-- An event is not one of those for which only the time and the size leave no room. -/
def Clear (midi : MidiApi Events) (admissible : Events → BitVec 32 → Prop)
    (args : WriteArguments) (writing : Writing Sample Events) : Prop :=
  ∀ memory time data, writing.pud.buf = some memory → args = ⟨.ok time, .ok data⟩ →
    1 ≤ data.length → admissible memory.events (time.setWidth 32) →
    data.length + 12 ≤ (midi.maxEventSize memory.events).toNat ∨
      (midi.maxEventSize memory.events).toNat < data.length

/-! ## What the space is -/

section Space

variable {midi : MidiApi Events} {pud : Pud Sample Events} {memory : Memory Sample Events}

/-- The script has been told the space in the buffer of an output port. -/
structure Writing.Told (midi : MidiApi Events)
    (writing : Writing Sample Events) : Prop where
  direction : writing.pud.direction = .output
  buf : ∃ memory, writing.pud.buf = some memory ∧
    writing.space = midiSpace midi memory.events

theorem midiSpace_toNat (events : Events)
    (roomy : 12 ≤ (midi.maxEventSize events).toNat) :
    (midiSpace midi events).toNat = (midi.maxEventSize events).toNat - 12 := by
  unfold midiSpace
  bv_omega

/-- The space of a port whose buffer has just been retrieved. -/
theorem told_getBuffer {nframes : BitVec 32} {buf : Option (Memory Sample Events)}
    {values : List (Value Sample)} {after : Pud Sample Events} (type : pud.type = .midi)
    (direction : pud.direction = .output)
    (isOk : getBuffer midi nframes buf pud = (.ok values, after)) :
    ∃ space, values = [.integer space] ∧ Writing.Told midi ⟨after, space⟩ := by
  rcases pud with ⟨valid, owner, _, _, old, oldNframes, bufp, touched⟩
  cases type
  cases direction
  cases old with
  | some memory => cases isOk
  | none =>
      cases buf with
      | none => cases isOk
      | some memory =>
          cases isOk
          exact ⟨_, rfl, rfl, _, rfl, rfl⟩

/-- What a call of `MidiWrite` does. -/
theorem midiWrite_eq (direction : pud.direction = .output) (buf : pud.buf = some memory)
    (time : LuaInteger) {data : List UInt8} (nonempty : 1 ≤ data.length) :
    midiWrite midi (.ok time) (.ok data) pud =
      if (midiSpace midi memory.events).toNat < data.length then (.ok [], pud)
      else
        match midi.eventReserve memory.events (time.setWidth 32) data.length with
        | none => (.ok [], pud)
        | some reserved =>
            (.ok [.integer (midiSpace midi (reserved data))],
              { pud with buf := some { memory with events := reserved data } }) := by
  unfold midiWrite
  rw [Fallible.bind_of_ok (checkBuffer_of_buf buf),
    Fallible.bind_of_ok (checkIsOutput_of_output direction)]
  simp only
  rw [if_neg (Nat.ne_of_gt nonempty)]
  split
  · rfl
  · cases midi.eventReserve memory.events (time.setWidth 32) data.length with
    | none => rfl
    | some reserved => rfl

/-- A call of `MidiWrite` accepts an event, and returns the space that is left, or it
changes nothing. -/
theorem midiWrite_cases (direction : pud.direction = .output)
    (buf : pud.buf = some memory) (args : WriteArguments) :
    (∃ result, acceptedSpace result = none ∧
      midiWrite midi args.time args.data pud = (result, pud)) ∨
    ∃ events, midiWrite midi args.time args.data pud =
      (.ok [.integer (midiSpace midi events)],
        { pud with buf := some { memory with events } }) := by
  unfold midiWrite
  rw [Fallible.bind_of_ok (checkBuffer_of_buf buf),
    Fallible.bind_of_ok (checkIsOutput_of_output direction)]
  simp only
  cases args.time with
  | error message => exact .inl ⟨.error message, rfl, rfl⟩
  | ok time =>
      cases args.data with
      | error message => exact .inl ⟨.error message, rfl, rfl⟩
      | ok data =>
          simp only
          split
          · exact .inl ⟨.error _, rfl, rfl⟩
          · split
            · exact .inl ⟨.ok [], rfl, rfl⟩
            · cases midi.eventReserve memory.events (time.setWidth 32) data.length with
              | none => exact .inl ⟨.ok [], rfl, rfl⟩
              | some reserved => exact .inr ⟨reserved data, rfl⟩

/-- What the script has been told stays the space that there is. -/
theorem told_step {args : WriteArguments} {writing next : Writing Sample Events}
    (told : writing.Told midi) (performed : writes midi args writing = some next) :
    next.Told midi := by
  rcases told.buf with ⟨memory, buf, isSpace⟩
  rw [writes] at performed
  rcases midiWrite_cases told.direction buf args with
    ⟨result, isNone, isResult⟩ | ⟨events, isResult⟩
  · rw [isResult] at performed
    simp only [isNone, Option.getD_none] at performed
    cases performed
    exact told
  · rw [isResult] at performed
    cases performed
    exact ⟨told.direction, _, rfl, rfl⟩

/-- The space, as a Lua integer, if what JACK reports leaves room for a time and a
size. -/
theorem midiSpace_toInt {events : Events} (roomy : 12 ≤ (midi.maxEventSize events).toNat)
    (less : (midi.maxEventSize events).toNat < 9223372036854775820) :
    (midiSpace midi events).toInt = (midi.maxEventSize events).toNat - 12 := by
  rw [BitVec.toInt_eq_toNat_cond, midiSpace_toNat events roomy]
  split <;> omega

/-- The space is in range exactly if what JACK reports leaves room for a time and a
size. -/
theorem inRange_iff_roomy {writing : Writing Sample Events} (told : writing.Told midi) :
    writing.InRange midi ↔ writing.Roomy midi := by
  rcases told.buf with ⟨memory, buf, isSpace⟩
  have isInt := BitVec.toInt_eq_toNat_cond (midiSpace midi memory.events)
  have bound := (midi.maxEventSize memory.events).isLt
  have isNat : (midiSpace midi memory.events).toNat =
      ((midi.maxEventSize memory.events).toNat + (2 ^ 64 - 12)) % 2 ^ 64 := by
    unfold midiSpace
    bv_omega
  constructor
  · intro inRange found isFound
    cases buf.symm.trans isFound
    have range := inRange memory buf
    rw [isSpace, isInt, isNat] at range
    split at range <;> omega
  · intro roomy found isFound
    cases buf.symm.trans isFound
    rcases roomy memory buf with ⟨le, less⟩
    rw [isSpace, midiSpace_toInt le less]
    omega

variable {admissible : Events → BitVec 32 → Prop}

/-- If there is room for a time and a size, an event is accepted if it does not need
it. -/
theorem accepted_iff (accepts : midi.Accepts admissible)
    (direction : pud.direction = .output)
    (buf : pud.buf = some memory) (roomy : 12 ≤ (midi.maxEventSize memory.events).toNat)
    (time : LuaInteger) {data : List UInt8} (nonempty : 1 ≤ data.length) :
    (acceptedSpace (midiWrite midi (.ok time) (.ok data) pud).1).isSome = true ↔
      admissible memory.events (time.setWidth 32) ∧
        data.length + 12 ≤ (midi.maxEventSize memory.events).toNat := by
  have reserves := accepts.reserves memory.events (time.setWidth 32) data.length
  rw [midiWrite_eq direction buf time nonempty]
  have isNat := midiSpace_toNat memory.events roomy
  split
  next tooLong =>
    constructor
    · exact fun isSome => absurd isSome Bool.false_ne_true
    · rintro ⟨_, le⟩
      omega
  next fits =>
    cases isReserved : midi.eventReserve memory.events (time.setWidth 32) data.length with
    | none =>
        rw [isReserved] at reserves
        constructor
        · exact fun isSome => absurd isSome Bool.false_ne_true
        · rintro ⟨isAdmissible, le⟩
          exact absurd (reserves.mpr ⟨isAdmissible, by omega⟩) Bool.false_ne_true
    | some reserved =>
        rw [isReserved] at reserves
        constructor
        · exact fun _ => ⟨(reserves.mp rfl).1, by omega⟩
        · exact fun _ => rfl

/-- If there is room for a time and a size, an event is accepted as the script has been
told exactly if it is not one of those for which only they leave no room. -/
theorem honoured_iff_clear (accepts : midi.Accepts admissible) (args : WriteArguments)
    {writing : Writing Sample Events} (told : writing.Told midi)
    (roomy : writing.Roomy midi) :
    Honoured midi admissible args writing ↔ Clear midi admissible args writing := by
  rcases told.buf with ⟨memory, buf, isSpace⟩
  rcases roomy memory buf with ⟨le, less⟩
  constructor
  · intro honoured found time data isFound isArgs nonempty isAdmissible
    cases buf.symm.trans isFound
    have agrees := (honoured memory time data buf isArgs nonempty).2
    rw [isArgs, accepted_iff accepts told.direction buf le time nonempty,
      accepts.writes] at agrees
    by_cases fits : data.length ≤ (midi.maxEventSize memory.events).toNat
    · exact .inl (agrees.mpr ⟨isAdmissible, fits⟩).2
    · exact .inr (Nat.lt_of_not_le fits)
  · intro clear found time data isFound isArgs nonempty
    cases buf.symm.trans isFound
    rw [isArgs, accepted_iff accepts told.direction buf le time nonempty,
      accepts.writes, isSpace, midiSpace_toInt le less]
    constructor
    · intro isAdmissible
      simp only [isAdmissible, true_and]
      omega
    · constructor
      · exact fun accepted => ⟨accepted.1, (Nat.le_add_right _ 12).trans accepted.2⟩
      · rintro ⟨isAdmissible, fits⟩
        refine ⟨isAdmissible, ?_⟩
        rcases clear memory time data buf isArgs nonempty isAdmissible with le | tooLong
        · exact le
        · exact absurd (Nat.lt_of_lt_of_le tooLong fits) (Nat.lt_irrefl _)

end Space

/-- After `get_buffer`, and whatever the script writes, the space is in range and events
are accepted as it says exactly if what JACK reports always leaves room for a time and a
size, and no event is written for which only they leave no room. -/
theorem space_honoured_iff (midi : MidiApi Events)
    (admissible : Events → BitVec 32 → Prop)
    (accepts : midi.Accepts admissible) (nframes : BitVec 32)
    (buf : Option (Memory Sample Events)) (pud after : Pud Sample Events)
    (type : pud.type = .midi) (direction : pud.direction = .output) (space : LuaInteger)
    (isOk : getBuffer midi nframes buf pud = (.ok [.integer space], after))
    (actions : List WriteArguments) :
    (writes midi).Throughout (Writing.InRange midi) actions ⟨after, space⟩ ∧
        (writes midi).Along (Honoured midi admissible) actions ⟨after, space⟩ ↔
      (writes midi).Throughout (Writing.Roomy midi) actions ⟨after, space⟩ ∧
        (writes midi).Along (Clear midi admissible) actions ⟨after, space⟩ := by
  have told : Writing.Told midi ⟨after, space⟩ := by
    rcases told_getBuffer type direction isOk with ⟨other, isOther, told⟩
    cases isOther
    exact told
  have isTold : (writes midi).Throughout (Writing.Told midi) actions ⟨after, space⟩ :=
    Machine.throughout_of_invariant
      (fun _ _ _ told performed => told_step told performed) told
  have ranges : (writes midi).Throughout (Writing.InRange midi) actions ⟨after, space⟩ ↔
      (writes midi).Throughout (Writing.Roomy midi) actions ⟨after, space⟩ :=
    Machine.throughout_congr (fun _ told => inRange_iff_roomy told) isTold
  have agree
      (roomy : (writes midi).Throughout (Writing.Roomy midi) actions ⟨after, space⟩) :
      (writes midi).Along (Honoured midi admissible) actions ⟨after, space⟩ ↔
        (writes midi).Along (Clear midi admissible) actions ⟨after, space⟩ :=
    Machine.along_congr
      (fun args _ both => honoured_iff_clear accepts args both.1 both.2)
      (fun first second middle split run =>
        And.intro (isTold first second middle split run)
          (roomy first second middle split run))
  constructor
  · rintro ⟨inRange, honoured⟩
    have roomy := ranges.mp inRange
    exact ⟨roomy, (agree roomy).mp honoured⟩
  · rintro ⟨roomy, clear⟩
    exact ⟨ranges.mpr roomy, (agree roomy).mpr clear⟩

theorem accepts_lists (size : BitVec 64) :
    (MidiApi.lists size).Accepts fun _ _ => True where
  reserves := by
    intro events time length
    simp only [MidiApi.lists, true_and]
    split
    next fits => exact ⟨fun _ => fits, fun _ => rfl⟩
    next tooLong =>
      exact ⟨fun isSome => absurd isSome Bool.false_ne_true, fun le => absurd le tooLong⟩
  writes := by
    intro events event
    simp only [MidiApi.lists, true_and]
    split
    next fits => exact ⟨fun _ => fits, fun _ => rfl⟩
    next tooLong =>
      exact ⟨fun isSome => absurd isSome Bool.false_ne_true, fun le => absurd le tooLong⟩

/-- A MIDI output port whose buffer has been retrieved. -/
def outputPud : Pud Int (List MidiEvent) :=
  { (Pud.new 7 .midi .output : Pud Int (List MidiEvent)) with
    buf := some ⟨fun _ => 0, []⟩, nframes := 64 }

/-- A call that writes a message of three bytes, and one that writes a longer message. -/
def writeThree : WriteArguments := ⟨.ok 0, .ok [144, 60, 100]⟩

def writeFive : WriteArguments := ⟨.ok 0, .ok [240, 1, 2, 3, 247]⟩

theorem space_honoured_iff_sixteen :
    (writes (.lists 16)).Along (Honoured (.lists 16) fun _ _ => True) [writeThree]
      ⟨outputPud, 4⟩ := by
  refine ((space_honoured_iff (.lists 16) (fun _ _ => True) (accepts_lists 16) 64
    (some ⟨fun _ => 0, []⟩) (Pud.new 7 .midi .output) outputPud rfl rfl 4 rfl
    [writeThree]).mpr ⟨?_, ?_, ?_⟩).2
  · intro first second middle split run memory buf
    show 12 ≤ (16 : BitVec 64).toNat ∧ (16 : BitVec 64).toNat < 9223372036854775820
    decide
  · intro memory time data buf isArgs nonempty isAdmissible
    cases isArgs
    left
    show 3 + 12 ≤ (16 : BitVec 64).toNat
    decide
  · exact fun _ _ => trivial

/-- Where JACK accepts eight bytes, the script is told that the space is negative, and
its event is accepted. Where JACK accepts sixteen bytes, it accepts five, and
`MidiWrite` does not. -/
theorem space_not_honoured :
    getBuffer (.lists 8) 64 (some ⟨fun _ => 0, []⟩) (Pud.new 7 .midi .output) =
      (.ok [.integer (-4)], outputPud) ∧
    ¬ (writes (.lists 8)).Throughout (Writing.InRange (.lists 8)) [] ⟨outputPud, -4⟩ ∧
    ¬ (writes (.lists 8)).Along (Honoured (.lists 8) fun _ _ => True) [writeThree]
      ⟨outputPud, -4⟩ ∧
    getBuffer (.lists 16) 64 (some ⟨fun _ => 0, []⟩) (Pud.new 7 .midi .output) =
      (.ok [.integer 4], outputPud) ∧
    ¬ (writes (.lists 16)).Along (Honoured (.lists 16) fun _ _ => True) [writeFive]
      ⟨outputPud, 4⟩ := by
  refine ⟨rfl, ?_, ?_, rfl, ?_⟩
  · intro inRange
    have range := inRange [] [] ⟨outputPud, -4⟩ rfl rfl ⟨fun _ => 0, []⟩ rfl
    exact absurd range.1 (by decide)
  · rintro ⟨honoured, _⟩
    have agrees :=
      (honoured ⟨fun _ => 0, []⟩ 0 [144, 60, 100] rfl rfl (by decide)).1 trivial
    exact absurd (agrees.mp rfl) (by decide)
  · rintro ⟨honoured, _⟩
    have agrees := (honoured ⟨fun _ => 0, []⟩ 0 [240, 1, 2, 3, 247] rfl rfl (by decide)).2
    exact absurd (agrees.mpr rfl) Bool.false_ne_true

end LuaJack.Buffer
