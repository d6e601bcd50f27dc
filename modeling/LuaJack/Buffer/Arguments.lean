import LuaJack.Buffer.Events
import LuaJack.Buffer.Split

/-!
# Integer arguments

The calls on buffers take counts and positions as Lua integers of 64 bits, and most of
them convert these to unsigned integers of 32 bits before they look at them. -/

namespace LuaJack.Buffer

variable {Sample Events : Type}

/-! ## Counts -/

/-- The number of items that a count asks for. -/
def wanted (value : LuaInteger) (available : Nat) : Nat := min value.toInt.toNat available

/-- The number of items that the count asks for when it has been converted. -/
def converted (value : LuaInteger) (available : Nat) : Nat :=
  min (value.setWidth 32).toNat available

/-- The conversion of a count makes no difference. -/
inductive Unwrapped (value : LuaInteger) (available : Nat) : Prop where
  | fits (nonneg : 0 ≤ value.toInt) (less : value.toInt < 4294967296)
  | none (isZero : available = 0)
  /-- A negative count is converted to zero. -/
  | negative (isNegative : value.toInt < 0) (isZero : (value.setWidth 32).toNat = 0)
  /-- A large count is converted to one that is still large enough. -/
  | large (isLarge : 4294967296 ≤ value.toInt)
    (le : available ≤ (value.setWidth 32).toNat)

theorem converted_eq_wanted_iff {value : LuaInteger} {available : Nat}
    (less : available < 4294967296) :
    converted value available = wanted value available ↔ Unwrapped value available := by
  unfold converted wanted
  have bound := value.isLt
  have isInt := BitVec.toInt_eq_toNat_cond value
  have isNat : (value.setWidth 32).toNat = value.toNat % 2 ^ 32 :=
    BitVec.toNat_setWidth 32 value
  constructor
  · intro same
    by_cases isZero : available = 0
    · exact .none isZero
    by_cases isNegative : value.toInt < 0
    · exact .negative isNegative (by omega)
    · by_cases fits : value.toInt < 4294967296
      · exact .fits (by omega) fits
      · exact .large (by omega) (by omega)
  · intro unwrapped
    cases unwrapped with
    | fits nonneg less => split at isInt <;> omega
    | none isZero => omega
    | negative isNegative isZero => omega
    | large isLarge le => omega

/-- What a call does depends on a number of items, and it does it for the converted
count. -/
theorem effect_wanted_iff {Effect : Nat → Prop}
    {value : LuaInteger} {available : BitVec 32}
    (does : Effect (converted value available.toNat))
    (unique : ∀ one two, one ≤ available.toNat →
      two ≤ available.toNat → Effect one → Effect two →
      one = two) :
    Effect (wanted value available.toNat) ↔ Unwrapped value available.toNat := by
  rw [← converted_eq_wanted_iff available.isLt]
  constructor
  · exact fun effect => unique _ _ (Nat.min_le_right _ _)
      (Nat.min_le_right _ _) does effect
  · intro same
    rw [← same]
    exact does

theorem eq_of_ofNat_eq {width one two : Nat}
    {available : BitVec 32} (atLeast : 32 ≤ width)
    (oneLe : one ≤ available.toNat) (twoLe : two ≤ available.toNat)
    (same : BitVec.ofNat width one = BitVec.ofNat width two) : one = two := by
  have bound := available.isLt
  have widthLe : 2 ^ 32 ≤ 2 ^ width := Nat.pow_le_pow_right (by decide) atLeast
  have sameNat := congrArg BitVec.toNat same
  rw [BitVec.toNat_ofNat, BitVec.toNat_ofNat, Nat.mod_eq_of_lt (by omega),
    Nat.mod_eq_of_lt (by omega)] at sameNat
  exact sameNat

/-! ## Audio ports -/

section Audio

variable {pud : Pud Sample Events} {memory : Memory Sample Events} {value : LuaInteger}

/-- A call has cleared a number of samples. -/
structure Cleared [Zero Sample] (pud : Pud Sample Events) (memory : Memory Sample Events)
    (result : Except String (List (Value Sample)) × Pud Sample Events)
    (count : Nat) : Prop where
  returned : result.1 = .ok [.float (.ofNat 32 count)]
  entry : result.2.entry =
    { pud with
      buf := some { memory with
        samples := Cells.place memory.samples pud.bufp.toNat (List.replicate count 0) }
      bufp := pud.bufp + .ofNat 32 count
      touched := [] }

theorem cleared_wanted_iff [Zero Sample] (isBuf : pud.buf = some memory)
    (isOutput : pud.direction = .output) (value : LuaInteger) :
    Cleared pud memory (audioClear (.ok (some value)) pud)
      (wanted value pud.avail.toNat) ↔
      Unwrapped value pud.avail.toNat := by
  have clears := audioClear_eq isBuf isOutput value
  apply effect_wanted_iff ⟨clears.1, clears.2⟩
  intro one two oneLe twoLe first second
  have same := Except.ok.inj (first.returned.symm.trans second.returned)
  injection same with same _
  injection same with same
  exact eq_of_ofNat_eq (Nat.le_refl _) oneLe twoLe same

/-- A call has returned a number of samples. -/
structure HasRead (pud : Pud Sample Events) (memory : Memory Sample Events)
    (result : Except String (List (Value Sample)) × Pud Sample Events)
    (count : Nat) : Prop where
  returned : result.1.map samples =
    .ok (Cells.extract memory.samples pud.bufp.toNat count)
  entry : result.2.entry = { pud with bufp := pud.bufp + .ofNat 32 count, touched := [] }

theorem hasRead_wanted_iff (isBuf : pud.buf = some memory)
    (isInput : pud.direction = .input)
    (value : LuaInteger) (checkstack : BitVec 32 → Bool) :
    HasRead pud memory (audioRead (.ok (some value)) checkstack pud)
        (wanted value pud.avail.toNat) ↔
      Unwrapped value pud.avail.toNat ∧
        (pud.avail ≠ 0 → checkstack (readCount pud value) = true) := by
  by_cases grows : pud.avail ≠ 0 → checkstack (readCount pud value) = true
  · rcases audioRead_eq isBuf isInput value grows with
      ⟨values, touched, isRead, isSamples⟩
    rw [readCount_toNat] at isSamples
    have isCount : readCount pud value = .ofNat 32 (converted value pud.avail.toNat) := by
      rw [converted, ← readCount_toNat, BitVec.ofNat_toNat, BitVec.setWidth_eq]
    have does : HasRead pud memory (audioRead (.ok (some value)) checkstack pud)
        (converted value pud.avail.toNat) := by
      rw [isRead]
      refine ⟨congrArg Except.ok isSamples, ?_⟩
      rw [isCount]
      rfl
    rw [effect_wanted_iff does]
    · exact ⟨fun unwrapped => ⟨unwrapped, grows⟩, fun both => both.1⟩
    · intro one two _ _ first second
      have same := Except.ok.inj (first.returned.symm.trans second.returned)
      have sameLength := congrArg List.length same
      rw [Cells.extract_length, Cells.extract_length] at sameLength
      exact sameLength
  · rw [Classical.not_imp, Bool.not_eq_true] at grows
    constructor
    · intro hasRead
      have returned := hasRead.returned
      rw [audioRead_full isBuf isInput value grows.1 grows.2] at returned
      cases returned
    · exact fun both => absurd (both.2 grows.1)
        (by rw [grows.2]; exact Bool.false_ne_true)

end Audio

/-! ## Copies -/

/-- `AudioCopy` and `MidiCopy` see only the converted count. -/
theorem optInteger_converted {State : Type} (value : LuaInteger) (default : BitVec 32) :
    (optInteger (.ok (some value)) default : Fallible State String (BitVec 32)) =
      optInteger (.ok (some ((value.setWidth 32).setWidth 64))) default := by
  funext state
  rw [optInteger_count]
  rfl

section Copies

variable {value : LuaInteger}

theorem audioCopied_wanted_iff {pair : Pair Sample Events}
    {memory srcmemory : Memory Sample Events}
    (copyable : pair.Copyable memory srcmemory) (value : LuaInteger) :
    Transfers pair memory
        (Cells.place memory.samples 0 (Cells.extract srcmemory.samples 0
          (wanted value (min pair.srcpud.avail.toNat pair.pud.avail.toNat))))
        (wanted value (min pair.srcpud.avail.toNat pair.pud.avail.toNat))
        (audioCopy (.ok (some value)) pair) ↔
      Unwrapped value (min pair.srcpud.avail.toNat pair.pud.avail.toNat) := by
  have does := transfers_audioCopy copyable (value.setWidth 32)
  have same : (audioCopy (.ok (some value)) : PairCall Sample Events _) =
      audioCopy (.ok (some ((value.setWidth 32).setWidth 64))) := by
    unfold audioCopy
    simp only [optInteger_converted value]
  rw [← same] at does
  have bound := pair.srcpud.avail.isLt
  rw [← converted_eq_wanted_iff (by omega)]
  constructor
  · intro transfers
    have returned := Except.ok.inj (does.returned.symm.trans transfers.returned)
    injection returned with returned _
    injection returned with returned
    refine @eq_of_ofNat_eq 64 _ _ pair.srcpud.avail (by decide) ?_ ?_ returned
    · exact (Nat.min_le_right _ _).trans (Nat.min_le_left _ _)
    · exact (Nat.min_le_right _ _).trans (Nat.min_le_left _ _)
  · intro isConverted
    rw [← isConverted]
    exact does

/-- A copy has written all of some events, or it has stopped at one that the destination
refuses. -/
def CopiedUpTo (midi : MidiApi Events) (destination : Destination Sample Events)
    (srcpud : Pud Sample Events) (events : List MidiEvent)
    (result : Except String (List (Value Sample)) × Pair Sample Events) : Prop :=
  ∃ copied after, copied ≤ events.length ∧
    (events.take copied).foldlM midi.eventWrite destination.memory.events = some after ∧
    (copied = events.length ∨
      (events.take (copied + 1)).foldlM midi.eventWrite
        destination.memory.events = none) ∧
    result = (.ok [.integer (.ofNat 64 copied)],
      Pair.copied ⟨destination.pud, srcpud⟩
        { destination.memory with events := after } copied)

/-- How many events of a list a buffer accepts. -/
theorem writeEvents_take {midi : MidiApi Events} (events : Events) (list : List MidiEvent)
    (count : Nat) : (writeEvents midi events (list.take count)).1 =
      min count (writeEvents midi events list).1 := by
  induction list generalizing events count with
  | nil => rw [List.take_nil, writeEvents, Nat.min_zero]
  | cons event list ih =>
      cases count with
      | zero => rw [List.take_zero, writeEvents, Nat.zero_min]
      | succ count =>
          rw [List.take_succ_cons, writeEvents, writeEvents]
          cases midi.eventWrite events event with
          | none => rfl
          | some after =>
              simp only [ih, Nat.succ_min_succ]

/-- The number of events that can be written is determined by what is refused. -/
theorem eq_writeEvents {midi : MidiApi Events}
    {events after : Events} {list : List MidiEvent}
    {copied : Nat} (le : copied ≤ list.length)
    (isWritten : (list.take copied).foldlM midi.eventWrite events = some after)
    (stopped : copied = list.length ∨
      (list.take (copied + 1)).foldlM midi.eventWrite events = none) :
    copied = (writeEvents midi events list).1 := by
  rcases Nat.lt_trichotomy copied (writeEvents midi events list).1 with less | same | more
  · have isNone := stopped.resolve_left fun isAll => by
      rw [isAll] at less
      exact absurd (writeEvents_le events list) (Nat.not_le.mpr less)
    have isSome := @writeEvents_foldlM _ midi events list
    have isPrefix : list.take (copied + 1) =
        (list.take (writeEvents midi events list).1).take (copied + 1) := by
      rw [List.take_take, Nat.min_eq_left less]
    rw [← List.take_append_drop (copied + 1) (list.take (writeEvents midi events list).1),
      ← isPrefix, List.foldlM_append, isNone] at isSome
    cases isSome
  · exact same
  · rw [writeEvents_longest events list more le] at isWritten
    cases isWritten

section Midi

variable {midi : MidiApi Events} {list : List MidiEvent}
  {srcmemory : Memory Sample Events}
variable {srcpud : Pud Sample Events}

/-- The number of events that are left and that the destination accepts one after the
other. -/
def acceptable (midi : MidiApi Events) (list : List MidiEvent)
    (destination : Destination Sample Events) (srcpud : Pud Sample Events) : Nat :=
  (writeEvents midi destination.memory.events (srcpud.pending list)).1

theorem acceptable_le (source : srcpud.Source midi list srcmemory)
    (destination : Destination Sample Events) :
    acceptable midi list destination srcpud ≤ srcpud.avail.toNat := by
  rw [← pending_length source]
  exact writeEvents_le _ _

/-- If as many events of a list are written, they are the same. -/
theorem writeEvents_congr {events : Events} {list : List MidiEvent} {one two : Nat}
    (same : (writeEvents midi events (list.take one)).1 =
      (writeEvents midi events (list.take two)).1) :
    writeEvents midi events (list.take one) =
      writeEvents midi events (list.take two) := by
  have isOne := @writeEvents_foldlM _ midi events (list.take one)
  have isTwo := @writeEvents_foldlM _ midi events (list.take two)
  have oneLe := (@writeEvents_le _ midi events (list.take one)).trans
      (List.length_take_le _ _)
  have twoLe := (@writeEvents_le _ midi events (list.take two)).trans
      (List.length_take_le _ _)
  rw [List.take_take, Nat.min_eq_left oneLe, same] at isOne
  rw [List.take_take, Nat.min_eq_left twoLe, isOne] at isTwo
  exact Prod.ext same (Option.some.inj isTwo)

/-- `MidiCopy` copies as many events as the converted count asks for. -/
theorem midiCopy_converted (destination : Destination Sample Events)
    (value : LuaInteger) :
    midiCopy midi (.ok (some value)) ⟨destination.pud, srcpud⟩ =
      Destination.copy midi { destination with count := value.setWidth 32 } srcpud := by
  unfold Destination.copy midiCopy
  simp only [optInteger_converted value]

theorem midiCopied_wanted_iff (source : srcpud.Source midi list srcmemory)
    (destination : Destination Sample Events) (value : LuaInteger) :
    CopiedUpTo midi destination srcpud
        ((srcpud.pending list).take (wanted value srcpud.avail.toNat))
        (midiCopy midi (.ok (some value)) ⟨destination.pud, srcpud⟩) ↔
      Unwrapped value (acceptable midi list destination srcpud) := by
  have le := acceptable_le source destination
  have bound := srcpud.avail.isLt
  have isWanted : (writeEvents midi destination.memory.events
      ((srcpud.pending list).take (wanted value srcpud.avail.toNat))).1 =
        wanted value (acceptable midi list destination srcpud) := by
    rw [writeEvents_take]
    unfold wanted
    show min (min _ _) (acceptable midi list destination srcpud) = _
    omega
  have isConverted : (writeEvents midi destination.memory.events
      ((srcpud.pending list).take (value.setWidth 32).toNat)).1 =
        converted value (acceptable midi list destination srcpud) :=
          writeEvents_take _ _ _
  rw [← converted_eq_wanted_iff (by omega), ← isWanted, ← isConverted, midiCopy_converted,
    copy_eq source]
  constructor
  · rintro ⟨copied, after, copiedLe, isWritten, stopped, isResult⟩
    have isCopied := eq_writeEvents copiedLe isWritten stopped
    have returned := Except.ok.inj (congrArg Prod.fst isResult)
    injection returned with returned _
    injection returned with returned
    rw [← isCopied]
    refine @eq_of_ofNat_eq 64 _ _ srcpud.avail (by decide) ?_ ?_ returned
    · exact written_le_avail source { destination with count := value.setWidth 32 }
    · rw [isCopied, isWanted]
      exact (Nat.min_le_right _ _).trans le
  · intro same
    have isSame := writeEvents_congr same
    refine ⟨_, _, writeEvents_le destination.memory.events _,
      writeEvents_foldlM _ _, ?_, ?_⟩
    · rcases Nat.lt_or_eq_of_le (@writeEvents_le _ midi destination.memory.events
        ((srcpud.pending list).take (wanted value srcpud.avail.toNat))) with less | isAll
      · exact .inr (writeEvents_longest _ _ (Nat.lt_succ_self _) less)
      · exact .inl isAll
    · simp only [Pair.written, isSame]

end Midi

end Copies

/-! ## Positions -/

/-- A seek accepts a position in the buffer, and changes nothing for another one. -/
def Sought (value : LuaInteger) (pud : Pud Sample Events)
    (result : Except String (List (Value Sample)) × Pud Sample Events) : Prop :=
  if 0 ≤ value.toInt ∧ value.toInt ≤ pud.nframes.toNat then
    ∃ values bufp, (bufp.toNat : Int) = value.toInt ∧
      result = (.ok values, { pud with bufp })
  else
    ∃ message, result = (.error message, pud)

section Positions

variable {pud : Pud Sample Events} {memory : Memory Sample Events}

/-- `AudioSeek` compares the positions as unsigned integers of 64 bits. -/
theorem audioSeek_sought (isBuf : pud.buf = some memory) (value : LuaInteger) :
    Sought value pud (audioSeek (some value) pud) := by
  have isInt := BitVec.toInt_eq_toNat_cond value
  have bound := pud.nframes.isLt
  have valueBound := value.isLt
  have accepted_iff : ¬ pud.nframes.setWidth 64 < value ↔
      0 ≤ value.toInt ∧ value.toInt ≤ pud.nframes.toNat := by
    have isNframes : (pud.nframes.setWidth 64).toNat = pud.nframes.toNat := by bv_omega
    rw [BitVec.lt_def, isNframes]
    split at isInt <;> omega
  unfold Sought audioSeek
  rw [Fallible.bind_of_ok (checkBuffer_of_buf isBuf), Fallible.asks_bind]
  simp only [id]
  by_cases accepted : pud.nframes.setWidth 64 < value
  · rw [if_pos accepted, if_neg fun inRange => accepted_iff.mpr inRange accepted]
    exact ⟨_, rfl⟩
  · have inRange := accepted_iff.mp accepted
    rw [if_neg accepted, if_pos inRange]
    refine ⟨_, value.setWidth 32, ?_, rfl⟩
    rw [BitVec.toNat_setWidth]
    split at isInt <;> omega

/-- `MidiSeek` compares the positions when the argument has been converted. -/
theorem midiSeek_sought_iff (isBuf : pud.buf = some memory)
    (isInput : pud.direction = .input) (value : LuaInteger) :
    Sought value pud (midiSeek (some value) pud) ↔
      0 ≤ value.toInt ∧ value.toInt < 4294967296 ∨ pud.nframes < value.setWidth 32 := by
  have isInt := BitVec.toInt_eq_toNat_cond value
  have bound := pud.nframes.isLt
  have valueBound := value.isLt
  have isNat : (value.setWidth 32).toNat = value.toNat % 2 ^ 32 :=
    BitVec.toNat_setWidth 32 value
  unfold Sought midiSeek
  rw [Fallible.bind_of_ok (checkBuffer_of_buf isBuf),
    Fallible.bind_of_ok (checkIsInput_of_input isInput), Fallible.asks_bind]
  simp only [id, Option.map_some]
  by_cases refused : pud.nframes < value.setWidth 32
  · have isBehind := BitVec.lt_def.mp refused
    rw [if_pos refused]
    simp only [refused, or_true, iff_true]
    have notInRange : ¬ (0 ≤ value.toInt ∧ value.toInt ≤ pud.nframes.toNat) := by
      split at isInt <;> omega
    rw [if_neg notInRange]
    exact ⟨_, rfl⟩
  · have inBuffer := BitVec.not_lt.mp refused
    rw [BitVec.le_def] at inBuffer
    rw [if_neg refused]
    simp only [refused, or_false]
    constructor
    · intro sought
      by_cases inRange : 0 ≤ value.toInt ∧ value.toInt ≤ pud.nframes.toNat
      · exact ⟨inRange.1, by omega⟩
      · rw [if_neg inRange] at sought
        rcases sought with ⟨message, fails⟩
        cases fails
    · rintro ⟨nonneg, less⟩
      have inRange : 0 ≤ value.toInt ∧ value.toInt ≤ pud.nframes.toNat := by
        split at isInt <;> omega
      rw [if_pos inRange]
      refine ⟨_, value.setWidth 32, ?_, rfl⟩
      split at isInt <;> omega

end Positions

/-- The calls process as many items as a count asks for exactly if its conversion makes
no difference, which for copies of MIDI events depends on how many events the
destination accepts; `AudioSeek` takes every position for what it is, and `MidiSeek`
does unless the conversion makes a position of it. -/
theorem arguments_honoured_iff [Zero Sample]
    (midi : MidiApi Events) (value : LuaInteger) :
    (∀ (pud : Pud Sample Events) (memory : Memory Sample Events), pud.buf = some memory →
      pud.direction = .output →
      (Cleared pud memory (audioClear (.ok (some value)) pud)
        (wanted value pud.avail.toNat) ↔
        Unwrapped value pud.avail.toNat)) ∧
    (∀ (pud : Pud Sample Events) (memory : Memory Sample Events)
      (checkstack : BitVec 32 → Bool),
      pud.buf = some memory → pud.direction = .input →
      (HasRead pud memory (audioRead (.ok (some value)) checkstack pud)
          (wanted value pud.avail.toNat) ↔
        Unwrapped value pud.avail.toNat ∧
          (pud.avail ≠ 0 → checkstack (readCount pud value) = true))) ∧
    (∀ (pair : Pair Sample Events) (memory srcmemory : Memory Sample Events),
      pair.Copyable memory srcmemory →
      (Transfers pair memory
          (Cells.place memory.samples 0 (Cells.extract srcmemory.samples 0
            (wanted value (min pair.srcpud.avail.toNat pair.pud.avail.toNat))))
          (wanted value (min pair.srcpud.avail.toNat pair.pud.avail.toNat))
          (audioCopy (.ok (some value)) pair) ↔
        Unwrapped value (min pair.srcpud.avail.toNat pair.pud.avail.toNat))) ∧
    (∀ (list : List MidiEvent) (srcmemory : Memory Sample Events)
      (srcpud : Pud Sample Events)
      (destination : Destination Sample Events), srcpud.Source midi list srcmemory →
      (CopiedUpTo midi destination srcpud
          ((srcpud.pending list).take (wanted value srcpud.avail.toNat))
          (midiCopy midi (.ok (some value)) ⟨destination.pud, srcpud⟩) ↔
        Unwrapped value (acceptable midi list destination srcpud))) ∧
    (∀ (pud : Pud Sample Events) (memory : Memory Sample Events), pud.buf = some memory →
      Sought value pud (audioSeek (some value) pud)) ∧
    ∀ (pud : Pud Sample Events) (memory : Memory Sample Events), pud.buf = some memory →
      pud.direction = .input →
      (Sought value pud (midiSeek (some value) pud) ↔
        0 ≤ value.toInt ∧ value.toInt < 4294967296 ∨ pud.nframes < value.setWidth 32) :=
  ⟨fun _ _ isBuf isOutput => cleared_wanted_iff isBuf isOutput value,
    fun _ _ checkstack isBuf isInput => hasRead_wanted_iff isBuf isInput value checkstack,
    fun _ _ _ copyable => audioCopied_wanted_iff copyable value,
    fun _ _ _ destination source => midiCopied_wanted_iff source destination value,
    fun _ _ isBuf => audioSeek_sought isBuf value,
    fun _ _ isBuf isInput => midiSeek_sought_iff isBuf isInput value⟩

theorem arguments_honoured_iff_twoEvents :
    CopiedUpTo (.lists 1) emptyDestination twoEventsPud
      ((twoEventsPud.pending twoEvents).take
        (wanted 4294967297 twoEventsPud.avail.toNat))
      (midiCopy (.lists 1) (.ok (some 4294967297))
        ⟨emptyDestination.pud, twoEventsPud⟩) :=
  ((arguments_honoured_iff (.lists 1) 4294967297).2.2.2.1
    twoEvents _ twoEventsPud emptyDestination
    (source_twoEvents 1)).mpr (.large (by decide) (by decide))

/-- A negative count clears all samples, a large one reads none, and a large index is
accepted. -/
theorem not_arguments_honoured :
    ¬ Cleared (fourSamples 0).pud ⟨fun _ => 9, ()⟩
      (audioClear (.ok (some (-1))) (fourSamples 0).pud) (wanted (-1) 4) ∧
    ¬ HasRead (fourSamples 0).srcpud ⟨fun _ => 5, ()⟩
      (audioRead (.ok (some 4294967296)) (fun _ => true) (fourSamples 0).srcpud)
      (wanted 4294967296 4) ∧
    ¬ Sought 4294967297 twoEventsPud (midiSeek (some 4294967297) twoEventsPud) := by
  refine ⟨?_, ?_, ?_⟩
  · intro cleared
    have unwrapped :=
      (@cleared_wanted_iff _ _ (fourSamples 0).pud _ _ rfl rfl (-1)).mp cleared
    cases unwrapped with
    | fits nonneg => exact absurd nonneg (by decide)
    | none isZero => exact absurd isZero (by decide)
    | negative _ isZero => exact absurd isZero (by decide)
    | large isLarge => exact absurd isLarge (by decide)
  · intro hasRead
    have unwrapped := (@hasRead_wanted_iff _ _ (fourSamples 0).srcpud _ rfl rfl 4294967296
      (fun _ => true)).mp hasRead
    cases unwrapped.1 with
    | fits _ less => exact absurd less (by decide)
    | none isZero => exact absurd isZero (by decide)
    | negative isNegative => exact absurd isNegative (by decide)
    | large _ le => exact absurd le (by decide)
  · intro sought
    rcases (midiSeek_sought_iff rfl rfl 4294967297).mp sought with ⟨_, less⟩ | behind
    · exact absurd less (by decide)
    · exact absurd behind (by decide)

end LuaJack.Buffer
