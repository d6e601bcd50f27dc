import LuaJack.Buffer.Events

/-!
# Reading MIDI events by their index

`MidiRead` tests the position of the port, fetches the event at the index that it is
passed, and advances the position.  It does what a seek to this index and a read do
together only if the index and the position agree, or if neither of the two reads an
event that the other misses. -/

namespace LuaJack.Buffer

open Atomic

variable {Sample Events : Type}

/-! ## Events and their number -/

/-- A buffer has the events before the number of events that JACK reports, and no
others. -/
def MidiApi.Counts (midi : MidiApi Events) (events : Events) : Prop :=
  ∀ index, (midi.eventGet events index).isSome = true ↔ index < midi.getEventCount events

/-- A MIDI input port whose buffer has been retrieved. -/
structure Pud.Readable (midi : MidiApi Events) (memory : Memory Sample Events)
    (pud : Pud Sample Events) : Prop where
  type : pud.type = .midi
  direction : pud.direction = .input
  buf : pud.buf = some memory
  nframes : pud.nframes = midi.getEventCount memory.events
  bufp : pud.bufp ≤ pud.nframes

/-- The event that has some number, which may be any number. -/
def eventAt (midi : MidiApi Events) (events : Events) (index : Int) : Option MidiEvent :=
  if 0 ≤ index ∧ index < (midi.getEventCount events).toNat then
    midi.eventGet events (.ofInt 32 index)
  else
    none

theorem returned_injective {one two : Option MidiEvent}
    (same : (returned one : List (Value Sample)) = returned two) : one = two := by
  cases one with
  | none =>
      cases two with
      | none => rfl
      | some other => cases same
  | some event =>
      cases two with
      | none => cases same
      | some other =>
          injection same with isTime isRest
          injection isTime with isTime
          injection isRest with isBuffer _
          injection isBuffer with isBuffer
          have isTime : event.time = other.time := by bv_omega
          cases event
          cases other
          cases isTime
          cases isBuffer
          rfl

/-- An integer in the range of unsigned integers of 32 bits is converted to itself. -/
theorem setWidth_toNat {value : LuaInteger} {count : BitVec 32} (nonneg : 0 ≤ value.toInt)
    (less : value.toInt < count.toNat) :
    ((value.setWidth 32).toNat : Int) = value.toInt := by
  have bound := count.isLt
  rw [BitVec.toInt_eq_toNat_cond] at nonneg less ⊢
  rw [BitVec.toNat_setWidth]
  split at nonneg <;> omega

section Calls

variable {midi : MidiApi Events} {memory : Memory Sample Events} {pud : Pud Sample Events}

theorem eventGet_eq_none_iff (counts : midi.Counts memory.events) (index : BitVec 32) :
    midi.eventGet memory.events index = none ↔
      midi.getEventCount memory.events ≤ index := by
  rw [← Option.isNone_iff_eq_none, ← Option.isSome_eq_false_iff,
    ← Bool.not_eq_true, counts, BitVec.not_lt]

theorem eventAt_toNat (counts : midi.Counts memory.events) (index : BitVec 32) :
    eventAt midi memory.events index.toNat = midi.eventGet memory.events index := by
  unfold eventAt
  have isIndex : BitVec.ofInt 32 index.toNat = index := by
    rw [BitVec.ofInt_natCast, BitVec.ofNat_toNat, BitVec.setWidth_eq]
  rw [isIndex]
  split
  next => rfl
  next outside =>
    cases isEvent : midi.eventGet memory.events index with
    | none => rfl
    | some event =>
        have less := (counts index).mp (by rw [isEvent]; rfl)
        rw [BitVec.lt_def] at less
        omega

theorem eventAt_isSome_iff (counts : midi.Counts memory.events) (index : Int) :
    (eventAt midi memory.events index).isSome = true ↔
      0 ≤ index ∧ index < (midi.getEventCount memory.events).toNat := by
  unfold eventAt
  split
  next inside =>
    have bound := (midi.getEventCount memory.events).isLt
    have isNat : (BitVec.ofInt 32 index).toNat = index.toNat := by
      rw [BitVec.toNat_ofInt]
      omega
    rw [counts, BitVec.lt_def, isNat]
    omega
  next outside =>
    constructor
    · exact fun isSome => absurd isSome Bool.false_ne_true
    · exact fun inside => absurd inside outside

theorem eventAt_of_count_le {index : Int}
    (le : (midi.getEventCount memory.events).toNat ≤ index) :
    eventAt midi memory.events index = none :=
  if_neg fun inside => absurd inside.2 (Int.not_lt.mpr le)

variable (readable : pud.Readable midi memory)
include readable

theorem avail_eq_zero_iff : pud.avail = 0 ↔ pud.bufp = pud.nframes := by
  have isAvail := avail_toNat pud
  have inside := BitVec.le_def.mp readable.bufp
  constructor
  · intro isZero
    rw [isZero] at isAvail
    apply BitVec.eq_of_toNat_eq
    have zero : (0 : BitVec 32).toNat = 0 := rfl
    omega
  · intro atEnd
    rw [atEnd, Nat.sub_self] at isAvail
    exact BitVec.eq_of_toNat_eq isAvail

/-- At the end `MidiRead` returns nil, whatever index it is passed. -/
theorem midiRead_atEnd (arg : Option LuaInteger) (atEnd : pud.bufp = pud.nframes) :
    midiRead midi (.ok arg) pud = (.ok (returned none), pud) := by
  unfold midiRead
  rw [Fallible.bind_of_ok (checkBuffer_of_buf readable.buf),
    Fallible.bind_of_ok (checkIsInput_of_input readable.direction), Fallible.asks_bind]
  simp only [id]
  rw [Fallible.bind_of_ok (optInteger_ok _ _ _),
    if_pos ((avail_eq_zero_iff readable).mpr atEnd)]
  rfl

/-- Before the end it returns the event at the index, and advances the position. -/
theorem midiRead_inside (arg : Option LuaInteger) (inside : pud.bufp ≠ pud.nframes) :
    midiRead midi (.ok arg) pud =
      (.ok (returned
        (midi.eventGet memory.events ((arg.map (BitVec.setWidth 32)).getD pud.bufp))),
        { pud with bufp := pud.bufp + 1 }) := by
  have notAtEnd : pud.avail ≠ 0 :=
    fun isZero => inside ((avail_eq_zero_iff readable).mp isZero)
  unfold midiRead
  rw [Fallible.bind_of_ok (checkBuffer_of_buf readable.buf),
    Fallible.bind_of_ok (checkIsInput_of_input readable.direction), Fallible.asks_bind]
  simp only [id]
  rw [Fallible.bind_of_ok (optInteger_ok _ _ _), if_neg notAtEnd, advance,
    Fallible.modify_bind]
  cases midi.eventGet memory.events ((arg.map (BitVec.setWidth 32)).getD pud.bufp) with
  | none => rfl
  | some event => rfl

/-- `MidiSeek` moves the position to an index that it accepts. -/
theorem midiSeek_ok {value : LuaInteger} (accepted : value.setWidth 32 ≤ pud.nframes) :
    midiSeek (some value) pud =
      reportPosition { pud with bufp := value.setWidth 32 } := by
  unfold midiSeek
  rw [Fallible.bind_of_ok (checkBuffer_of_buf readable.buf),
    Fallible.bind_of_ok (checkIsInput_of_input readable.direction), Fallible.asks_bind]
  simp only [id, Option.map_some]
  rw [if_neg (BitVec.not_lt.mpr accepted)]
  rfl

theorem readable_bufp {bufp : BitVec 32} (inside : bufp ≤ pud.nframes) :
    ({ pud with bufp } : Pud Sample Events).Readable midi memory :=
  ⟨readable.type, readable.direction, readable.buf, readable.nframes, inside⟩

/-- A seek to an index that is accepted, and a read without an index. -/
theorem seekRead_ok {value : LuaInteger} (accepted : value.setWidth 32 ≤ pud.nframes) :
    (do let _ ← midiSeek (some value); midiRead midi (.ok none) : PudCall Sample Events _)
      pud =
      midiRead midi (.ok none) { pud with bufp := value.setWidth 32 } :=
  Fallible.bind_of_ok (midiSeek_ok readable accepted)

end Calls

/-! ## Reads with an index -/

/-- A read with an index does what a seek and a read without an index do, and a further
read returns the next event. -/
structure ReadsAt (midi : MidiApi Events)
    (memory : Memory Sample Events) (index : LuaInteger)
    (pud : Pud Sample Events) : Prop where
  seeks : midiRead midi (.ok (some index)) pud =
    (do let _ ← midiSeek (some index); midiRead midi (.ok none) : PudCall Sample Events _)
      pud
  event : (midiRead midi (.ok (some index)) pud).1 =
    .ok (returned (eventAt midi memory.events index.toInt))
  nil : (eventAt midi memory.events index.toInt).isNone = true ↔
    pud.nframes.toNat ≤ index.toInt
  advances : index.toInt < pud.nframes.toNat →
    (midiRead midi (.ok (some index)) pud).2.bufp.toNat = index.toInt + 1
  stays : pud.nframes.toNat ≤ index.toInt →
    (midiRead midi (.ok (some index)) pud).2.bufp = pud.nframes
  next : (midiRead midi (.ok none) (midiRead midi (.ok (some index)) pud).2).1 =
    .ok (returned (eventAt midi memory.events (index.toInt + 1)))

section Index

variable {midi : MidiApi Events} {memory : Memory Sample Events} {pud : Pud Sample Events}

/-- What a read without an index returns. -/
theorem midiRead_none (counts : midi.Counts memory.events)
    (readable : pud.Readable midi memory) :
    (midiRead midi (.ok none) pud).1 =
      .ok (returned (eventAt midi memory.events pud.bufp.toNat)) := by
  rw [eventAt_toNat counts]
  by_cases atEnd : pud.bufp = pud.nframes
  · have isNone : midi.eventGet memory.events pud.bufp = none := by
      rw [eventGet_eq_none_iff counts, ← readable.nframes, atEnd]
      exact BitVec.le_refl _
    rw [midiRead_atEnd readable none atEnd, isNone]
  · rw [midiRead_inside readable none atEnd]
    rfl

/-- The position after a read without an index. -/
theorem midiRead_none_bufp (readable : pud.Readable midi memory) :
    (midiRead midi (.ok none) pud).2 =
      { pud with bufp :=
        if pud.bufp = pud.nframes then pud.nframes else pud.bufp + 1 } := by
  by_cases atEnd : pud.bufp = pud.nframes
  · rw [midiRead_atEnd readable none atEnd, if_pos atEnd, Pud.with_bufp atEnd]
  · rw [midiRead_inside readable none atEnd, if_neg atEnd]

variable {index : LuaInteger}

/-- A read with an index does what a seek and a read do exactly if the index is the
position, or if the index is the end and the read leaves the position there. -/
theorem seeks_iff (counts : midi.Counts memory.events)
    (readable : pud.Readable midi memory) (accepted : index.setWidth 32 ≤ pud.nframes) :
    midiRead midi (.ok (some index)) pud =
        midiRead midi (.ok none) { pud with bufp := index.setWidth 32 } ↔
      index.setWidth 32 = pud.bufp ∨
        index.setWidth 32 = pud.nframes ∧ pud.nframes.toNat ≤ pud.bufp.toNat + 1 := by
  have sought := readable_bufp readable accepted
  have isGet := eventGet_eq_none_iff counts (index.setWidth 32)
  rw [← readable.nframes] at isGet
  have bufpLe := BitVec.le_def.mp readable.bufp
  by_cases atEnd : pud.bufp = pud.nframes
  · rw [midiRead_atEnd readable _ atEnd]
    by_cases soughtEnd : index.setWidth 32 = pud.nframes
    · rw [midiRead_atEnd sought none soughtEnd,
        Pud.with_bufp (atEnd.trans soughtEnd.symm)]
      exact ⟨fun _ => .inl (soughtEnd.trans atEnd.symm), fun _ => rfl⟩
    · rw [midiRead_inside sought none soughtEnd]
      constructor
      · intro same
        have isNone := returned_injective (Except.ok.inj (congrArg Prod.fst same))
        exact absurd (BitVec.le_antisymm accepted (isGet.mp isNone.symm)) soughtEnd
      · rintro (isBufp | ⟨isEnd, _⟩)
        · exact absurd (isBufp.trans atEnd) soughtEnd
        · exact absurd isEnd soughtEnd
  · rw [midiRead_inside readable _ atEnd]
    have less : pud.bufp.toNat < pud.nframes.toNat :=
      Nat.lt_of_le_of_ne bufpLe fun same => atEnd (BitVec.eq_of_toNat_eq same)
    have bound := pud.nframes.isLt
    by_cases soughtEnd : index.setWidth 32 = pud.nframes
    · have isNone := isGet.mpr (BitVec.le_of_eq soughtEnd.symm)
      rw [soughtEnd] at isNone
      rw [midiRead_atEnd sought none soughtEnd]
      simp only [Option.map_some, Option.getD_some, soughtEnd, isNone]
      constructor
      · intro same
        have isNext : pud.bufp + 1 = pud.nframes :=
          congrArg (fun result => result.2.bufp) same
        right
        refine ⟨trivial, ?_⟩
        bv_omega
      · rintro (isBufp | ⟨_, isLast⟩)
        · exact absurd isBufp.symm atEnd
        · have isNext : pud.bufp + 1 = pud.nframes := by bv_omega
          rw [isNext]
    · rw [midiRead_inside sought none soughtEnd]
      constructor
      · intro same
        have isNext : pud.bufp + 1 = index.setWidth 32 + 1 :=
          congrArg (fun result => result.2.bufp) same
        left
        bv_omega
      · rintro (isBufp | ⟨isEnd, _⟩)
        · simp only [Option.map_some, Option.getD_some,
            Option.map_none, Option.getD_none, isBufp]
        · exact absurd isEnd soughtEnd

/-- A read without an index behind a seek takes the index for what it is, unless the
index is neither the position that the seek has set nor behind the last event. -/
theorem readsAt_of_seeks (counts : midi.Counts memory.events)
    (readable : pud.Readable midi memory) (accepted : index.setWidth 32 ≤ pud.nframes)
    (isAt : index.toInt = (index.setWidth 32).toNat ∨
      pud.nframes.toNat ≤ index.toInt ∧ index.setWidth 32 = pud.nframes)
    (same : midiRead midi (.ok (some index)) pud =
      midiRead midi (.ok none) { pud with bufp := index.setWidth 32 }) :
    ReadsAt midi memory index pud := by
  have sought := readable_bufp readable accepted
  have isCount : (midi.getEventCount memory.events).toNat = pud.nframes.toNat := by
    rw [readable.nframes]
  have bound := pud.nframes.isLt
  have soughtLe := BitVec.le_def.mp accepted
  have isAfter := midiRead_none_bufp sought
  have behind_iff : (pud.nframes.toNat : Int) ≤ index.toInt ↔
      index.setWidth 32 = pud.nframes := by
    rcases isAt with isNat | ⟨behind, isEnd⟩
    · constructor
      · intro behind
        apply BitVec.eq_of_toNat_eq
        omega
      · intro isEnd
        rewrite [isNat, isEnd]
        exact Int.le_refl _
    · exact ⟨fun _ => isEnd, fun _ => behind⟩
  have isEvent : eventAt midi memory.events (index.setWidth 32).toNat =
      eventAt midi memory.events index.toInt := by
    rcases isAt with isNat | ⟨behind, isEnd⟩
    · rw [isNat]
    · rw [isEnd, eventAt_of_count_le (by omega), eventAt_of_count_le (by omega)]
  constructor
  · exact same.trans (seekRead_ok readable accepted).symm
  · rw [same, midiRead_none counts sought, ← isEvent]
  · rw [← isEvent, eventAt_toNat counts, Option.isNone_iff_eq_none,
      eventGet_eq_none_iff counts, ← readable.nframes, behind_iff]
    exact ⟨fun le => BitVec.le_antisymm accepted le, fun isEnd =>
      BitVec.le_of_eq isEnd.symm⟩
  · intro below
    have notAtEnd : index.setWidth 32 ≠ pud.nframes := fun isEnd =>
      Int.not_lt.mpr (behind_iff.mpr isEnd) below
    rw [same, isAfter]
    simp only [if_neg notAtEnd]
    rcases isAt with isNat | ⟨_, isEnd⟩
    · bv_omega
    · exact absurd isEnd notAtEnd
  · intro behind
    rw [same, isAfter]
    exact if_pos (behind_iff.mp behind)
  · rw [same, isAfter]
    by_cases atEnd : index.setWidth 32 = pud.nframes
    · have behind := behind_iff.mpr atEnd
      have isRead :=
        midiRead_none counts (readable_bufp readable (BitVec.le_refl pud.nframes))
      have isNone : eventAt midi memory.events pud.nframes.toNat = none :=
        eventAt_of_count_le (by omega)
      simp only [if_pos atEnd]
      rw [isRead, isNone, eventAt_of_count_le (by omega)]
    · have isNat : index.toInt = (index.setWidth 32).toNat :=
        isAt.resolve_right fun isEnd => atEnd isEnd.2
      have nextLe : index.setWidth 32 + 1 ≤ pud.nframes := by bv_omega
      have isNext : index.toInt + 1 = (index.setWidth 32 + 1).toNat := by bv_omega
      have isRead := midiRead_none counts (readable_bufp readable nextLe)
      simp only [if_neg atEnd]
      rw [isRead, isNext]

/-- A read with an index agrees with a seek and a read, and takes the index for what it
is, exactly if the index is the position, or if it is not below the number of events, a
seek takes it for this number, and there is at most one event behind the position. -/
theorem readsAt_iff (midi : MidiApi Events) (memory : Memory Sample Events)
    (counts : midi.Counts memory.events) (pud : Pud Sample Events)
    (readable : pud.Readable midi memory) (index : LuaInteger)
    (accepted : index.setWidth 32 ≤ pud.nframes) :
    ReadsAt midi memory index pud ↔
      index.toInt = pud.bufp.toNat ∨
        pud.nframes.toNat ≤ index.toInt ∧ index.setWidth 32 = pud.nframes ∧
          pud.nframes.toNat ≤ pud.bufp.toNat + 1 := by
  have sought := readable_bufp readable accepted
  have isSeek := seekRead_ok readable accepted
  have isSought := midiRead_none counts sought
  have isCount : (midi.getEventCount memory.events).toNat = pud.nframes.toNat := by
    rw [readable.nframes]
  have bound := pud.nframes.isLt
  have bufpLe := BitVec.le_def.mp readable.bufp
  have soughtLe := BitVec.le_def.mp accepted
  constructor
  · intro reads
    have same := reads.seeks.trans isSeek
    have isReturned : returned (eventAt midi memory.events index.toInt) =
        returned (eventAt midi memory.events (index.setWidth 32).toNat) :=
      Except.ok.inj (reads.event.symm.trans ((congrArg Prod.fst same).trans isSought))
    have isEvent := returned_injective isReturned
    have agree := (seeks_iff counts readable accepted).mp same
    by_cases behind : (pud.nframes.toNat : Int) ≤ index.toInt
    · rw [Option.isNone_iff_eq_none.mp (reads.nil.mpr behind),
        eventAt_toNat counts] at isEvent
      have isEnd := (eventGet_eq_none_iff counts _).mp isEvent.symm
      rw [← readable.nframes] at isEnd
      have isEnd := BitVec.le_antisymm accepted isEnd
      refine .inr ⟨behind, isEnd, ?_⟩
      rcases agree with isBufp | ⟨_, isLast⟩
      · rw [← isBufp, isEnd]
        exact Nat.le_succ _
      · exact isLast
    · have isSome : (eventAt midi memory.events index.toInt).isSome = true := by
        rw [Option.isSome_iff_ne_none]
        exact fun isNone => behind (reads.nil.mp (Option.isNone_iff_eq_none.mpr isNone))
      have inside := (eventAt_isSome_iff counts _).mp isSome
      rw [isCount] at inside
      have isNat := setWidth_toNat inside.1 inside.2
      rcases agree with isBufp | ⟨isEnd, _⟩
      · rw [← isNat, isBufp]
        exact .inl rfl
      · rw [isEnd] at isNat
        omega
  · rintro (isBufp | ⟨behind, isEnd, isLast⟩)
    · have isNat : index.toInt = (index.setWidth 32).toNat := by
        rw [BitVec.toNat_setWidth]
        rw [BitVec.toInt_eq_toNat_cond] at isBufp ⊢
        split at isBufp <;> omega
      have isSame : index.setWidth 32 = pud.bufp := by
        apply BitVec.eq_of_toNat_eq
        omega
      exact readsAt_of_seeks counts readable accepted (.inl isNat)
        ((seeks_iff counts readable accepted).mpr (.inl isSame))
    · exact readsAt_of_seeks counts readable accepted (.inr ⟨behind, isEnd⟩)
        ((seeks_iff counts readable accepted).mpr (.inr ⟨isEnd, isLast⟩))

end Index

/-! ## Ports in a cycle -/

/-- A retrieved buffer of a MIDI input port has as many events as the port remembers. -/
def Pud.Counted (midi : MidiApi Events) (pud : Pud Sample Events) : Prop :=
  ∀ memory, pud.type = .midi → pud.direction = .input → pud.buf = some memory →
    pud.nframes = midi.getEventCount memory.events

section Counted

variable {midi : MidiApi Events} {pud : Pud Sample Events}

theorem counted_of_output (isOutput : pud.direction = .output) : pud.Counted midi := by
  intro memory _ isInput
  rw [isOutput] at isInput
  cases isInput

theorem counted_getBuffer (nframes : BitVec 32) (buf : Option (Memory Sample Events))
    (counted : pud.Counted midi) : (getBuffer midi nframes buf pud).2.Counted midi := by
  rcases pud with ⟨valid, owner, type, direction, old, oldNframes, bufp, touched⟩
  cases old with
  | some memory => exact counted
  | none =>
      cases buf with
      | none =>
          intro memory _ _ isBuf
          cases isBuf
      | some memory =>
          cases type with
          | audio =>
              intro _ isMidi
              cases isMidi
          | midi =>
              cases direction with
              | output => exact counted_of_output rfl
              | input =>
                  intro found _ _ isFound
                  cases isFound
                  rfl

theorem counted_midiWrite (time : CheckInteger) (data : Except String (List UInt8))
    (counted : pud.Counted midi) : (midiWrite midi time data pud).2.Counted midi := by
  apply holds_check (checkBuffer_same pud) counted
  intro memory _
  apply holds_check rfl counted
  intro _ isOk
  have isOutput := checkIsOutput_ok isOk
  simp only
  cases time with
  | error message => exact counted
  | ok time =>
      cases data with
      | error message => exact counted
      | ok data =>
          simp only
          split
          · exact counted
          · split
            · exact counted
            · cases midi.eventReserve memory.events (time.setWidth 32) data.length with
              | none => exact counted
              | some reserved => exact counted_of_output isOutput

theorem counted_midiRead (arg : OptInteger) (counted : pud.Counted midi) :
    (midiRead midi arg pud).2.Counted midi := by
  apply holds_check (checkBuffer_same pud) counted
  intro memory _
  apply holds_check rfl counted
  intro _ _
  rw [Fallible.asks_bind]
  apply holds_check rfl counted
  intro index _
  simp only [id]
  split
  · exact counted
  · cases midi.eventGet memory.events index with
    | none =>
        simp only
        exact counted
    | some event => exact counted

theorem counted_midiSeek (arg : Option LuaInteger) (counted : pud.Counted midi) :
    (midiSeek arg pud).2.Counted midi := by
  apply holds_check (checkBuffer_same pud) counted
  intro memory _
  apply holds_check rfl counted
  intro _ _
  rw [Fallible.asks_bind]
  cases arg with
  | none => exact counted
  | some index =>
      simp only [id, Option.map_some]
      split
      · exact counted
      · exact counted

/-- The loop of `MidiCopy` moves the position of the source. -/
theorem copyLoop_ports (srcevents : Events) {remaining : Nat} {i : BitVec 32}
    {memory : Memory Sample Events} (pair : Pair Sample Events) :
    ∃ copied buf bufp, copyLoop midi srcevents remaining i memory pair =
      (.ok copied, ⟨{ pair.pud with buf }, { pair.srcpud with bufp }⟩) := by
  induction remaining generalizing i memory pair with
  | zero => exact ⟨i, _, _, rfl⟩
  | succ remaining ih =>
      rw [copyLoop, Fallible.asks_bind]
      simp only [id]
      cases midi.eventGet srcevents pair.srcpud.bufp with
      | none => exact ⟨i, _, _, rfl⟩
      | some event =>
          simp only
          cases midi.eventWrite memory.events event with
          | none => exact ⟨i, _, _, rfl⟩
          | some events =>
              exact ih ⟨{ pair.pud with buf := some { memory with events } },
                { pair.srcpud with bufp := pair.srcpud.bufp + 1 }⟩

theorem counted_midiCopy (count : OptInteger) {pair : Pair Sample Events}
    (both : pair.Both (Pud.Counted midi)) :
    (midiCopy midi count pair).2.Both (Pud.Counted midi) := by
  unfold midiCopy
  rcases checkPorts_cases .midi pair with ⟨message, fails⟩ | ⟨memory, srcmemory, checked⟩
  · rw [Fallible.bind_of_error fails]
    exact both
  · rw [Fallible.bind_of_ok (checkPorts_of_checked checked)]
    simp only [Fallible.asks_bind, id]
    split
    · exact both
    · cases count with
      | error message => exact both
      | ok count =>
          rw [Fallible.bind_of_ok (optInteger_ok _ _ _)]
          rcases copyLoop_ports srcmemory.events pair with ⟨copied, buf, bufp, isAfter⟩
          rw [Fallible.bind_of_ok isAfter]
          exact ⟨counted_of_output checked.direction, both.2⟩

variable [Zero Sample]

theorem counted_invariant :
    PortInvariant midi (Pud.Counted midi : Pud Sample Events → Prop) where
  new := fun cud type direction memory _ _ isBuf => by cases isBuf
  close := fun pud counted => counted
  drop := fun pud _ memory _ _ isBuf => by cases isBuf
  getBuffer := fun nframes buf pud counted => counted_getBuffer nframes buf counted
  audio := by
    intro pud after isAudio moves _ memory isMidi
    rw [moves.type, isAudio] at isMidi
    cases isMidi
  midiWrite := fun time data pud counted => counted_midiWrite time data counted
  midiRead := fun index pud counted => counted_midiRead index counted
  midiSeek := fun index pud counted => counted_midiSeek index counted
  midiCopy := fun count pair both => counted_midiCopy count both

/-- In every run, an input port whose buffer has been retrieved can be read. -/
theorem readable_of_run {actions : List (Action Sample Events)}
    {state : State Sample Events}
    (run : (cycles midi).run actions .initial = some state) {key : Addr}
    (found : state.puds key = some pud) {memory : Memory Sample Events}
    (type : pud.type = .midi)
    (direction : pud.direction = .input) (buf : pud.buf = some memory) :
    pud.Readable midi memory where
  type := type
  direction := direction
  buf := buf
  nframes := all_run counted_invariant run key pud found memory type direction buf
  bufp := (sound_run run key pud found).bufp (by rw [buf]; rfl)

end Counted

/-- Two events, of which the first has been read. -/
def oneRead : Pud Int (List MidiEvent) := { twoEventsPud with bufp := 1 }

theorem counts_twoEvents (size : BitVec 64) : (MidiApi.lists size).Counts twoEvents := by
  intro index
  show twoEvents[index.toNat]?.isSome = true ↔ index < 2
  rw [Option.isSome_iff_ne_none, ne_eq, List.getElem?_eq_none_iff,
    Nat.not_le, BitVec.lt_def]
  rfl

theorem readable_oneRead (size : BitVec 64) :
    oneRead.Readable (.lists size) ⟨fun _ => 0, twoEvents⟩ :=
  ⟨rfl, rfl, rfl, rfl, by decide⟩

theorem readsAt_iff_oneRead : ReadsAt (.lists 64) ⟨fun _ => 0, twoEvents⟩ 1 oneRead :=
  (readsAt_iff (.lists 64) ⟨fun _ => 0, twoEvents⟩ (counts_twoEvents 64) oneRead
    (readable_oneRead 64) 1 (by decide)).mpr (.inl (by decide))

/-- The first event is read again, and then the position is behind the second. -/
theorem not_readsAt : oneRead.Readable (.lists 64) ⟨fun _ => 0, twoEvents⟩ ∧
    (0 : LuaInteger).setWidth 32 ≤ oneRead.nframes ∧
    ¬ ReadsAt (.lists 64) ⟨fun _ => 0, twoEvents⟩ 0 oneRead := by
  refine ⟨readable_oneRead 64, by decide, ?_⟩
  intro reads
  exact absurd (reads.advances (by decide)) (by decide)

end LuaJack.Buffer
