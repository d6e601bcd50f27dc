import LuaJack.Buffer.Ports

/-!
# Copies of MIDI events

`MidiCopy` copies events one after the other until enough have been copied, the source
has no more of them, or the destination refuses one.  Whatever stops it, the position of
the source is behind the last event that has been written, so that copies can be
resumed. -/

namespace LuaJack.Buffer

variable {Sample Events : Type}

/-! ## Events that are written one after the other -/

/-- How many events a buffer accepts until it refuses one, and the buffer with these
events. -/
def writeEvents (midi : MidiApi Events) : Events → List MidiEvent → Nat × Events
  | events, [] => (0, events)
  | events, event :: list =>
      match midi.eventWrite events event with
      | none => (0, events)
      | some after =>
          let (written, final) := writeEvents midi after list
          (written + 1, final)

/-- What is written is appended, if it is not refused. -/
def MidiApi.Appends (midi : MidiApi Events) (contents : Events → List MidiEvent) : Prop :=
  ∀ events event after, midi.eventWrite events event = some after →
    contents after = contents events ++ [event]

section Write

variable {midi : MidiApi Events} {contents : Events → List MidiEvent}

theorem writeEvents_le (events : Events) (list : List MidiEvent) :
    (writeEvents midi events list).1 ≤ list.length := by
  induction list generalizing events with
  | nil => exact Nat.le_refl _
  | cons event list ih =>
      rw [writeEvents]
      cases midi.eventWrite events event with
      | none => exact Nat.zero_le _
      | some after => exact Nat.succ_le_succ (ih after)

/-- The events that are accepted can be written one after the other. -/
theorem writeEvents_foldlM (events : Events) (list : List MidiEvent) :
    (list.take (writeEvents midi events list).1).foldlM midi.eventWrite events =
      some (writeEvents midi events list).2 := by
  induction list generalizing events with
  | nil => rfl
  | cons event list ih =>
      rw [writeEvents]
      cases isWritten : midi.eventWrite events event with
      | none => rfl
      | some after =>
          simp only [List.take_succ_cons, List.foldlM_cons, isWritten]
          exact ih after

/-- No more events than these can be. -/
theorem writeEvents_longest (events : Events) (list : List MidiEvent) {longer : Nat}
    (less : (writeEvents midi events list).1 < longer) (le : longer ≤ list.length) :
    (list.take longer).foldlM midi.eventWrite events = none := by
  induction list generalizing events longer with
  | nil =>
      rw [writeEvents] at less
      exact absurd (Nat.lt_of_lt_of_le less le) (Nat.lt_irrefl _)
  | cons event list ih =>
      cases longer with
      | zero => exact absurd less (Nat.not_lt_zero _)
      | succ longer =>
          rw [List.take_succ_cons, List.foldlM_cons]
          rw [writeEvents] at less
          cases isWritten : midi.eventWrite events event with
          | none => rfl
          | some after =>
              rw [isWritten] at less
              exact ih after (Nat.lt_of_succ_lt_succ less) (Nat.le_of_succ_le_succ le)

/-- Events that have been written are appended in their order, and as they are. -/
theorem contents_foldlM (appends : midi.Appends contents) {events final : Events}
    {list : List MidiEvent} (isFinal : list.foldlM midi.eventWrite events = some final) :
    contents final = contents events ++ list := by
  induction list generalizing events with
  | nil =>
      cases isFinal
      exact (List.append_nil _).symm
  | cons event list ih =>
      rw [List.foldlM_cons] at isFinal
      rcases Option.bind_eq_some_iff.mp isFinal with ⟨after, isWritten, isFinal⟩
      rw [ih isFinal, appends events event after isWritten, List.append_assoc]
      rfl

end Write

/-! ## The loop -/

/-- The events of the source from its position on. -/
def Pud.pending (list : List MidiEvent) (pud : Pud Sample Events) : List MidiEvent :=
  list.drop pud.bufp.toNat

/-- The ports after events have been written to the one, and passed over in the other. -/
def Pair.copied (pair : Pair Sample Events)
    (memory : Memory Sample Events) (count : Nat) :
    Pair Sample Events where
  pud := { pair.pud with buf := some memory }
  srcpud := { pair.srcpud with bufp := pair.srcpud.bufp + .ofNat 32 count }

section Loop

variable {midi : MidiApi Events} {srcevents : Events} {list : List MidiEvent}
variable {pair : Pair Sample Events} {memory : Memory Sample Events}

/-- The ports after the events that can be written have been written. -/
def Pair.written (midi : MidiApi Events) (memory : Memory Sample Events)
    (list : List MidiEvent) (pair : Pair Sample Events) : Pair Sample Events :=
  pair.copied { memory with events := (writeEvents midi memory.events list).2 }
    (writeEvents midi memory.events list).1

theorem copied_zero (isBuf : pair.pud.buf = some memory) :
    pair.copied memory 0 = pair := by
  have isBufp : pair.srcpud.bufp + .ofNat 32 0 = pair.srcpud.bufp := BitVec.add_zero _
  unfold Pair.copied
  rw [← isBuf, isBufp]

/-- No event is written. -/
theorem written_of_none (isBuf : pair.pud.buf = some memory)
    (isNone : writeEvents midi memory.events list = (0, memory.events)) (i : BitVec 32) :
    ((.ok i, pair) : Except String (BitVec 32) × Pair Sample Events) =
      (.ok (i + .ofNat 32 (writeEvents midi memory.events list).1),
        pair.written midi memory list) := by
  have same : pair.written midi memory list = pair := by
    rw [Pair.written, isNone]
    exact copied_zero isBuf
  rw [same, isNone]
  exact congrArg (fun i => (Except.ok i, pair)) (BitVec.add_zero i).symm

/-- The first event is written, and then the others. -/
theorem written_cons {event : MidiEvent} {events : Events}
    (isEvents : midi.eventWrite memory.events event = some events) :
    pair.written midi memory (event :: list) =
      Pair.written midi { memory with events } list
        (pair.copied { memory with events } 1) := by
  unfold Pair.written Pair.copied
  rw [writeEvents, isEvents]
  simp only [BitVec.add_assoc, ← BitVec.ofNat_add, Nat.add_comm]

/-- The loop writes the events of the source until enough of them are written, or the
destination refuses one. -/
theorem copyLoop_eq (gets : ∀ index : BitVec 32,
      midi.eventGet srcevents index = list[index.toNat]?)
    {remaining : Nat} {i : BitVec 32} (isBuf : pair.pud.buf = some memory)
    (fits : remaining ≤ pair.srcpud.avail.toNat) {pending : List MidiEvent}
    (isPending : (pair.srcpud.pending list).take remaining = pending) :
    copyLoop midi srcevents remaining i memory pair =
      (.ok (i + .ofNat 32 (writeEvents midi memory.events pending).1),
        pair.written midi memory pending) := by
  induction remaining generalizing i memory pair pending with
  | zero =>
      rw [List.take_zero] at isPending
      exact written_of_none isBuf (by rw [← isPending]; rfl) i
  | succ remaining ih =>
      rw [copyLoop, Fallible.asks_bind]
      simp only [id, gets]
      unfold Pud.pending at isPending
      cases isEvent : list[pair.srcpud.bufp.toNat]? with
      | none =>
          rw [List.drop_eq_nil_of_le (List.getElem?_eq_none_iff.mp isEvent),
            List.take_nil]
            at isPending
          exact written_of_none isBuf (by rw [← isPending]; rfl) i
      | some event =>
          rcases List.getElem?_eq_some_iff.mp isEvent with ⟨less, isEvent⟩
          rw [List.drop_eq_getElem_cons less, isEvent, List.take_succ_cons] at isPending
          simp only
          cases isEvents : midi.eventWrite memory.events event with
          | none =>
              exact written_of_none isBuf (by rw [← isPending, writeEvents, isEvents]) i
          | some events =>
              have isAvail := avail_toNat pair.srcpud
              have bound := pair.srcpud.nframes.isLt
              have isNext : (pair.srcpud.bufp + .ofNat 32 1).toNat =
                  pair.srcpud.bufp.toNat + 1 := by
                bv_omega
              have later : remaining ≤
                  (pair.copied { memory with events } 1).srcpud.avail.toNat := by
                rw [avail_toNat]
                show remaining ≤ pair.srcpud.nframes.toNat -
                    (pair.srcpud.bufp + .ofNat 32 1).toNat
                omega
              have isLater : ((pair.copied { memory with events } 1).srcpud.pending
                  list).take remaining =
                    (list.drop (pair.srcpud.bufp.toNat + 1)).take remaining := by
                rw [← isNext]
                rfl
              have isSum : i + .ofNat 32 1 + .ofNat 32 (writeEvents midi events
                  ((list.drop (pair.srcpud.bufp.toNat + 1)).take remaining)).1 =
                i + .ofNat 32 (writeEvents midi memory.events pending).1 := by
                rw [← isPending, writeEvents, isEvents,
                  BitVec.add_assoc, ← BitVec.ofNat_add, Nat.add_comm]
              rw [← isSum, ← isPending, written_cons isEvents]
              exact ih rfl later isLater

end Loop

/-! ## Copies -/

/-- A MIDI input port whose buffer has been retrieved, and holds a list of events. -/
structure Pud.Source (midi : MidiApi Events) (list : List MidiEvent)
    (srcmemory : Memory Sample Events) (srcpud : Pud Sample Events) : Prop where
  type : srcpud.type = .midi
  direction : srcpud.direction = .input
  buf : srcpud.buf = some srcmemory
  gets : ∀ index : BitVec 32, midi.eventGet srcmemory.events index = list[index.toNat]?
  nframes : srcpud.nframes.toNat = list.length

/-- An output port whose buffer has been retrieved, and how many events are to be copied
to it. -/
structure Destination (Sample Events : Type) where
  pud : Pud Sample Events
  memory : Memory Sample Events
  count : BitVec 32
  direction : pud.direction = .output
  buf : pud.buf = some memory

/-- Copy events to a port. -/
def Destination.copy (midi : MidiApi Events) (destination : Destination Sample Events)
    (srcpud : Pud Sample Events) :
    Except String (List (Value Sample)) × Pair Sample Events :=
  midiCopy midi (.ok (some (destination.count.setWidth 64))) ⟨destination.pud, srcpud⟩

/-- What `MidiRead` returns for an event. -/
def returned : Option MidiEvent → List (Value Sample)
  | none => [.nil]
  | some event => [.integer (event.time.setWidth 64), .string event.buffer]

/-- A copy has appended the longest part of a list of events that the port accepts, and
the position of the source is behind them. -/
structure CopiesPrefix (midi : MidiApi Events) (contents : Events → List MidiEvent)
    (destination : Destination Sample Events) (srcpud : Pud Sample Events)
    (events : List MidiEvent) (copied : Nat)
    (result : Except String (List (Value Sample)) × Pair Sample Events) : Prop where
  le : copied ≤ events.length
  appended : ∃ after, (events.take copied).foldlM
    midi.eventWrite destination.memory.events =
      some after ∧
    contents after = contents destination.memory.events ++ events.take copied ∧
    result.2.pud =
      { destination.pud with buf := some { destination.memory with events := after } }
  longest : ∀ longer, copied < longer → longer ≤ events.length →
    (events.take longer).foldlM midi.eventWrite destination.memory.events = none
  returned : result.1 = .ok [.integer (.ofNat 64 copied)]
  advanced : ∃ bufp, bufp.toNat = srcpud.bufp.toNat + copied ∧
    result.2.srcpud = { srcpud with bufp }

section Copies

variable {midi : MidiApi Events} {contents : Events → List MidiEvent}
  {list : List MidiEvent}
variable {srcmemory : Memory Sample Events} {srcpud : Pud Sample Events}

theorem Pud.Source.with_bufp {bufp : BitVec 32}
    (source : srcpud.Source midi list srcmemory) :
    ({ srcpud with bufp } : Pud Sample Events).Source midi list srcmemory :=
  ⟨source.type, source.direction, source.buf, source.gets, source.nframes⟩

variable (source : srcpud.Source midi list srcmemory)
include source

theorem checked_of_source (destination : Destination Sample Events) :
    Pair.Checked .midi destination.memory srcmemory ⟨destination.pud, srcpud⟩ :=
  ⟨source.type, source.direction, destination.direction, destination.buf, source.buf⟩

theorem pending_length : (srcpud.pending list).length = srcpud.avail.toNat := by
  rw [Pud.pending, List.length_drop, ← source.nframes, avail_toNat]

/-- No more events are written than are left. -/
theorem written_le_avail (destination : Destination Sample Events) :
    (writeEvents midi destination.memory.events
      ((srcpud.pending list).take destination.count.toNat)).1 ≤ srcpud.avail.toNat := by
  rw [← pending_length source]
  exact (writeEvents_le _ _).trans (List.length_take_le' _ _)

/-- What is copied, by the number of events that are to be copied. -/
theorem copy_eq (destination : Destination Sample Events) :
    destination.copy midi srcpud =
      (.ok [.integer (.ofNat 64 (writeEvents midi destination.memory.events
          ((srcpud.pending list).take destination.count.toNat)).1)],
        Pair.written midi destination.memory
          ((srcpud.pending list).take destination.count.toNat)
            ⟨destination.pud, srcpud⟩) := by
  have isLength := pending_length source
  unfold Destination.copy midiCopy
  rw [Fallible.bind_of_ok (checkPorts_of_checked (checked_of_source source destination))]
  simp only [Fallible.asks_bind, id]
  by_cases atEnd : srcpud.avail = 0
  · have isNil : srcpud.pending list = [] := by
      rw [atEnd] at isLength
      exact List.eq_nil_of_length_eq_zero isLength
    have isPair : Pair.written midi destination.memory [] ⟨destination.pud, srcpud⟩ =
        ⟨destination.pud, srcpud⟩ := copied_zero destination.buf
    rw [if_pos atEnd, isNil, List.take_nil, isPair]
    rfl
  · rw [if_neg atEnd, Fallible.bind_of_ok optInteger_count]
    generalize isLimited : (if srcpud.avail < destination.count then srcpud.avail
      else destination.count) = limited
    have isNat : limited.toNat = min destination.count.toNat srcpud.avail.toNat := by
      rw [← isLimited]
      simp only [BitVec.lt_def]
      split <;> omega
    have isPending : (srcpud.pending list).take limited.toNat =
        (srcpud.pending list).take destination.count.toNat := by
      rw [isNat, ← isLength, List.take_eq_take_iff]
      omega
    have fits : limited.toNat ≤ srcpud.avail.toNat := by
      rw [isNat]
      exact Nat.min_le_right _ _
    have copies := @copyLoop_eq _ _ midi srcmemory.events list ⟨destination.pud, srcpud⟩
      destination.memory source.gets limited.toNat 0 destination.buf fits _ isPending
    rw [Fallible.bind_of_ok copies]
    have writtenLe := written_le_avail source destination
    have bound := srcpud.avail.isLt
    generalize (writeEvents midi destination.memory.events
      ((srcpud.pending list).take destination.count.toNat)).1 = written at writtenLe
    have isReturned : (0 + BitVec.ofNat 32 written).setWidth 64 =
        .ofNat 64 written := by bv_omega
    rw [← isReturned]
    rfl

/-- A copy appends the longest part of the events that are left, as many as are to be
copied. -/
theorem exists_copiesPrefix (appends : midi.Appends contents)
    (destination : Destination Sample Events) :
    ∃ copied, CopiesPrefix midi contents destination srcpud
      ((srcpud.pending list).take destination.count.toNat) copied
      (destination.copy midi srcpud) := by
  have isWritten := @writeEvents_foldlM _ midi destination.memory.events
    ((srcpud.pending list).take destination.count.toNat)
  refine ⟨(writeEvents midi destination.memory.events
    ((srcpud.pending list).take destination.count.toNat)).1,
      writeEvents_le _ _, ?_, ?_, ?_, ?_⟩
  · refine ⟨_, isWritten, contents_foldlM appends isWritten, ?_⟩
    rw [copy_eq source]
    rfl
  · exact fun longer less le => writeEvents_longest _ _ less le
  · rw [copy_eq source]
  · have writtenLe := written_le_avail source destination
    have isAvail := avail_toNat srcpud
    have bound := srcpud.nframes.isLt
    have bufpBound := srcpud.bufp.isLt
    refine ⟨srcpud.bufp + .ofNat 32 _, ?_, by rw [copy_eq source]; rfl⟩
    generalize (writeEvents midi destination.memory.events
      ((srcpud.pending list).take destination.count.toNat)).1 = written at writtenLe
    bv_omega

/-- What `MidiRead` returns is the first event that is left. -/
theorem midiRead_source :
    (midiRead midi (.ok none) srcpud).1 = .ok (returned list[srcpud.bufp.toNat]?) := by
  have isAvail := avail_toNat srcpud
  have isNframes := source.nframes
  unfold midiRead
  rw [Fallible.bind_of_ok (checkBuffer_of_buf source.buf),
    Fallible.bind_of_ok (checkIsInput_of_input source.direction), Fallible.asks_bind]
  simp only [id]
  rw [Fallible.bind_of_ok (optInteger_ok _ _ _)]
  by_cases atEnd : srcpud.avail = 0
  · rw [atEnd] at isAvail
    have isNone : list[srcpud.bufp.toNat]? = none := by
      rw [List.getElem?_eq_none_iff, ← isNframes]
      exact Nat.le_of_sub_eq_zero isAvail.symm
    rw [if_pos atEnd, isNone]
    rfl
  · rw [if_neg atEnd, advance, Fallible.modify_bind]
    simp only [Option.map_none, Option.getD_none, source.gets]
    cases list[srcpud.bufp.toNat]? with
    | none => rfl
    | some event => rfl

end Copies

/-! ## Copies that are resumed -/

/-- Copy events to one port after the other, from where the last copy has stopped. -/
def copies (midi : MidiApi Events) :
    List (Destination Sample Events) → Pud Sample Events →
      List (Pud Sample Events) × Pud Sample Events
  | [], srcpud => ([], srcpud)
  | destination :: destinations, srcpud =>
      let pair := (destination.copy midi srcpud).2
      let (puds, final) := copies midi destinations pair.srcpud
      (pair.pud :: puds, final)

/-- The events in the buffer of a port, if it has been retrieved. -/
def Pud.contents (contents : Events → List MidiEvent) (pud : Pud Sample Events) :
    Option (List MidiEvent) :=
  pud.buf.map fun memory => contents memory.events

section Resumed

variable {midi : MidiApi Events} {contents : Events → List MidiEvent}
  {list : List MidiEvent}
variable {srcmemory : Memory Sample Events} {srcpud : Pud Sample Events}

/-- What has been copied and what is left then are the events that were left before. -/
theorem CopiesPrefix.pending {destination : Destination Sample Events} {copied : Nat}
    {result : Except String (List (Value Sample)) × Pair Sample Events}
    (copies : CopiesPrefix midi contents destination srcpud
      ((srcpud.pending list).take destination.count.toNat) copied result) :
    ((srcpud.pending list).take destination.count.toNat).take copied ++
      result.2.srcpud.pending list = srcpud.pending list := by
  rcases copies.advanced with ⟨bufp, isBufp, isAfter⟩
  have le := copies.le.trans (List.length_take_le _ _)
  have isLeft : result.2.srcpud.pending list = (srcpud.pending list).drop copied := by
    rw [isAfter, Pud.pending, isBufp, Pud.pending, List.drop_drop]
  rw [isLeft, List.take_take, Nat.min_eq_left le, List.take_append_drop]

/-- The ports have received the events of the source, each event once and in their
order, up to those that are left. -/
theorem copies_deliver (appends : midi.Appends contents)
    (source : srcpud.Source midi list srcmemory)
    (destinations : List (Destination Sample Events)) :
    ∃ parts : List (List MidiEvent),
      (copies midi destinations srcpud).1.map (Pud.contents contents) =
        List.zipWith
          (fun destination part => some (contents destination.memory.events ++ part))
          destinations parts ∧
      parts.length = destinations.length ∧
      parts.flatten ++ (copies midi destinations srcpud).2.pending list =
        srcpud.pending list := by
  induction destinations generalizing srcpud with
  | nil => exact ⟨[], rfl, rfl, rfl⟩
  | cons destination destinations ih =>
      rcases exists_copiesPrefix source appends destination with ⟨copied, isCopied⟩
      have isPending := isCopied.pending
      rcases isCopied.appended with ⟨after, _, isContents, isPud⟩
      rcases isCopied.advanced with ⟨bufp, _, isAfter⟩
      rcases @ih (destination.copy midi srcpud).2.srcpud
        (by rw [isAfter]; exact source.with_bufp)
        with ⟨parts, received, isLength, isLeft⟩
      refine ⟨((srcpud.pending list).take destination.count.toNat).take
        copied :: parts, ?_,
        congrArg Nat.succ isLength, ?_⟩
      · rw [copies, List.zipWith_cons_cons, ← received, ← isContents]
        simp only [List.map_cons, isPud]
        rfl
      · rw [List.flatten_cons, List.append_assoc, copies, isLeft]
        exact isPending

/-- A copy appends the longest part of the events that are left, limited to the number
that is passed, which the destination accepts, and returns the number of these events; a
read returns the next event then. The ports to which events are copied one after the
other receive each event once. -/
theorem midiCopy_resumed (midi : MidiApi Events) (contents : Events → List MidiEvent)
    (appends : midi.Appends contents) (list : List MidiEvent)
    (srcmemory : Memory Sample Events)
    (srcpud : Pud Sample Events) (source : srcpud.Source midi list srcmemory) :
    (∀ destination : Destination Sample Events, ∃ copied,
      CopiesPrefix midi contents destination srcpud
        ((srcpud.pending list).take destination.count.toNat) copied
        (destination.copy midi srcpud) ∧
      (midiRead midi (.ok none) (destination.copy midi srcpud).2.srcpud).1 =
        .ok (returned list[srcpud.bufp.toNat + copied]?)) ∧
    ∀ destinations : List (Destination Sample Events), ∃ parts : List (List MidiEvent),
      (copies midi destinations srcpud).1.map (Pud.contents contents) =
        List.zipWith
          (fun destination part => some (contents destination.memory.events ++ part))
          destinations parts ∧
      parts.length = destinations.length ∧
      parts.flatten ++ (copies midi destinations srcpud).2.pending list =
        srcpud.pending list := by
  constructor
  · intro destination
    rcases exists_copiesPrefix source appends destination with ⟨copied, isCopied⟩
    refine ⟨copied, isCopied, ?_⟩
    rcases isCopied.advanced with ⟨bufp, isBufp, isAfter⟩
    rw [isAfter, midiRead_source source.with_bufp, ← isBufp]
  · exact copies_deliver appends source

end Resumed

/-- Two events, of which the second is longer. -/
def twoEvents : List MidiEvent := [⟨0, [144]⟩, ⟨5, [128, 64]⟩]

def twoEventsPud : Pud Int (List MidiEvent) :=
  { (Pud.new 7 .midi .input : Pud Int (List MidiEvent)) with
    buf := some ⟨fun _ => 0, twoEvents⟩, nframes := 2 }

def emptyDestination : Destination Int (List MidiEvent) where
  pud := { (Pud.new 7 .midi .output : Pud Int (List MidiEvent)) with
    buf := some ⟨fun _ => 0, []⟩, nframes := 64 }
  memory := ⟨fun _ => 0, []⟩
  count := 9
  direction := rfl
  buf := rfl

theorem appends_lists (size : BitVec 64) : (MidiApi.lists size).Appends id := by
  intro events event after isAfter
  simp only [MidiApi.lists] at isAfter
  split at isAfter
  · cases isAfter
    rfl
  · cases isAfter

theorem source_twoEvents (size : BitVec 64) :
    twoEventsPud.Source (.lists size) twoEvents ⟨fun _ => 0, twoEvents⟩ :=
  ⟨rfl, rfl, rfl, fun _ => rfl, rfl⟩

/-- The second event is not accepted, and is read next. -/
theorem midiCopy_resumed_twoEvents : (∃ copied,
    CopiesPrefix (.lists 1) id emptyDestination twoEventsPud twoEvents copied
      (emptyDestination.copy (.lists 1) twoEventsPud)) ∧
    (emptyDestination.copy (.lists 1) twoEventsPud).2.pud.contents id =
      some [⟨0, [144]⟩] ∧
    (emptyDestination.copy (.lists 1) twoEventsPud).2.srcpud.bufp = 1 := by
  refine ⟨?_, rfl, rfl⟩
  rcases (midiCopy_resumed (.lists 1) id (appends_lists 1) twoEvents _ twoEventsPud
    (source_twoEvents 1)).1 emptyDestination with ⟨copied, isCopied, _⟩
  exact ⟨copied, isCopied⟩

end LuaJack.Buffer
