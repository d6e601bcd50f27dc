import LuaJack.Ringbuffer.Writer
import LuaJack.Ringbuffer.Reader

/-!
# Undisturbed calls

What a call does to a ringbuffer that nobody else uses meanwhile.  Being
undisturbed is a special case of being interleaved, so this follows from what
the two sides keep.
-/

namespace LuaJack.Ringbuffer

open Atomic

/-- The ringbuffer holds exactly these messages. -/
def Ring.Holds (ring : Ring) (messages : List Message) : Prop :=
  ring.readable = Message.stream messages

/-- A log after which the given messages are unread. -/
def sentLog (messages : List Message) : List (Side × Event) :=
  messages.map fun message =>
    (.writer, .wrote (.cwrite message.tag (some message.data) message.short) .written)

theorem after_sentLog (messages mailbox : List Message) :
    Mailbox.after mailbox ((sentLog messages).map Prod.snd) =
      some (mailbox ++ messages) := by
  induction messages generalizing mailbox with
  | nil => simp [sentLog]
  | cons message messages ih =>
      have tail := ih (mailbox ++ [message])
      simp only [sentLog, List.map_cons, Mailbox.after_cons] at tail ⊢
      rw [List.append_assoc] at tail
      exact tail

section

variable {ring : Ring} {messages : List Message}

/-- Both sides are outside any call. -/
theorem turn_of_holds (holds : ring.Holds messages) (side : Side) :
    discipline.Turn side (discipline.idle side) discipline.idle ring
      (sentLog messages) := by
  have consistent : Consistent .idle .idle messages ring (sentLog messages) := by
    refine ⟨after_sentLog messages [], ?_, trivial, trivial⟩
    simp only [WriterPhase.inflight, WriterPhase.header, List.append_nil]
    exact holds
  refine ⟨rfl, ?_, messages, consistent⟩
  intro other _
  cases other <;> trivial

/-- The writer alone. -/
theorem run_writer {α : Type} {post : α → WriterPhase → Prop} {program : RingProgram α}
    (holds : ring.Holds messages) (keeps : WriterKeeps post .idle program) :
    ∃ phase, post (program.run RingOp.exec ring).1 phase ∧
      (program.run RingOp.exec ring).2.readable =
        Message.stream (messages ++ phase.inflight) ++ phase.header := by
  rcases keeps.run (turn_of_holds holds .writer) with ⟨phase, done, unread, consistent⟩
  refine ⟨phase, done, ?_⟩
  have history := consistent.history
  rw [after_sentLog, Option.some.injEq] at history
  have same : messages = unread := history
  rw [same]
  exact consistent.bytes

/-- The reader alone. -/
theorem run_reader {α : Type} {post : α → ReaderPhase → Prop} {program : RingProgram α}
    (holds : ring.Holds messages) (keeps : ReaderKeeps post .idle program) :
    ∃ phase rest, post (program.run RingOp.exec ring).1 phase ∧
      messages = phase.taken ++ rest ∧ (program.run RingOp.exec ring).2.Holds rest ∧
      phase.Holds (program.run RingOp.exec ring).2 rest rest := by
  rcases keeps.run (turn_of_holds holds .reader) with ⟨phase, done, unread, consistent⟩
  have consistent : Consistent .idle phase unread _ _ := consistent
  have history := consistent.history
  have bytes := consistent.bytes
  have knows := consistent.readerKnows
  rw [after_sentLog, Option.some.injEq] at history
  simp only [WriterPhase.inflight, WriterPhase.header, List.append_nil] at bytes
  simp only [WriterPhase.current, List.append_nil] at knows
  exact ⟨phase, unread, done, history, bytes, knows⟩

/-- Only the bytes that the header announces are written. -/
theorem writeMessage_take (hdr : Hdr) (data : List UInt8) :
    writeMessage hdr (data.take hdr.len.toNat) = writeMessage hdr data := by
  have same : writeData (data.take hdr.len.toNat) hdr.len.toNat =
      writeData data hdr.len.toNat := by
    unfold writeData
    congr 1
    funext vec
    split
    next => rfl
    next =>
      split
      next => rw [List.take_take, Nat.min_self]
      next wraps =>
        have le : vec.1.len ≤ hdr.len.toNat := Nat.le_of_not_le wraps
        rw [List.take_take, Nat.min_eq_left le, List.drop_take,
          List.take_take, Nat.min_self]
  simp only [writeMessage, same]

/-- A write of one message appends it, or fails and leaves the messages as they are. -/
theorem run_writeMessage (message : Message) (holds : ring.Holds messages) :
    let (outcome, after) := (writeMessage message.hdr message.data).run RingOp.exec ring
    (outcome = .written ∧ after.Holds (messages ++ [message])) ∨
    (outcome = .noSpace ∧ after.Holds messages) := by
  rcases run_writer holds (keeps_writeMessage message) with
    ⟨phase, ⟨written, rfl⟩ | ⟨full, space, rfl⟩, bytes⟩
  · simp only [WriterPhase.inflight, WriterPhase.header, List.append_nil] at bytes
    exact .inl ⟨written, bytes⟩
  · simp only [WriterPhase.inflight, WriterPhase.header, List.append_nil] at bytes
    exact .inr ⟨full, bytes⟩

/-- A Lua write appends a message, or fails and leaves the messages as they are. -/
theorem run_luawrite (tag : Option LuaInteger) (data : Option (List UInt8))
    (holds : ring.Holds messages) :
    let (outcome, after) := (ringbufferLuawrite tag data).run RingOp.exec ring
    (∃ message, outcome = .written ∧ after.Holds (messages ++ [message])) ∨
    ((outcome = .noSpace ∨ outcome = .invalidTag) ∧ after.Holds messages) := by
  cases tag with
  | none => exact .inr ⟨.inr rfl, holds⟩
  | some tag =>
      let message := Message.ofData (tag.setWidth 32) (data.getD [])
      have isWrite : ringbufferLuawrite (some tag) data =
          writeMessage message.hdr message.data := by
        rw [Message.ofData_hdr]
        cases data with
        | none => rfl
        | some data =>
            exact (writeMessage_take ⟨_, BitVec.ofNat 32 data.length⟩ data).symm
      rw [isWrite]
      rcases run_writeMessage message holds with ⟨written, after⟩ | ⟨full, after⟩
      · exact .inl ⟨message, written, after⟩
      · exact .inr ⟨.inl full, after⟩

/-- A call that either takes the first message or reports that there is none. -/
def Takes {α : Type} (success : α → Bool) (result : α) (phase : ReaderPhase) : Prop :=
  if success result then ∃ message, phase = .took message else phase = .vacant

/-- Such a call succeeds exactly when there is a message, and takes it. -/
theorem run_takes {α : Type} {program : RingProgram α} {success : α → Bool}
    (holds : ring.Holds messages) (keeps : ReaderKeeps (Takes success) .idle program) :
    success (program.run RingOp.exec ring).1 = !messages.isEmpty ∧
      (program.run RingOp.exec ring).2.Holds messages.tail := by
  rcases run_reader holds keeps with ⟨phase, rest, done, rfl, after, knows⟩
  unfold Takes at done
  split at done
  next succeeded =>
    rcases done with ⟨message, rfl⟩
    exact ⟨succeeded, after⟩
  next failed =>
    subst done
    have empty : rest = [] := knows
    subst empty
    exact ⟨Bool.eq_false_iff.mpr failed, after⟩

theorem keeps_luaread :
    ReaderKeeps (Takes Option.isSome) .idle (ringbufferLuaread true) := by
  apply Discipline.Keeps.bind (keeps_readMessage none true)
  intro outcome phase done
  rcases done with ⟨rfl, vacant⟩ | ⟨message, absent, _⟩ | ⟨message, rfl, took⟩
  · exact vacant
  · cases absent
  · exact ⟨message, took⟩

/-- A Lua read takes the first message, if there is one. -/
theorem run_luaread (holds : ring.Holds messages) :
    ((ringbufferLuaread true).run RingOp.exec ring).1.isSome = !messages.isEmpty ∧
      ((ringbufferLuaread true).run RingOp.exec ring).2.Holds messages.tail :=
  run_takes holds keeps_luaread

/-- An advance takes the first message, if there is one. -/
theorem run_luareadAdvance (holds : ring.Holds messages) :
    (ringbufferLuareadAdvance.run RingOp.exec ring).1 = !messages.isEmpty ∧
      (ringbufferLuareadAdvance.run RingOp.exec ring).2.Holds messages.tail :=
  @run_takes _ _ _ _ id holds keeps_advanceMessage

/-- A Lua read that does not advance finds the first message and leaves it. -/
theorem run_luapeek (holds : ring.Holds messages) :
    ((ringbufferLuaread false).run RingOp.exec ring).1.isSome = !messages.isEmpty ∧
      ((ringbufferLuaread false).run RingOp.exec ring).2.Holds messages := by
  have keeps : ReaderKeeps (fun result phase =>
      if result.isSome then ∃ message,
      ReaderPhase.Shows message phase else phase = .vacant)
      .idle (ringbufferLuaread false) := by
    apply Discipline.Keeps.bind (keeps_readMessage none false)
    intro outcome phase done
    rcases done with ⟨rfl, vacant⟩ | ⟨message, absent, _⟩ | ⟨message, rfl, shows⟩
    · exact vacant
    · cases absent
    · exact ⟨message, shows⟩
  rcases run_reader holds keeps with ⟨phase, rest, done, rfl, after, knows⟩
  split at done
  next succeeded =>
    rcases done with ⟨message, shows⟩
    have untaken : phase.taken = [] := by rcases shows with rfl | ⟨vec, rfl⟩ <;> rfl
    have first : rest.head? = some message := by
      rcases shows with rfl | ⟨vec, rfl⟩
      · exact knows
      · exact knows.1
    rcases List.head?_eq_some_iff.mp first with ⟨others, rfl⟩
    rw [untaken]
    exact ⟨succeeded, after⟩
  next failed =>
    subst done
    have empty : rest = [] := knows
    subst empty
    exact ⟨Bool.eq_false_iff.mpr failed, after⟩

end

/-! ## Any ringbuffer

What a call reports on a ringbuffer with arbitrary contents. -/

section

variable (ring : Ring)

/-- The copying part of a write publishes what it was asked for, if there is room. -/
theorem run_writeData {data : List UInt8} {len : Nat} (room : len ≤ ring.writeSpace) :
    ((writeData data len).run RingOp.exec ring).1 = .written := by
  have total : ring.writeVector.1.len + ring.writeVector.2.len = ring.writeSpace :=
    ring.writeVector_covers.total
  have enough : ¬ring.writeVector.1.len + ring.writeVector.2.len < len := by
    rw [total]
    exact Nat.not_lt.mpr room
  change (Program.run RingOp.exec
    (if ring.writeVector.1.len + ring.writeVector.2.len < len then _ else _) ring).1 = _
  rw [if_neg enough]
  split
  · simp only [Program.run_bind, Program.pure_eq, Program.run_done]
  · simp only [Program.run_bind, Program.pure_eq, Program.run_done]

/-- A write succeeds exactly when there is room for the header and the data. -/
theorem run_writeMessage_outcome (hdr : Hdr) (data : List UInt8) :
    ((writeMessage hdr data).run RingOp.exec ring).1 =
      if ring.writeSpace < Hdr.size + hdr.len.toNat then .noSpace else .written := by
  change (Program.run RingOp.exec
    (if ring.writeSpace < Hdr.size + hdr.len.toNat then _ else _) ring).1 = _
  split
  next full => rfl
  next room =>
    have fits : hdr.bytes.length ≤ ring.writeSpace := by
      rw [Hdr.bytes_length]
      omega
    obtain ⟨count, readable, size⟩ := ring.push_of_fits fits
    rw [Hdr.bytes_length] at count
    change (Program.run RingOp.exec
      (if (ring.push hdr.bytes).1 ≠ Hdr.size then _ else _) (ring.push hdr.bytes).2).1 = _
    rw [if_neg (not_not_intro count)]
    split
    next => rfl
    next =>
      apply run_writeData
      rw [Circular.writeSpace_eq, readable, size,
        List.length_append, Circular.readable_length, Hdr.bytes_length]
      have := ring.readSpace_add_writeSpace
      omega

/-- The length of the data of the first message, if that is complete. -/
def Ring.first : Option Nat :=
  if (ring.peek Hdr.size).length ≠ Hdr.size then none
  else if ring.readSpace <
    Hdr.size + (Hdr.ofBytes (ring.peek Hdr.size)).len.toNat then none
  else some (Hdr.ofBytes (ring.peek Hdr.size)).len.toNat

/-- Without a complete message a read finds nothing. -/
theorem run_readMessage_none {bufsz : Option Nat}
    {advance : Bool} (none : ring.first = none) :
    (readMessage bufsz advance).run RingOp.exec ring = (.empty, ring) := by
  change Program.run RingOp.exec
    (if (ring.peek Hdr.size).length ≠ Hdr.size then _ else _) ring = _
  unfold Ring.first at none
  split at none
  next short => rw [if_pos short]; rfl
  next whole =>
    rw [if_neg whole]
    change Program.run RingOp.exec
      (if ring.readSpace < Hdr.size + (Hdr.ofBytes (ring.peek Hdr.size)).len.toNat then _
        else _)
      ring = _
    split at none
    next missing => rw [if_pos missing]; rfl
    next => cases none

theorem first_eq_some {ring : Ring} {len : Nat} (some : ring.first = some len) :
    ¬(ring.peek Hdr.size).length ≠ Hdr.size ∧
      ¬ring.readSpace < Hdr.size + (Hdr.ofBytes (ring.peek Hdr.size)).len.toNat ∧
      (Hdr.ofBytes (ring.peek Hdr.size)).len.toNat = len := by
  unfold Ring.first at some
  split at some
  next => cases some
  next whole =>
    split at some
    next => cases some
    next enough =>
      cases some
      exact ⟨whole, enough, rfl⟩

theorem unlimited {len : Nat} : ¬(none : Option Nat).any (· < len) = true :=
  Bool.false_ne_true

/-- A message that is too long for the caller's buffer stays where it is. -/
theorem run_readMessage_small {bufsz : Option Nat} {advance : Bool} {len : Nat}
    (some : ring.first = some len) (small : bufsz.any (· < len)) :
    (readMessage bufsz advance).run RingOp.exec ring = (.tooSmall len, ring) := by
  obtain ⟨whole, enough, rfl⟩ := first_eq_some some
  change Program.run RingOp.exec
    (if (ring.peek Hdr.size).length ≠ Hdr.size then _ else _) ring = _
  rw [if_neg whole]
  change Program.run RingOp.exec
    (if ring.readSpace < Hdr.size + (Hdr.ofBytes (ring.peek Hdr.size)).len.toNat
      then _ else _) ring = _
  rw [if_neg enough, if_pos small]
  rfl

/-- A buffer that is large enough makes no difference. -/
theorem run_readMessage_large {bufsz : Option Nat} {advance : Bool} {len : Nat}
    (some : ring.first = some len) (large : ¬bufsz.any (· < len)) :
    (readMessage bufsz advance).run RingOp.exec ring =
      (readMessage none advance).run RingOp.exec ring := by
  obtain ⟨whole, enough, rfl⟩ := first_eq_some some
  change Program.run RingOp.exec
    (if (ring.peek Hdr.size).length ≠ Hdr.size then _ else _) ring =
    Program.run RingOp.exec (if (ring.peek Hdr.size).length ≠ Hdr.size then _ else _) ring
  rw [if_neg whole, if_neg whole]
  change Program.run RingOp.exec
    (if ring.readSpace < Hdr.size + (Hdr.ofBytes (ring.peek Hdr.size)).len.toNat
      then _ else _) ring = Program.run RingOp.exec
    (if ring.readSpace < Hdr.size + (Hdr.ofBytes (ring.peek Hdr.size)).len.toNat
      then _ else _) ring
  rw [if_neg enough, if_neg enough, if_neg large, if_neg unlimited]

/-- The read ends with a message. -/
def ReadOutcome.isMessage : ReadOutcome → Bool
  | .message _ _ => true
  | .empty | .tooSmall _ => false

/-- Without a buffer a read finds a complete message. -/
theorem run_readMessage_some {advance : Bool} {len : Nat} (some : ring.first = some len) :
    ((readMessage none advance).run RingOp.exec ring).1.isMessage = true := by
  obtain ⟨whole, enough, rfl⟩ := first_eq_some some
  change ReadOutcome.isMessage (Program.run RingOp.exec
    (if (ring.peek Hdr.size).length ≠ Hdr.size then _ else _) ring).1 = true
  rw [if_neg whole]
  change ReadOutcome.isMessage (Program.run RingOp.exec
    (if ring.readSpace < Hdr.size + (Hdr.ofBytes (ring.peek Hdr.size)).len.toNat
      then _ else _) ring).1 = true
  rw [if_neg enough, if_neg unlimited]
  split
  next =>
    split
    next => rfl
    next => rfl
  next =>
    rw [ringOp, Program.perform_bind, Program.run_act, Program.run_bind]
    split
    next => rfl
    next => rfl

/-- A Lua read is a read without a buffer. -/
theorem run_luaread_eq (advance : Bool) :
    ((ringbufferLuaread advance).run RingOp.exec ring).1.isSome =
        ((readMessage none advance).run RingOp.exec ring).1.isMessage ∧
      ((ringbufferLuaread advance).run RingOp.exec ring).2 =
        ((readMessage none advance).run RingOp.exec ring).2 := by
  unfold ringbufferLuaread
  rw [Program.run_bind]
  cases ((readMessage none advance).run RingOp.exec ring).1 with
  | message tag data => exact ⟨rfl, rfl⟩
  | empty => exact ⟨rfl, rfl⟩
  | tooSmall needed => exact ⟨rfl, rfl⟩

end

end LuaJack.Ringbuffer
