import LuaJack.Atomic.Ghost
import LuaJack.Ringbuffer.Mailbox

/-!
# What the two sides of a ringbuffer know

The writer and the reader of a ringbuffer run concurrently, step by step.  Each
side is in a phase, which records how far its current call has come and what it
may rely on whatever the other side does meanwhile.

The invariant that both sides keep: the bytes in the ringbuffer are those of the
unread messages, followed by the header of the message whose data the writer has
yet to publish; and the log of returned calls is a history of a mailbox.
-/

namespace LuaJack.Ringbuffer

open Atomic

/-- The two threads that use a ringbuffer. -/
inductive Side where
  | writer
  | reader
  deriving DecidableEq, Repr

/-- A ringbuffer shared by a writer and a reader. -/
def ringbuffer : System Side RingOp RingOp.Answer Event Ring where
  meaning := fun op before answer after => (answer, after) = op.exec before
  calls := fun side program =>
    match side with
    | .writer => ∃ call : WriterCall, program = call.program
    | .reader => ∃ call : ReaderCall, program = call.program

/-! ## Ghost values -/

/-- What the writer's current call has achieved. -/
inductive WriterPhase where
  | idle
  /-- There are at least `space` free bytes. -/
  | room (space : Nat)
  /-- The header of the message is published, its data is not. -/
  | opened (message : Message)
  /-- The first `count` bytes of the data are stored through the write vector. -/
  | staged (message : Message) (vec : Segment × Segment) (count : Nat)
  /-- The message is published. -/
  | published (message : Message)

/-- What the reader's current call has achieved. -/
inductive ReaderPhase where
  | idle
  /-- There is no complete message. -/
  | vacant
  /-- The first message, which may be incomplete, has this header. -/
  | peeked (hdr : Hdr)
  /-- The first message is complete. -/
  | found (message : Message)
  /-- The first message is complete and accessible through the read vector. -/
  | viewed (message : Message) (vec : Segment × Segment)
  /-- The message is consumed. -/
  | took (message : Message)

namespace WriterPhase

/-- The message that is complete in the ringbuffer but not yet in the log. -/
def inflight : WriterPhase → List Message
  | published message => [message]
  | _ => []

/-- The message that is in the ringbuffer, wholly or only its header. -/
def current : WriterPhase → List Message
  | opened message | staged message _ _ | published message => [message]
  | _ => []

/-- The published header whose data is still missing. -/
def header : WriterPhase → List UInt8
  | opened message | staged message _ _ => message.hdr.bytes
  | _ => []

/-- What the writer knows about the ringbuffer. -/
def Holds (ring : Ring) : WriterPhase → Prop
  | idle | published _ => True
  | room space => space ≤ ring.writeSpace
  | opened message => 0 < message.data.length ∧ message.data.length ≤ ring.writeSpace
  | staged message vec count =>
      0 < message.data.length ∧ message.data.length ≤ ring.writeSpace ∧
      count ≤ message.data.length ∧
      (∃ total, Circular.Covers ring ring.write total vec) ∧
      ring.window ring.write count = message.data.take count

/-- The phases that the thread may rest in. -/
def Settled : WriterPhase → Prop
  | published _ => False
  | _ => True

/-- The writer's knowledge survives what the reader does. -/
theorem Holds.readAdvance {ring : Ring} {phase : WriterPhase} {count : Nat}
    (holds : phase.Holds ring) (le : count ≤ ring.readSpace) :
    phase.Holds (ring.readAdvance count) := by
  have grows := ring.writeSpace_readAdvance le
  cases phase with
  | idle | published message => trivial
  | room space =>
      simp only [Holds, grows] at holds ⊢
      omega
  | opened message =>
      simp only [Holds, grows] at holds ⊢
      omega
  | staged message vec number =>
      rcases holds with ⟨nonempty, space, inside, ⟨total, covers⟩, window⟩
      refine ⟨nonempty, ?_, inside,
        ⟨total, covers.total, covers.first, covers.second⟩, window⟩
      rw [grows]
      omega

end WriterPhase

namespace ReaderPhase

/-- The message that is gone from the ringbuffer but not yet in the log. -/
def taken : ReaderPhase → List Message
  | took message => [message]
  | _ => []

/-- What the reader knows, given the messages that are complete and those that
are in the ringbuffer at all. -/
def Holds (ring : Ring) (complete present : List Message) : ReaderPhase → Prop
  | idle | took _ => True
  | vacant => complete = []
  | peeked hdr => ∃ message, present.head? = some message ∧ message.hdr = hdr
  | found message => complete.head? = some message
  | viewed message vec =>
      complete.head? = some message ∧ ∃ total, Hdr.size + message.data.length ≤ total ∧
        Circular.Covers ring ring.read total vec

/-- The phases that the thread may rest in. -/
def Settled : ReaderPhase → Prop
  | vacant | took _ => False
  | _ => True

theorem Settled.taken {phase : ReaderPhase} (settled : phase.Settled) :
    phase.taken = [] := by
  cases phase with
  | took message => exact settled.elim
  | idle | vacant | peeked | found | viewed => rfl

/-- The reader's knowledge survives what the writer does. -/
theorem Holds.mono {before after : Ring}
    {complete complete' present present' : List Message}
    {phase : ReaderPhase} (settled : phase.Settled)
    (holds : phase.Holds before complete present)
    (size : after.size = before.size) (read : after.read = before.read)
    (completeGrows : complete <+: complete') (presentGrows : present <+: present') :
    phase.Holds after complete' present' := by
  have stays : ∀ {first second : List Message} {message : Message}, first <+: second →
      first.head? = some message → second.head? = some message := by
    intro first second message grows isHead
    rcases grows with ⟨rest, rfl⟩
    simp [isHead]
  cases phase with
  | idle => trivial
  | vacant | took message => exact settled.elim
  | peeked hdr =>
      rcases holds with ⟨message, isHead, hasHdr⟩
      exact ⟨message, stays presentGrows isHead, hasHdr⟩
  | found message => exact stays completeGrows holds
  | viewed message vec =>
      rcases holds with ⟨isHead, total, enough, covers⟩
      refine ⟨stays completeGrows isHead, total, enough, ?_⟩
      rw [read]
      refine ⟨covers.total, ?_, ?_⟩
      · rw [size]
        exact covers.first
      · rw [size]
        exact covers.second

end ReaderPhase

/-! ## The invariant -/

/-- The log is a history of a mailbox that holds the messages `unread`; the bytes
in the ringbuffer are theirs. -/
structure Consistent (writer : WriterPhase) (reader : ReaderPhase) (unread : List Message)
    (ring : Ring) (log : List (Side × Event)) : Prop where
  history : Mailbox.after [] (log.map Prod.snd) = some (reader.taken ++ unread)
  bytes : ring.readable = Message.stream (unread ++ writer.inflight) ++ writer.header
  writerKnows : writer.Holds ring
  readerKnows : reader.Holds ring unread (unread ++ writer.current)

/-- The ghost discipline of the two threads. -/
def discipline : Discipline Side RingOp RingOp.Answer Event Ring where
  Ghost := fun
    | .writer => WriterPhase
    | .reader => ReaderPhase
  idle := fun
    | .writer => .idle
    | .reader => .idle
  settled := fun
    | .writer => WriterPhase.Settled
    | .reader => ReaderPhase.Settled
  invariant := fun phases ring log =>
    ∃ unread, Consistent (phases .writer) (phases .reader) unread ring log

namespace Consistent

variable {writer writer' : WriterPhase} {reader reader' : ReaderPhase}
variable {unread unread' : List Message} {ring ring' : Ring} {log : List (Side × Event)}

/-- What the writer has to show for one of its operations. -/
theorem writerStep (holds : Consistent writer reader unread ring log)
    (settled : reader.Settled)
    (size : ring'.size = ring.size) (read : ring'.read = ring.read)
    (bytes : ring'.readable = Message.stream (unread ++ writer'.inflight) ++
      writer'.header)
    (knows : writer'.Holds ring') (current : writer.current <+: writer'.current) :
    Consistent writer' reader unread ring' log where
  history := holds.history
  bytes := bytes
  writerKnows := knows
  readerKnows := holds.readerKnows.mono settled size read (List.prefix_refl _)
    ((List.prefix_append_right_inj unread).mpr current)

/-- An operation of the writer that does not change the ringbuffer. -/
theorem writerLearns (holds : Consistent writer reader unread ring log)
    (settled : reader.Settled) (knows : writer'.Holds ring)
    (inflight : writer'.inflight = writer.inflight)
    (current : writer.current <+: writer'.current)
    (header : writer'.header = writer.header) :
    Consistent writer' reader unread ring log := by
  apply holds.writerStep settled rfl rfl _ knows current
  rw [inflight, header]
  exact holds.bytes

/-- A call of the writer reports the message that it has published, if any. -/
theorem writerReports (holds : Consistent writer reader unread ring log)
    (settled : reader.Settled) {event : Event}
    (closed : writer.header = []) (whole : writer.current = writer.inflight)
    (accepted : Mailbox.accept unread event = some (unread ++ writer.inflight)) :
    Consistent .idle reader (unread ++ writer.inflight) ring
      (log ++ [(.writer, event)]) where
  history := by
    rw [List.map_append, Mailbox.after_append, holds.history, settled.taken]
    simp [Mailbox.after_cons, accepted]
  bytes := by
    rw [holds.bytes, closed]
    simp [WriterPhase.inflight, WriterPhase.header]
  writerKnows := trivial
  readerKnows := by
    apply holds.readerKnows.mono settled rfl rfl
    · exact List.prefix_append ..
    · rw [whole]
      exact List.prefix_append ..

/-- An operation of the reader that does not change the ringbuffer. -/
theorem readerLearns (holds : Consistent writer reader unread ring log)
    (knows : reader'.Holds ring unread (unread ++ writer.current))
    (taken : reader'.taken = reader.taken) :
    Consistent writer reader' unread ring log where
  history := by
    rw [taken]
    exact holds.history
  bytes := holds.bytes
  writerKnows := holds.writerKnows
  readerKnows := knows

/-- A call of the reader reports what it has found or taken. -/
theorem readerReports (holds : Consistent writer reader unread ring log) {event : Event}
    (accepted : Mailbox.accept (reader.taken ++ unread) event = some unread) :
    Consistent writer .idle unread ring (log ++ [(.reader, event)]) where
  history := by
    rw [List.map_append, Mailbox.after_append, holds.history]
    simp only [Option.bind_some, List.map_cons,
      List.map_nil, Mailbox.after_cons, accepted]
    rfl
  bytes := holds.bytes
  writerKnows := holds.writerKnows
  readerKnows := trivial

/-- The first bytes in the ringbuffer are those of the first unread message. -/
theorem readable_eq {message : Message} {rest : List Message}
    (holds : Consistent writer reader (message :: rest) ring log) :
    ring.readable =
      message.bytes ++ (Message.stream (rest ++ writer.inflight) ++ writer.header) := by
  rw [holds.bytes, List.cons_append, Message.stream_cons, List.append_assoc]

theorem le_readSpace {message : Message} {rest : List Message}
    (holds : Consistent writer reader (message :: rest) ring log) :
    Hdr.size + message.data.length ≤ ring.readSpace := by
  rw [← Circular.readable_length, holds.readable_eq,
    List.length_append, Message.bytes_length]
  exact Nat.le_add_right ..

/-- The first message is taken out of the ringbuffer. -/
theorem readerTakes {message : Message} {rest : List Message}
    (holds : Consistent writer reader (message :: rest) ring log)
    (settled : reader.Settled) :
    Consistent writer (.took message) rest
      (ring.readAdvance (Hdr.size + message.data.length)) log := by
  constructor
  · have history := holds.history
    rw [settled.taken] at history
    exact history
  · rw [Circular.readable_readAdvance ring holds.le_readSpace, holds.readable_eq]
    exact List.drop_left' (Message.bytes_length _)
  · exact holds.writerKnows.readAdvance holds.le_readSpace
  · trivial

end Consistent

end LuaJack.Ringbuffer
