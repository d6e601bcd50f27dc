import LuaJack.Atomic.Machine
import LuaJack.Ringbuffer.Alone
import LuaJack.Syncpipe

/-!
# Ringbuffers with a pipe

A ringbuffer created with `usepipe` has a pipe whose read end makes `select`
return.  A write accesses first the ringbuffer and then the pipe; so does a read.
Between the two accesses of one side the other side may perform any of its own.

The bytes in the pipe must cover the messages in the ringbuffer.  The reader reads
a byte even when it has found no message, and a byte written to a full pipe is
dropped, so they do not always: this module says exactly when.
-/

namespace LuaJack.Rbuf

open Atomic Ringbuffer

/-- The parts of a `rud_t` with a pipe that the two sides share. -/
structure PipedRing where
  rbuf : Ring
  pipe : Pipe

/-- Where the writer is: outside `RingbufferWrite`, or between the two accesses. -/
inductive Writer where
  | outside
  | wrote (success : Bool)
  deriving DecidableEq, Repr

/-- Where the reader is: outside `RingbufferRead` and `RingbufferReadAdvance`, or
between the two accesses. -/
inductive Reader where
  | outside
  | consulted (found : Bool)
  deriving DecidableEq, Repr

/-- A ringbuffer in use. -/
structure State where
  piped : PipedRing
  writer : Writer
  reader : Reader

/-- The accesses of the two sides. -/
inductive Access where
  | luawrite (tag : Option LuaInteger) (data : Option (List UInt8))
  | pipeWrite
  | luaread
  | luareadAdvance
  | pipeRead

/-- `rbuf_pipe_write`. -/
def PipedRing.pipeWrite (piped : PipedRing) : PipedRing :=
  { piped with pipe := (syncpipeWrite piped.pipe).2 }

/-- `rbuf_pipe_read`. -/
def PipedRing.pipeRead (piped : PipedRing) : PipedRing :=
  { piped with pipe := (syncpipeRead piped.pipe).2 }

/-- What remains of `RingbufferWrite` after `ringbuffer_luawrite`: nothing if that
has raised a Lua error. -/
def Writer.after : WriteOutcome → Writer
  | .written => .wrote true
  | .noSpace => .wrote false
  | .invalidTag | .unexpectedError => .outside

/-- One access; each side performs its accesses in the order of the source. -/
def step : Machine Access State
  | .luawrite tag data, state =>
      match state.writer with
      | .outside =>
          let (outcome, rbuf) :=
            (ringbufferLuawrite tag data).run RingOp.exec state.piped.rbuf
          some { state with piped := { state.piped with rbuf }, writer := .after outcome }
      | .wrote _ => none
  | .pipeWrite, state =>
      match state.writer with
      | .outside => none
      | .wrote _ => some { state with piped := state.piped.pipeWrite, writer := .outside }
  | .luaread, state =>
      match state.reader with
      | .outside =>
          let (result, rbuf) := (ringbufferLuaread true).run RingOp.exec state.piped.rbuf
          some { state with
            piped := { state.piped with rbuf }, reader := .consulted result.isSome }
      | .consulted _ => none
  | .luareadAdvance, state =>
      match state.reader with
      | .outside =>
          let (success, rbuf) := ringbufferLuareadAdvance.run RingOp.exec state.piped.rbuf
          some { state with
            piped := { state.piped with rbuf }
            reader := .consulted success }
      | .consulted _ => none
  | .pipeRead, state =>
      match state.reader with
      | .outside => none
      | .consulted _ =>
          some { state with piped := state.piped.pipeRead, reader := .outside }

namespace State

/-- Both sides are outside any call. -/
def initial (piped : PipedRing) : State where
  piped
  writer := .outside
  reader := .outside

/-- Neither side is inside a call. -/
def Quiet (state : State) : Prop := state.writer = .outside ∧ state.reader = .outside

/-- The number of complete messages in the ringbuffer. -/
def messages (state : State) : Nat := (Message.complete state.piped.rbuf.readable).length

/-- The number of bytes in the pipe. -/
def bytes (state : State) : Nat := state.piped.pipe.bytes

/-- The writer has yet to write the byte for a message. -/
def owed (state : State) : Nat := if state.writer = .wrote true then 1 else 0

/-- The reader has yet to read the byte of a message. -/
def due (state : State) : Nat := if state.reader = .consulted true then 1 else 0

/-- There is a byte for every message. -/
def Covered (state : State) : Prop :=
  state.messages + state.due ≤ state.bytes + state.owed

end State

/-- The access leaves a byte for every message: a reader that has found nothing
does not read the byte of a message that came later, and the byte of a message is
not dropped. -/
def Harmless : Access → State → Prop
  | .pipeRead, state => state.reader = .consulted false →
      state.messages = 0 ∨ state.bytes = 0 ∨ state.messages < state.bytes + state.owed
  | .pipeWrite, state => state.writer = .wrote true →
      ¬state.piped.pipe.Full ∨ state.messages + state.due ≤ state.bytes
  | _, _ => True

instance : ∀ access state, Decidable (Harmless access state)
  | .pipeRead, _ => inferInstanceAs (Decidable (_ → _))
  | .pipeWrite, _ => inferInstanceAs (Decidable (_ → _))
  | .luawrite .., _ | .luaread, _ | .luareadAdvance, _ => inferInstanceAs (Decidable True)

/-- The ringbuffer holds whole messages. -/
def State.Whole (state : State) : Prop := ∃ messages, state.piped.rbuf.Holds messages

theorem State.messages_eq {state : State} {messages : List Message}
    (holds : state.piped.rbuf.Holds messages) : state.messages = messages.length := by
  rw [State.messages, holds, Message.complete_stream]

section Step

variable {state next : State} {access : Access}

theorem step_luawrite {tag : Option LuaInteger} {data : Option (List UInt8)}
    (whole : state.Whole) (performed : step (.luawrite tag data) state = some next) :
    state.writer = .outside ∧ next.Whole ∧ next.reader = state.reader ∧
      next.bytes = state.bytes ∧ next.messages = state.messages + next.owed := by
  rcases whole with ⟨messages, holds⟩
  simp only [step] at performed
  split at performed
  next outside =>
    cases performed
    refine ⟨outside, ?_⟩
    rcases run_luawrite tag data holds with ⟨message, written, after⟩ | ⟨failed, after⟩
    · refine ⟨⟨_, after⟩, rfl, rfl, ?_⟩
      rw [State.messages_eq after, State.messages_eq holds, State.owed, written]
      exact List.length_append
    · refine ⟨⟨_, after⟩, rfl, rfl, ?_⟩
      rw [State.messages_eq after, State.messages_eq holds, State.owed]
      rcases failed with full | invalid
      · rw [full]
        rfl
      · rw [invalid]
        rfl
  next => cases performed

/-- The effect of taking a message on the counts. -/
theorem State.messages_tail {messages : List Message} {found : Bool}
    (isFound : found = !messages.isEmpty) (holds : state.piped.rbuf.Holds messages)
    (after : next.piped.rbuf.Holds messages.tail)
    (reader : next.reader = .consulted found) :
    next.messages + next.due = state.messages := by
  rw [messages_eq after, messages_eq holds, due, reader, isFound]
  cases messages with
  | nil => rfl
  | cons message rest => rfl

theorem step_consult (whole : state.Whole)
    (consults : access = .luaread ∨ access = .luareadAdvance)
    (performed : step access state = some next) :
    state.reader = .outside ∧ next.Whole ∧ next.writer = state.writer ∧
      next.bytes = state.bytes ∧ next.messages + next.due = state.messages := by
  rcases whole with ⟨messages, holds⟩
  rcases consults with rfl | rfl
  · simp only [step] at performed
    split at performed
    next outside =>
      cases performed
      rcases run_luaread holds with ⟨isFound, after⟩
      exact ⟨outside, ⟨_, after⟩, rfl, rfl, State.messages_tail isFound holds after rfl⟩
    next => cases performed
  · simp only [step] at performed
    split at performed
    next outside =>
      cases performed
      rcases run_luareadAdvance holds with ⟨isFound, after⟩
      exact ⟨outside, ⟨_, after⟩, rfl, rfl, State.messages_tail isFound holds after rfl⟩
    next => cases performed

theorem step_pipeWrite (performed : step .pipeWrite state = some next) :
    ∃ success, state.writer = .wrote success ∧
      next = { state with piped := state.piped.pipeWrite, writer := .outside } := by
  simp only [step] at performed
  split at performed
  next => cases performed
  next success inside =>
    cases performed
    exact ⟨success, inside, rfl⟩

theorem step_pipeRead (performed : step .pipeRead state = some next) :
    ∃ found, state.reader = .consulted found ∧
      next = { state with piped := state.piped.pipeRead, reader := .outside } := by
  simp only [step] at performed
  split at performed
  next => cases performed
  next found inside =>
    cases performed
    exact ⟨found, inside, rfl⟩

/-- The ringbuffer always holds whole messages between the accesses. -/
theorem whole_of_step (whole : state.Whole) (performed : step access state = some next) :
    next.Whole := by
  cases access with
  | luawrite tag data => exact (step_luawrite whole performed).2.1
  | luaread => exact (step_consult whole (.inl rfl) performed).2.1
  | luareadAdvance => exact (step_consult whole (.inr rfl) performed).2.1
  | pipeWrite =>
      rcases step_pipeWrite performed with ⟨success, _, rfl⟩
      exact whole
  | pipeRead =>
      rcases step_pipeRead performed with ⟨found, _, rfl⟩
      exact whole

/-- Exactly the harmless accesses keep a byte for every message. -/
theorem covered_iff (whole : state.Whole) (covered : state.Covered)
    (performed : step access state = some next) :
    next.Covered ↔ Harmless access state := by
  unfold State.Covered at covered ⊢
  cases access with
  | luawrite tag data =>
      rcases step_luawrite whole performed with ⟨outside, _, reader, bytes, messages⟩
      have owed : state.owed = 0 := by rw [State.owed, outside]; rfl
      have due : next.due = state.due := by rw [State.due, State.due, reader]
      simp only [Harmless, iff_true]
      omega
  | luaread =>
      rcases step_consult whole (.inl rfl) performed with
        ⟨outside, _, writer, bytes, messages⟩
      have owed : next.owed = state.owed := by rw [State.owed, State.owed, writer]
      simp only [Harmless, iff_true]
      omega
  | luareadAdvance =>
      rcases step_consult whole (.inr rfl) performed with
        ⟨outside, _, writer, bytes, messages⟩
      have owed : next.owed = state.owed := by rw [State.owed, State.owed, writer]
      simp only [Harmless, iff_true]
      omega
  | pipeWrite =>
      rcases step_pipeWrite performed with ⟨success, inside, rfl⟩
      show state.messages + state.due ≤ (syncpipeWrite state.piped.pipe).2.bytes + 0 ↔ _
      rw [syncpipeWrite_bytes]
      cases success with
      | false =>
          have owed : state.owed = 0 := by rw [State.owed, inside]; rfl
          have noMessage : state.writer ≠ .wrote true := by rw [inside]; decide
          rw [owed] at covered
          have le : state.messages + state.due ≤ state.piped.pipe.bytes := covered
          simp only [Harmless, noMessage, false_imp_iff, iff_true]
          split <;> omega
      | true =>
          have owed : state.owed = 1 := by rw [State.owed, inside]; rfl
          rw [owed] at covered
          have le : state.messages + state.due ≤ state.piped.pipe.bytes + 1 := covered
          simp only [Harmless, inside, true_imp_iff, State.bytes]
          split
          next full => simp [full]
          next room => simp [room, le]
  | pipeRead =>
      rcases step_pipeRead performed with ⟨found, inside, rfl⟩
      show state.messages + 0 ≤ (syncpipeRead state.piped.pipe).2.bytes + state.owed ↔ _
      rw [syncpipeRead_bytes]
      have bytes : state.bytes = state.piped.pipe.bytes := rfl
      cases found with
      | true =>
          have due : state.due = 1 := by rw [State.due, inside]; rfl
          have hasFound : state.reader ≠ .consulted false := by rw [inside]; decide
          simp only [Harmless, hasFound, false_imp_iff, iff_true]
          omega
      | false =>
          have due : state.due = 0 := by rw [State.due, inside]; rfl
          simp only [Harmless, inside, true_imp_iff]
          omega

end Step

/-! ## Runs -/

/-- The invariant of runs of harmless accesses. -/
structure State.Intact (state : State) : Prop where
  whole : state.Whole
  covered : state.Covered

theorem intact_initial {piped : PipedRing} (empty : piped.rbuf.readable = []) :
    (State.initial piped).Intact := by
  have holds : (State.initial piped).piped.rbuf.Holds [] := empty
  refine ⟨⟨[], holds⟩, ?_⟩
  rw [State.Covered, State.messages_eq holds]
  exact Nat.zero_le _

/-- Covered messages keep the pipe ready while neither side is inside a call. -/
theorem ready_of_covered {state : State} (covered : state.Covered) (quiet : state.Quiet)
    (message : 0 < state.messages) : state.piped.pipe.Ready := by
  have owed : state.owed = 0 := by
    rw [State.owed, quiet.1]
    rfl
  rw [State.Covered, owed] at covered
  exact Nat.lt_of_lt_of_le message (Nat.le_trans (Nat.le_add_right ..) covered)

/-- In every run of harmless accesses on a new ringbuffer, whenever neither side is
inside a call and there is a complete message, the pipe is ready. -/
theorem ready_of_harmless {piped : PipedRing} {accesses : List Access} {state : State}
    (empty : piped.rbuf.readable = [])
    (harmless : step.Along Harmless accesses (.initial piped))
    (run : step.run accesses (.initial piped) = some state) (quiet : state.Quiet)
    (message : 0 < state.messages) : state.piped.pipe.Ready := by
  have kept : state.Intact := by
    apply Machine.invariant_of_run _ (intact_initial empty) harmless run
    intro access state next intact condition performed
    exact ⟨whole_of_step intact.whole performed,
      (covered_iff intact.whole intact.covered performed).mpr condition⟩
  exact ready_of_covered kept.covered quiet message

/-- Two writes and a read. -/
theorem ready_of_harmless_undisturbed :
    ∃ state, step.run
      [.luawrite (some 7) (some [1, 2]), .pipeWrite, .luawrite (some 8) none,
        .luaread, .pipeWrite, .pipeRead]
        (.initial ⟨Circular.create 32 (by decide) 0, .new 65536⟩) = some state ∧
      state.messages = 1 ∧ state.piped.pipe.Ready := by
  refine ⟨_, rfl, by decide, ?_⟩
  exact @ready_of_harmless ⟨Circular.create 32 (by decide) 0, .new 65536⟩
    [.luawrite (some 7) (some [1, 2]), .pipeWrite,
      .luawrite (some 8) none, .luaread, .pipeWrite,
      .pipeRead] _ rfl (by decide) rfl ⟨rfl, rfl⟩ (by decide)

/-- The reader finds nothing, the writer sends a message, and the reader reads the
byte of that message. -/
theorem not_always_ready :
    ¬∀ accesses state, step.run accesses
        (.initial ⟨Circular.create 16 (by decide) 0, .new 65536⟩) = some state →
      state.Quiet → 0 < state.messages → state.piped.pipe.Ready := by
  intro always
  have ready := always [.luaread, .luawrite (some 7) none, .pipeWrite, .pipeRead] _ rfl
    ⟨rfl, rfl⟩ (by decide)
  exact absurd ready (by decide)

end LuaJack.Rbuf
