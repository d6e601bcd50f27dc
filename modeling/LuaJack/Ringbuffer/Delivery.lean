import LuaJack.Ringbuffer.Writer
import LuaJack.Ringbuffer.Reader

/-!
# Delivery of messages

The log of any interleaving of one writer and one reader is a history of an
atomic mailbox.  So messages arrive in order, unchanged, each at most once, and
none is skipped.
-/

namespace LuaJack.Ringbuffer

open Atomic

/-- What a reader and a writer can rely on, as far as the log shows it. -/
structure Delivers (events : List Event) : Prop where
  /-- What was consumed is a prefix of what was written. -/
  inOrder : ∃ received unread, written events = received ++ unread ∧
    List.Forall₂ Agrees (consumptions events) received
  /-- A peek shows what the next read returns. -/
  peeks : ∀ before peek between next rest content found,
    events = before ++ peek :: (between ++ next :: rest) → peek.peeked = some content →
    consumptions between = [] → next.reading = some found → found = some content
  expected : ∀ event ∈ events, ¬event.Unexpected

/-- The events of a history are a delivery. -/
theorem delivers_of_history {events : List Event} {mailbox : Mailbox}
    (legal : Mailbox.after [] events = some mailbox) : Delivers events where
  inOrder := by
    rcases Mailbox.written_eq legal with ⟨received, split, agree⟩
    exact ⟨received, mailbox, split, agree⟩
  peeks := by
    rintro before peek between next rest content found rfl shown none read
    exact Mailbox.reading_eq_peeked legal shown none read
  expected := Mailbox.expected legal

/-- Every call keeps the invariant. -/
theorem keeps_call (side : Side) (program : RingProgram Event)
    (offered : ringbuffer.calls side program) :
    discipline.Keeps ringbuffer.meaning side (discipline.Returns side)
      (discipline.idle side)
      program := by
  cases side with
  | writer =>
      rcases offered with ⟨call, rfl⟩
      exact keeps_writerCall call
  | reader =>
      rcases offered with ⟨call, rfl⟩
      exact keeps_readerCall call

/-- The log of every run is a history of a mailbox. -/
theorem history_of_reaches {ring : Ring}
    {config : Config Side RingOp RingOp.Answer Event Ring}
    (empty : ring.readable = []) (run : ringbuffer.Reaches ring config) :
    ∃ mailbox, Mailbox.after [] (config.log.map Prod.snd) = some mailbox := by
  have start : discipline.invariant discipline.idle ring [] :=
    ⟨[], rfl, empty, trivial, trivial⟩
  have idleSettled : ∀ side, discipline.settled side (discipline.idle side) := by
    intro side
    cases side <;> trivial
  rcases Discipline.justified_of_reaches start idleSettled keeps_call run with
    ⟨phases, justified⟩
  rcases justified.holds with ⟨unread, holds⟩
  exact ⟨_, holds.history⟩

/-- One writer and one reader, each calling any of its functions any number of
times, interleaved in any way on a ringbuffer of any size. -/
theorem ringbuffer_delivers {ring : Ring}
    {config : Config Side RingOp RingOp.Answer Event Ring}
    (empty : ring.readable = []) (run : ringbuffer.Reaches ring config) :
    Delivers (config.log.map Prod.snd) := by
  rcases history_of_reaches empty run with ⟨mailbox, legal⟩
  exact delivers_of_history legal

/-- A call performed without the other side in between. -/
theorem steps_of_call {config : Config Side RingOp RingOp.Answer Event Ring} (side : Side)
    {program : RingProgram Event} (outside : config.running side = none)
    (offered : ringbuffer.calls side program) :
    ringbuffer.Steps config
      { shared := (program.run RingOp.exec config.shared).2
        running := config.running
        log := config.log ++ [(side, (program.run RingOp.exec config.shared).1)] } := by
  rcases Program.runs_of_run RingOp.exec program config.shared with ⟨history, run⟩
  exact System.steps_of_call outside offered run

/-- Two messages are written and read; the header of the second one straddles
the end of the array. -/
theorem ringbuffer_delivers_wrapped :
    ∃ config, ringbuffer.Reaches (Circular.create 16 (by decide) 0) config ∧
      consumptions (config.log.map Prod.snd) = [some (7, [1, 2, 3]), some (8, [4, 5])] ∧
      Delivers (config.log.map Prod.snd) := by
  have run : ringbuffer.Reaches (Circular.create 16 (by decide) 0) _ :=
    (((Relation.ReflTransGen.refl.trans
      (steps_of_call .writer rfl ⟨.cwrite 7 (some [1, 2, 3]) (by decide), rfl⟩)).trans
      (steps_of_call .reader rfl ⟨.cread 16 true, rfl⟩)).trans
      (steps_of_call .writer rfl ⟨.cwrite 8 (some [4, 5]) (by decide), rfl⟩)).trans
      (steps_of_call .reader rfl ⟨.luaread true, rfl⟩)
  refine ⟨_, run, ?_, ringbuffer_delivers rfl run⟩
  decide

end LuaJack.Ringbuffer
