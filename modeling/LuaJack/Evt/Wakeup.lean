import LuaJack.Atomic.Lock
import LuaJack.Evt.Queue
import Mathlib.Algebra.Group.Nat.Defs

/-!
# No lost wakeup

As long as no byte is dropped because the pipe is full, the counter and the
bytes in the pipe both equal the number of events in the queue whenever no
thread is inside `evt_insert` or `evt_remove`.  Once a byte has been dropped this
is no longer so, since every removal reads a byte: the queue can then hold an
event although the pipe is empty.
-/

namespace LuaJack.Evt

open Atomic

variable {ι ε : Type}

/-- What `callback_flush` and `pselect` rely on. -/
structure Awake (queue : Queue ε) : Prop where
  counted : queue.counter.toNat = queue.head.length
  ready : queue.head ≠ [] → queue.evtpipe.Ready

/-- An access neither drops a byte nor overflows the counter. -/
def Lossless : QueueOp ε → Queue ε → Prop
  | .pipeWrite, queue => ¬queue.evtpipe.Full
  | .increment, queue => queue.counter.toNat + 1 < 2 ^ 32
  | _, _ => True

/-! ## The lock -/

/-- How far the holder of the lock is ahead with each of the three records. -/
structure Progress where
  listed : Nat
  counted : Nat
  piped : Nat

/-- The three records agree up to the progress of the holder. -/
structure Progress.Holds (progress : Progress)
    (queue : Queue ε) (settled : Nat) : Prop where
  listed : queue.head.length = settled + progress.listed
  counted : queue.counter.toNat = settled + progress.counted
  piped : queue.evtpipe.bytes = settled + progress.piped

/-- The lock of `evt.c`. -/
def queueLock (ε : Type) : Lock (Queue ε) Progress where
  locked := Queue.locked
  free := fun queue => ∃ settled, Progress.Holds ⟨0, 0, 0⟩ queue settled
  held := fun progress queue => ∃ settled, progress.Holds queue settled

/-- When the three records agree, no wakeup is lost. -/
theorem awake_of_free {queue : Queue ε} (free : (queueLock ε).free queue) :
    Awake queue := by
  rcases free with ⟨settled, holds⟩
  have listed := holds.listed
  have counted := holds.counted
  have piped := holds.piped
  simp only [Nat.add_zero] at listed counted piped
  constructor
  · rw [counted, listed]
  · intro pending
    rw [Pipe.Ready, piped, ← listed]
    exact List.length_pos_iff.mpr pending

section Keeps

variable [DecidableEq ι] {α : Type} {thread : Thread ι}
  {post : α → Option Progress → Prop}

/-- The threads keep the three records together. -/
abbrev QueueKeeps (thread : Thread ι) (post : α → Option Progress → Prop)
    (phase : Option Progress) (program : QueueProgram ε α) : Prop :=
  ((queueLock ε).discipline (Thread ι) (QueueOp ε) QueueOp.Answer (Event ε)).Keeps
    ((eventQueue ι ε).restrict Lossless).meaning thread post phase program

theorem keeps_lock {rest : Unit → QueueProgram ε α}
    (continues : QueueKeeps thread post (some ⟨0, 0, 0⟩) (rest ())) :
    QueueKeeps thread post none (queueOp .lock >>= rest) := by
  apply Lock.keeps_acquire ⟨0, 0, 0⟩
  · intro before answer after performed
    rcases performed with ⟨_, free, performed⟩
    cases performed
    refine ⟨free, rfl, ?_⟩
    intro order
    rcases order with ⟨settled, listed, counted, piped⟩
    exact ⟨settled, listed, counted, piped⟩
  · intro _
    exact continues

theorem keeps_unlock {rest : Unit → QueueProgram ε α}
    (continues : QueueKeeps thread post none (rest ())) :
    QueueKeeps thread post (some ⟨0, 0, 0⟩) (queueOp .unlock >>= rest) := by
  apply Lock.keeps_release
  · intro before answer after held performed
    rcases performed with ⟨_, _, performed⟩
    cases performed
    rcases held with ⟨settled, listed, counted, piped⟩
    exact ⟨rfl, settled, listed, counted, piped⟩
  · intro _
    exact continues

/-- An access by the holder of the lock. -/
theorem keeps_access {op : QueueOp ε} {progress : Progress}
    {rest : op.Answer → QueueProgram ε α}
    (same : ∀ queue, (op.exec queue).2.locked = queue.locked)
    (step : ∀ queue settled, progress.Holds queue settled → Lossless op queue →
      ∃ progress' settled', progress'.Holds (op.exec queue).2 settled' ∧
        QueueKeeps thread post (some progress') (rest (op.exec queue).1)) :
    QueueKeeps thread post (some progress) (queueOp op >>= rest) := by
  apply Lock.keeps_inside
  intro before answer after held performed
  rcases performed with ⟨lossless, _, performed⟩
  rcases held with ⟨settled, holds⟩
  rcases step before settled holds lossless with ⟨progress', settled', holds', continues⟩
  rw [← performed] at holds' continues
  refine ⟨?_, progress', ⟨settled', holds'⟩, continues⟩
  have unlocked := same before
  rw [← performed] at unlocked
  exact unlocked

/-- An insertion adds one to each record. -/
theorem keeps_evtInsert (evt : ε) :
    QueueKeeps thread (fun _ phase => phase = none) none (evtInsert evt) := by
  apply keeps_lock
  apply keeps_access fun _ => rfl
  intro queue settled holds _
  refine ⟨⟨1, 0, 0⟩, settled, ⟨?_, holds.counted, holds.piped⟩, ?_⟩
  · simp [QueueOp.exec, holds.listed]
  apply keeps_access fun _ => rfl
  intro queue settled holds roomy
  refine ⟨⟨1, 1, 0⟩, settled, ⟨holds.listed, ?_, holds.piped⟩, ?_⟩
  · show (queue.counter + 1).toNat = settled + 1
    rw [BitVec.toNat_add, holds.counted]
    exact Nat.mod_eq_of_lt (holds.counted ▸ roomy)
  apply keeps_access fun _ => rfl
  intro queue settled holds roomy
  refine ⟨⟨0, 0, 0⟩, settled + 1, ⟨holds.listed, holds.counted, ?_⟩, ?_⟩
  · show (syncpipeWrite queue.evtpipe).2.bytes = settled + 1
    rw [syncpipeWrite_bytes, if_neg roomy, holds.piped]
    rfl
  apply keeps_unlock
  rfl

/-- A removal takes one from each record, unless there is no event. -/
theorem keeps_removeNolock :
    QueueKeeps thread (fun (_ : Option ε) phase => phase = some ⟨0, 0, 0⟩)
      (some ⟨0, 0, 0⟩)
      removeNolock := by
  apply keeps_access fun _ => rfl
  intro queue settled holds _
  show ∃ progress' settled', _ ∧ QueueKeeps thread _ (some progress')
    (if queue.head.head?.isSome then _ else _)
  cases isHead : queue.head with
  | nil => exact ⟨⟨0, 0, 0⟩, settled, holds, rfl⟩
  | cons evt rest =>
      have listed := holds.listed
      rw [isHead, List.length_cons, Nat.add_zero] at listed
      subst listed
      refine ⟨⟨1, 1, 1⟩, rest.length, ⟨holds.listed, holds.counted, holds.piped⟩, ?_⟩
      apply keeps_access fun _ => rfl
      intro queue settled holds _
      refine ⟨⟨0, 1, 1⟩, settled, ⟨?_, holds.counted, holds.piped⟩, ?_⟩
      · simp [QueueOp.exec, holds.listed]
      apply keeps_access fun _ => rfl
      intro queue settled holds _
      refine ⟨⟨0, 1, 0⟩, settled, ⟨holds.listed, holds.counted, ?_⟩, ?_⟩
      · simp [QueueOp.exec, holds.piped]
      apply keeps_access fun _ => rfl
      intro queue settled holds _
      refine ⟨⟨0, 0, 0⟩, settled, ⟨holds.listed, ?_, holds.piped⟩, rfl⟩
      show (queue.counter - 1).toNat = settled + 0
      have counted : queue.counter.toNat = settled + 1 := holds.counted
      have bound := queue.counter.isLt
      rw [BitVec.toNat_sub]
      simp
      omega

theorem keeps_evtRemove :
    QueueKeeps thread (fun (_ : Option ε) phase => phase = none) none evtRemove := by
  apply keeps_lock
  apply keeps_removeNolock.bind
  rintro evt _ rfl
  apply keeps_unlock
  rfl

/-- Every call keeps the three records together. -/
theorem keeps_call {program : QueueProgram ε (Event ε)}
    (offered : (eventQueue ι ε).calls thread program) :
    QueueKeeps thread (((queueLock ε).discipline (Thread ι) (QueueOp ε) QueueOp.Answer
      (Event ε)).Returns thread) none program := by
  cases thread with
  | jack index =>
      rcases offered with ⟨evt, rfl⟩
      apply (keeps_evtInsert evt).bind
      rintro _ _ rfl
      exact Lock.returns_none _
  | main =>
      rcases offered with rfl | rfl
      · apply Discipline.Keeps.bind keeps_evtRemove
        rintro evt _ rfl
        exact Lock.returns_none _
      · apply Lock.keeps_observe
        · intro before count after performed
          exact (Prod.mk.inj performed.2.2).2
        · intro count
          exact Lock.returns_none _

/-- In every run in which no byte is dropped and the counter does not overflow,
whenever no thread is inside `evt_insert` or `evt_remove`, the counter is right and
the pipe is ready if there are events. -/
theorem awake_of_lossless {capacity : Nat}
    {config : Config (Thread ι) (QueueOp ε) QueueOp.Answer (Event ε) (Queue ε)}
    (run : ((eventQueue ι ε).restrict Lossless).Reaches (.new ε capacity) config)
    (quiet : config.Quiet) : Awake config.shared := by
  apply awake_of_free
  have start : (queueLock ε).free (Queue.new ε capacity) := ⟨0, rfl, rfl, rfl⟩
  exact (Lock.free_of_reaches rfl start (fun _ _ => keeps_call) run quiet).2

end Keeps

/-- One event is inserted while the pipe has space for one byte. -/
theorem awake_of_lossless_one :
    ∃ config, ((eventQueue Unit Nat).restrict Lossless).Reaches (.new Nat 1) config ∧
      config.shared.head = [7] ∧ Awake config.shared := by
  have alone : Program.Runs ((eventQueue Unit Nat).restrict Lossless).meaning
      (do evtInsert 7; return Event.inserted 7) (.new Nat 1) _ (Event.inserted 7)
      ⟨false, [7], 1, (syncpipeWrite (.new 1)).2⟩ :=
    .act ⟨trivial, rfl, rfl⟩ (.act ⟨trivial, trivial, rfl⟩
      (.act ⟨Nat.lt_of_sub_eq_succ rfl, trivial, rfl⟩
        (.act ⟨Nat.zero_ne_one, trivial, rfl⟩
        (.act ⟨trivial, trivial, rfl⟩ (.done _ _)))))
  have offered : ((eventQueue Unit Nat).restrict Lossless).calls (.jack ())
      (do evtInsert 7; return .inserted 7) := ⟨7, rfl⟩
  have run : ((eventQueue Unit Nat).restrict Lossless).Reaches (.new Nat 1) _ :=
    System.steps_of_call rfl offered alone
  exact ⟨_, run, rfl, awake_of_lossless run fun _ => rfl⟩

/-! ## Dropped bytes -/

section Dropped

variable [DecidableEq ι]

/-- The effect of an undisturbed `evt_insert`. -/
def Queue.inserted (queue : Queue ε) (evt : ε) : Queue ε where
  locked := false
  head := queue.head ++ [evt]
  counter := queue.counter + 1
  evtpipe := (syncpipeWrite queue.evtpipe).2

/-- The effect of an undisturbed `evt_remove`, when there is an event. -/
def Queue.removed (queue : Queue ε) : Queue ε where
  locked := false
  head := queue.head.tail
  counter := queue.counter - 1
  evtpipe := (syncpipeRead queue.evtpipe).2

theorem runs_evtInsert {queue : Queue ε} (free : queue.locked = false) (evt : ε) :
    ∃ history, Program.Runs QueueOp.meaning
      (do evtInsert evt; return Event.inserted evt) queue
      history (Event.inserted evt) (queue.inserted evt) :=
  ⟨_, .act ⟨free, rfl⟩ (.act ⟨trivial, rfl⟩ (.act ⟨trivial, rfl⟩ (.act ⟨trivial, rfl⟩
    (.act ⟨trivial, rfl⟩ (.done _ _)))))⟩

theorem runs_evtRemove {queue : Queue ε} {evt : ε} {rest : List ε}
    (free : queue.locked = false) (isHead : queue.head = evt :: rest) :
    ∃ history, Program.Runs QueueOp.meaning (do return Event.removed (← evtRemove)) queue
      history (Event.removed (some evt)) queue.removed := by
  rcases queue with ⟨locked, head, counter, evtpipe⟩
  cases isHead
  exact ⟨_, .act ⟨free, rfl⟩
    (.act ⟨trivial, rfl⟩ (.act ⟨trivial, rfl⟩ (.act ⟨trivial, rfl⟩
    (.act ⟨trivial, rfl⟩ (.act ⟨trivial, rfl⟩ (.done _ _))))))⟩

/-- A quiet configuration with the given number of events and bytes. -/
structure Holding
    (config : Config (Thread ι) (QueueOp ε) QueueOp.Answer (Event ε) (Queue ε))
    (capacity events bytes : Nat) : Prop where
  quiet : config.Quiet
  free : config.shared.locked = false
  events : config.shared.head.length = events
  bytes : config.shared.evtpipe.bytes = bytes
  capacity : config.shared.evtpipe.capacity = capacity

variable {capacity events bytes : Nat}
variable {config : Config (Thread ι) (QueueOp ε) QueueOp.Answer (Event ε) (Queue ε)}

/-- An insertion adds an event, and a byte only when there is space for it. -/
theorem Holding.insert (holding : Holding config capacity events bytes)
    (index : ι) (evt : ε) :
    ∃ config', (eventQueue ι ε).Steps config config' ∧
      Holding config' capacity (events + 1)
        (if bytes = capacity then bytes else bytes + 1) := by
  rcases runs_evtInsert holding.free evt with ⟨history, alone⟩
  have offered : (eventQueue ι ε).calls (.jack index)
      (do evtInsert evt; return .inserted evt) :=
    ⟨evt, rfl⟩
  refine ⟨_, System.steps_of_call (holding.quiet _) offered alone,
    holding.quiet, rfl, ?_, ?_, ?_⟩
  · simp [Queue.inserted, holding.events]
  · simp [Queue.inserted, syncpipeWrite_bytes, Pipe.Full, holding.bytes, holding.capacity]
  · simp [Queue.inserted, holding.capacity]

/-- A removal takes an event, and a byte if there is one. -/
theorem Holding.remove (holding : Holding config capacity (events + 1) bytes) :
    ∃ config', (eventQueue ι ε).Steps config config' ∧
      Holding config' capacity events (bytes - 1) := by
  rcases List.exists_cons_of_length_eq_add_one holding.events with ⟨evt, rest, isHead⟩
  rcases runs_evtRemove holding.free isHead with ⟨history, alone⟩
  have offered : (eventQueue ι ε).calls .main
      (do return .removed (← evtRemove)) := .inl rfl
  refine ⟨_, System.steps_of_call (holding.quiet _) offered alone,
    holding.quiet, rfl, ?_, ?_, ?_⟩
  · simp [Queue.removed, holding.events]
  · simp [Queue.removed, holding.bytes]
  · simp [Queue.removed, holding.capacity]

variable (ι ε) [Inhabited ι] [Inhabited ε] (capacity)

/-- A burst of insertions. -/
theorem reaches_burst (events : Nat) :
    ∃ config, (eventQueue ι ε).Reaches (.new ε capacity) config ∧
      Holding config capacity events (min events capacity) := by
  induction events with
  | zero =>
      refine ⟨_, .refl, fun _ => rfl, rfl, rfl, ?_, rfl⟩
      exact (Nat.zero_min capacity).symm
  | succ events ih =>
      rcases ih with ⟨config, run, holding⟩
      rcases holding.insert default default with ⟨config', more, holding'⟩
      refine ⟨config', run.trans more, ?_⟩
      have dropped : (if min events capacity = capacity then min events capacity
          else min events capacity + 1) = min (events + 1) capacity := by
        split <;> omega
      rw [dropped] at holding'
      exact holding'

/-- Removals after a burst that the pipe could not take. -/
theorem reaches_drained {removed : Nat} (le : removed ≤ capacity) :
    ∃ config, (eventQueue ι ε).Reaches (.new ε capacity) config ∧
      Holding config capacity (capacity + 1 - removed) (capacity - removed) := by
  induction removed with
  | zero =>
      rcases reaches_burst ι ε capacity (capacity + 1) with ⟨config, run, holding⟩
      rw [Nat.min_eq_right (Nat.le_succ _)] at holding
      exact ⟨config, run, holding⟩
  | succ removed ih =>
      rcases ih (Nat.le_of_succ_le le) with ⟨config, run, holding⟩
      have pending : capacity + 1 - removed = capacity + 1 - (removed + 1) + 1 := by omega
      rw [pending] at holding
      rcases holding.remove with ⟨config', more, holding'⟩
      exact ⟨config', run.trans more, holding'⟩

/-- Whatever the capacity of the pipe, a burst that exceeds it by one can leave an
event in the queue while the pipe is empty. -/
theorem wakeup_lost :
    ∃ config, (eventQueue ι ε).Reaches (.new ε capacity) config ∧ config.Quiet ∧
      config.shared.head.length = 1 ∧ config.shared.evtpipe.bytes = 0 := by
  rcases reaches_drained ι ε capacity (Nat.le_refl _) with ⟨config, run, holding⟩
  refine ⟨config, run, holding.quiet, ?_, ?_⟩
  · rw [holding.events, Nat.add_sub_cancel_left]
  · rw [holding.bytes, Nat.sub_self]

/-- A pipe of 64 KiB, one JACK thread. -/
theorem not_always_awake :
    ¬∀ config, (eventQueue Unit Unit).Reaches (.new Unit 65536) config → config.Quiet →
      Awake config.shared := by
  intro always
  rcases wakeup_lost Unit Unit 65536 with ⟨config, run, quiet, events, bytes⟩
  have pending : config.shared.head ≠ [] := by
    intro empty
    rw [empty] at events
    cases events
  have ready := (always config run quiet).ready pending
  rw [Pipe.Ready, bytes] at ready
  exact Nat.lt_irrefl 0 ready

end Dropped

end LuaJack.Evt
