import LuaJack.Atomic.Lock
import LuaJack.Thread.Signal

/-!
# Wakeups

A call that finds the lock taken does not signal.  The lock is then held by a call that
has yet to signal, as the thread itself does not hold it while it is blocked. -/

namespace LuaJack.Signals

open Atomic

variable {ι : Type}

/-- Where a thread is. -/
inductive Stage where
  | outside
  /-- The thread has got the lock, and its status is not yet set. -/
  | starting
  | running
  | waiting
  /-- The thread is no longer blocked, and waits for the lock. -/
  | woken
  | finishing
  /-- A call has begun. -/
  | begun
  /-- A call has got the lock. -/
  | entered
  | signalled
  /-- A call has signalled, or has found no reason to. -/
  | over
  deriving DecidableEq

/-- How far the holder of the lock is. -/
inductive Phase where
  | owner
  | entered
  | signalled
  deriving DecidableEq

/-- The phase of a thread that holds the lock. -/
def Stage.phase : Stage → Option Phase
  | starting | running | finishing => some .owner
  | entered => some .entered
  | signalled => some .signalled
  | _ => none

/-- The lock of the thread. When the signal has been sent, the thread is not blocked. -/
def tudLock (ι : Type) : Lock (Shared ι) Phase where
  locked := Shared.locked
  free := fun _ => True
  held := fun phase shared => phase = .signalled → shared.blocked = false

/-- A call began after the thread was blocked, and has ended. -/
def Completed (index : ι) (during : List (Mark ι)) : Prop :=
  ∃ before after, during = before ++ .began index :: after ∧ .ended index ∈ after

/-- A call began after the thread was blocked, and will not signal any more. -/
def Served (stages : Thread ι → Stage) (during : List (Mark ι)) : Prop :=
  ∃ index, Completed index during ∨
    stages (.signaller index) = .over ∧ .began index ∈ during

/-- The status says that the thread is running. -/
def Stage.runs : Stage → Bool
  | running | waiting | woken => true
  | _ => false

/-- What relates the threads and the shared state. -/
structure Sound (stages : Thread ι → Stage) (shared : Shared ι) : Prop where
  guards : (tudLock ι).Guards (fun thread => (stages thread).phase) shared
  blocked : shared.blocked = true → stages .target = .waiting
  status : (stages .target).runs = true → shared.status = .running
  notOwner : ∀ index, (stages (.signaller index)).phase ≠ some .owner
  served : shared.blocked = true → Served stages shared.during →
    ∃ index, stages (.signaller index) = .entered

section Completed

variable {index other : ι} {during : List (Mark ι)}

theorem not_completed_nil : ¬Completed index [] := by
  rintro ⟨before, after, isNil, _⟩
  cases before <;> cases isNil

/-- A call that begins has not ended. -/
theorem Completed.of_append {record : Mark ι}
    (completed : Completed index (during ++ [record])) :
    Completed index during ∨ record = .ended index ∧ .began index ∈ during := by
  rcases completed with ⟨before, after, isSplit, member⟩
  cases after using List.reverseRecOn with
  | nil => cases member
  | append_singleton after last =>
      rw [← List.cons_append, ← List.append_assoc] at isSplit
      rcases List.append_inj' isSplit rfl with ⟨isDuring, isLast⟩
      cases isLast
      rcases List.mem_append.mp member with inside | isEnd
      · exact .inl ⟨before, after, isDuring, inside⟩
      · right
        refine ⟨(List.mem_singleton.mp isEnd).symm, ?_⟩
        rw [isDuring]
        exact List.mem_append_right _ List.mem_cons_self

end Completed

/-- The ghost discipline of the threads. -/
def discipline (ι : Type) :
    Discipline (Thread ι) (SignalOp ι) SignalOp.Answer Event (Shared ι) where
  Ghost := fun _ => Stage
  idle := fun _ => .outside
  settled := fun _ _ => True
  invariant := fun stages shared _ => Sound stages shared

theorem target_ne (index : ι) : (Thread.target : Thread ι) ≠ .signaller index := nofun

theorem signaller_ne (index : ι) : Thread.signaller index ≠ (.target : Thread ι) := nofun

section Rules

variable {α : Type} [DecidableEq ι]
variable {stages : Thread ι → Stage} {before after : Shared ι}
  {thread : Thread ι} {index : ι}

theorem phase_update (stage : Stage) :
    (fun other => (Function.update stages thread stage other).phase) =
      Function.update (fun other => (stages other).phase) thread stage.phase :=
  Function.comp_update Stage.phase stages thread stage

/-- A call that has not ended before is served by another one. -/
theorem Served.of_update {stage : Stage} {during : List (Mark ι)}
    (notOver : stage ≠ .over)
    (served : Served (Function.update stages (.signaller index) stage) during) :
    Served stages during := by
  rcases served with ⟨other, completed | ⟨isOver, member⟩⟩
  · exact ⟨other, .inl completed⟩
  · by_cases isIndex : other = index
    · rw [isIndex, Function.update_self] at isOver
      exact absurd isOver notOver
    · rw [Function.update_of_ne fun same => isIndex (Thread.signaller.inj same)] at isOver
      exact ⟨other, .inr ⟨isOver, member⟩⟩

/-- A call that has the lock and has not signalled still does when another call goes
on. -/
theorem entered_update {stage : Stage} (notEntered : stages (.signaller index) ≠ .entered)
    (entered : ∃ other, stages (.signaller other) = .entered) :
    ∃ other, Function.update stages (.signaller index) stage (.signaller other) =
      .entered := by
  rcases entered with ⟨other, isEntered⟩
  refine ⟨other, ?_⟩
  rw [Function.update_of_ne]
  · exact isEntered
  · intro same
    rw [same] at isEntered
    exact notEntered isEntered

/-- A call goes on. -/
theorem Sound.signaller (sound : Sound stages before) {stage : Stage}
    (guards : (tudLock ι).Guards (Function.update (fun other => (stages other).phase)
      (.signaller index) stage.phase) after)
    (blocked : after.blocked = true → before.blocked = true)
    (status : after.status = before.status) (notOwner : stage.phase ≠ some .owner)
    (served : after.blocked = true →
      Served (Function.update stages (.signaller index) stage) after.during →
      ∃ other, Function.update stages (.signaller index) stage
        (.signaller other) = .entered) :
    Sound (Function.update stages (.signaller index) stage) after where
  guards := by
    rw [phase_update]
    exact guards
  blocked := by
    intro isBlocked
    rw [Function.update_of_ne (target_ne index)]
    exact sound.blocked (blocked isBlocked)
  status := by
    intro runs
    rw [Function.update_of_ne (target_ne index)] at runs
    exact status.trans (sound.status runs)
  notOwner := by
    intro other
    by_cases isIndex : other = index
    · rw [isIndex, Function.update_self]
      exact notOwner
    · rw [Function.update_of_ne fun same => isIndex (Thread.signaller.inj same)]
      exact sound.notOwner other
  served := served

/-- The thread goes on. -/
theorem Sound.target (sound : Sound stages before) {stage : Stage}
    (guards : (tudLock ι).Guards
      (Function.update (fun other => (stages other).phase) .target
      stage.phase) after)
    (blocked : after.blocked = true → stage = .waiting ∧ after.during = [])
    (status : stage.runs = true → after.status = .running) :
    Sound (Function.update stages .target stage) after where
  guards := by
    rw [phase_update]
    exact guards
  blocked := by
    intro isBlocked
    rw [Function.update_self]
    exact (blocked isBlocked).1
  status := by
    intro runs
    rw [Function.update_self] at runs
    exact status runs
  notOwner := by
    intro other
    rw [Function.update_of_ne (signaller_ne other)]
    exact sound.notOwner other
  served := by
    intro isBlocked served
    rw [(blocked isBlocked).2] at served
    rcases served with ⟨other, completed | ⟨_, member⟩⟩
    · exact absurd completed not_completed_nil
    · cases member

/-- A thread keeps the discipline. -/
abbrev Keeps (thread : Thread ι) (post : α → Stage → Prop) (stage : Stage)
    (program : SignalProgram ι α) : Prop :=
  (discipline ι).Keeps SignalOp.meaning thread post stage program

variable {post : α → Stage → Prop}

theorem keeps_op {op : SignalOp ι} {rest : op.Answer → SignalProgram ι α} {stage : Stage}
    (step : ∀ stages before, Sound stages before → stages thread = stage →
      (op = .lock → before.locked = false) → ∃ stage',
        Sound (Function.update stages thread stage') (op.exec before).2 ∧
          Keeps thread post stage' (rest (op.exec before).1)) :
    Keeps thread post stage (signalOp op >>= rest) := by
  refine ⟨trivial, ?_⟩
  intro stages before log answer after turn performed
  rcases step stages before turn.holds turn.isGhost performed.1 with
    ⟨stage', sound, continues⟩
  rw [← performed.2] at sound continues
  exact ⟨stage', sound, continues⟩

/-! ## Signalling -/

/-- An access of a call that neither gets nor releases the lock. -/
theorem Sound.outside (sound : Sound stages before) {stage : Stage}
    (isNone : (stages (.signaller index)).phase = none) (stays : stage.phase = none)
    (locked : after.locked = before.locked) (blocked : after.blocked = before.blocked)
    (status : after.status = before.status)
    (served : before.blocked = true →
      Served (Function.update stages (.signaller index) stage) after.during →
      Served stages before.during) :
    Sound (Function.update stages (.signaller index) stage) after := by
  apply sound.signaller
  · rw [stays]
    apply sound.guards.outside isNone locked fun _ => trivial
    intro phase held isSignalled
    exact blocked.trans (held isSignalled)
  · exact fun isBlocked => blocked.symm.trans isBlocked
  · exact status
  · rw [stays]
    exact fun isOwner => nomatch isOwner
  · intro isBlocked isServed
    have wasBlocked := blocked.symm.trans isBlocked
    apply entered_update
    · intro isEntered
      rw [isEntered] at isNone
      cases isNone
    · exact sound.served wasBlocked (served wasBlocked isServed)

theorem keeps_began {rest : Unit → SignalProgram ι α}
    (continues : Keeps (.signaller index) post .begun (rest ())) :
    Keeps (.signaller index) post .outside
      (signalOp (.mark (.began index)) >>= rest) := by
  apply keeps_op
  intro stages before sound isStage _
  refine ⟨.begun, ?_, continues⟩
  refine sound.outside (by rw [isStage]; rfl) rfl rfl rfl rfl ?_
  intro _ served
  rcases Served.of_update (by decide) served with ⟨other, completed | ⟨isOver, member⟩⟩
  · rcases completed.of_append with completed | ⟨isEnd, _⟩
    · exact ⟨other, .inl completed⟩
    · cases isEnd
  · rcases List.mem_append.mp member with member | isBegin
    · exact ⟨other, .inr ⟨isOver, member⟩⟩
    · cases List.mem_singleton.mp isBegin
      cases isStage.symm.trans isOver

theorem keeps_getStatus {rest : TudStatus → SignalProgram ι α}
    (running : Keeps (.signaller index) post .begun (rest .running))
    (other : ∀ status ≠ .running, Keeps (.signaller index) post .over (rest status)) :
    Keeps (.signaller index) post .begun (signalOp .getStatus >>= rest) := by
  apply keeps_op
  intro stages before sound isStage _
  have isNone : (stages (.signaller index)).phase = none := by
    rw [isStage]
    rfl
  simp only [SignalOp.exec]
  by_cases isRunning : before.status = .running
  · rw [isRunning]
    refine ⟨.begun, ?_, running⟩
    exact sound.outside isNone rfl rfl rfl rfl fun _ => Served.of_update (by decide)
  · refine ⟨.over, ?_, other _ isRunning⟩
    refine sound.outside isNone rfl rfl rfl rfl ?_
    intro isBlocked _
    -- the thread is blocked only while it is running
    have runs : (stages .target).runs = true := by
      rw [sound.blocked isBlocked]
      rfl
    exact absurd (sound.status runs) isRunning

omit [DecidableEq ι] in
/-- Whoever has the lock while the thread is blocked has yet to signal. -/
theorem entered_of_locked (sound : Sound stages before) (locked : before.locked = true)
    (isBlocked : before.blocked = true) :
    ∃ other, stages (.signaller other) = .entered := by
  rcases sound.guards with ⟨free, _⟩ | ⟨holder, phase, _, isHolder, held, _⟩
  · cases locked.symm.trans free
  · have isPhase : (stages holder).phase = some phase := isHolder
    cases holder with
    | target =>
        rw [sound.blocked isBlocked] at isPhase
        cases isPhase
    | signaller other =>
        have notOwner := sound.notOwner other
        cases isStage : stages (.signaller other) with
        | entered => exact ⟨other, isStage⟩
        | signalled =>
            rw [isStage] at isPhase
            cases isPhase
            cases isBlocked.symm.trans (held rfl)
        | starting | running | finishing =>
            rw [isStage] at notOwner
            exact absurd rfl notOwner
        | _ =>
            rw [isStage] at isPhase
            cases isPhase

theorem keeps_trylock {rest : Bool → SignalProgram ι α}
    (fails : Keeps (.signaller index) post .over (rest false))
    (succeeds : Keeps (.signaller index) post .entered (rest true)) :
    Keeps (.signaller index) post .begun (signalOp .trylock >>= rest) := by
  apply keeps_op
  intro stages before sound isStage _
  have isNone : (stages (.signaller index)).phase = none := by
    rw [isStage]
    rfl
  simp only [SignalOp.exec]
  cases isLocked : before.locked with
  | true =>
      refine ⟨.over, ?_, fails⟩
      apply sound.signaller
      · exact sound.guards.outside isNone isLocked.symm
          (fun _ => trivial) fun _ held => held
      · exact id
      · rfl
      · exact fun isOwner => nomatch isOwner
      · intro isBlocked _
        apply entered_update
        · rw [isStage]
          exact fun isEntered => nomatch isEntered
        · exact entered_of_locked sound isLocked isBlocked
  | false =>
      refine ⟨.entered, ?_, succeeds⟩
      apply sound.signaller
      · exact sound.guards.acquire isLocked rfl fun _ isSignalled => nomatch isSignalled
      · exact id
      · rfl
      · exact fun isOwner => nomatch isOwner
      · exact fun _ _ => ⟨index, Function.update_self ..⟩

theorem keeps_condSignal {rest : Unit → SignalProgram ι α}
    (continues : Keeps (.signaller index) post .signalled (rest ())) :
    Keeps (.signaller index) post .entered (signalOp .condSignal >>= rest) := by
  apply keeps_op
  intro stages before sound isStage _
  have isPhase : (stages (.signaller index)).phase = some .entered := by
    rw [isStage]
    rfl
  rcases sound.guards.holder isPhase with ⟨locked, _, others⟩
  refine ⟨.signalled, ?_, continues⟩
  apply sound.signaller
  · exact Lock.Guards.update locked (fun _ => rfl) others
  · exact fun isBlocked => nomatch isBlocked
  · rfl
  · exact fun isOwner => nomatch isOwner
  · exact fun isBlocked => nomatch isBlocked

theorem keeps_unlock {rest : Unit → SignalProgram ι α}
    (continues : Keeps (.signaller index) post .over (rest ())) :
    Keeps (.signaller index) post .signalled (signalOp .unlock >>= rest) := by
  apply keeps_op
  intro stages before sound isStage _
  have isPhase : (stages (.signaller index)).phase = some .signalled := by
    rw [isStage]
    rfl
  rcases sound.guards.holder isPhase with ⟨_, held, _⟩
  refine ⟨.over, ?_, continues⟩
  apply sound.signaller
  · exact sound.guards.release isPhase rfl trivial
  · exact id
  · rfl
  · exact fun isOwner => nomatch isOwner
  · intro isBlocked
    cases isBlocked.symm.trans (held rfl)

theorem keeps_ended {rest : Unit → SignalProgram ι α}
    (continues : Keeps (.signaller index) post .outside (rest ())) :
    Keeps (.signaller index) post .over (signalOp (.mark (.ended index)) >>= rest) := by
  apply keeps_op
  intro stages before sound isStage _
  refine ⟨.outside, ?_, continues⟩
  refine sound.outside (by rw [isStage]; rfl) rfl rfl rfl rfl ?_
  intro _ served
  rcases Served.of_update (by decide) served with ⟨other, completed | ⟨isOver, member⟩⟩
  · rcases completed.of_append with completed | ⟨isEnd, member⟩
    · exact ⟨other, .inl completed⟩
    · cases isEnd
      exact ⟨index, .inr ⟨isStage, member⟩⟩
  · rcases List.mem_append.mp member with member | isEnd
    · exact ⟨other, .inr ⟨isOver, member⟩⟩
    · cases List.mem_singleton.mp isEnd

/-- A call signals, or finds that the lock is taken. -/
theorem keeps_threadSignal {target : Target} {signaller : Signaller}
    {rest : Option Refusal → SignalProgram ι α}
    (accepted : signaller.refusal target = none)
    (continues : Keeps (.signaller index) post .over (rest none)) :
    Keeps (.signaller index) post .begun (threadSignal target signaller >>= rest) := by
  unfold threadSignal
  rw [accepted]
  apply keeps_getStatus
  · apply keeps_trylock
    · exact continues
    · apply keeps_condSignal
      apply keeps_unlock
      exact continues
  · intro status different
    show Keeps _ _ _ ((if status = .running then _ else pure none) >>= rest)
    rw [if_neg different]
    exact continues

/-! ## Waiting -/

/-- An access of the thread while it has the lock. -/
theorem Sound.owner (sound : Sound stages before) {stage : Stage}
    (isPhase : (stages .target).phase = some .owner) (stays : stage.phase = some .owner)
    (locked : after.locked = before.locked) (blocked : after.blocked = before.blocked)
    (status : stage.runs = true → after.status = .running) :
    Sound (Function.update stages .target stage) after := by
  rcases sound.guards.holder isPhase with ⟨isLocked, _, others⟩
  apply sound.target
  · rw [stays]
    exact Lock.Guards.update (locked.trans isLocked)
      (fun isSignalled => nomatch isSignalled) others
  · intro isBlocked
    rw [sound.blocked (blocked.symm.trans isBlocked)] at isPhase
    cases isPhase
  · exact status

/-- The thread gets the lock. -/
theorem keeps_lock {stage : Stage} (next : Stage) (notWaiting : stage ≠ .waiting)
    (isOwner : next.phase = some .owner) (runs : next.runs = true → stage.runs = true)
    {rest : Unit → SignalProgram ι α} (continues : Keeps .target post next (rest ())) :
    Keeps .target post stage (signalOp .lock >>= rest) := by
  apply keeps_op
  intro stages before sound isStage free
  refine ⟨next, ?_, continues⟩
  apply sound.target
  · rw [isOwner]
    exact sound.guards.acquire (free rfl) rfl fun _ isSignalled => nomatch isSignalled
  · intro isBlocked
    exact absurd (isStage.symm.trans (sound.blocked isBlocked)) notWaiting
  · intro nextRuns
    rw [← isStage] at runs
    exact sound.status (runs nextRuns)

theorem keeps_setStatus {stage : Stage} (next : Stage) {status : TudStatus}
    (isOwner : stage.phase = some .owner) (stays : next.phase = some .owner)
    (runs : next.runs = true → status = .running)
    {rest : Unit → SignalProgram ι α} (continues : Keeps .target post next (rest ())) :
    Keeps .target post stage (signalOp (.setStatus status) >>= rest) := by
  apply keeps_op
  intro stages before sound isStage _
  refine ⟨next, ?_, continues⟩
  rw [← isStage] at isOwner
  exact sound.owner isOwner stays rfl rfl runs

theorem keeps_wait {rest : Unit → SignalProgram ι α}
    (continues : Keeps .target post .running (rest ())) :
    Keeps .target post .running (wait >>= rest) := by
  apply keeps_op
  intro stages before sound isStage _
  have isPhase : (stages .target).phase = some .owner := by
    rw [isStage]
    rfl
  have isRunning : before.status = .running := by
    apply sound.status
    rw [isStage]
    rfl
  refine ⟨.waiting, ?_, ?_⟩
  · apply sound.target
    · exact sound.guards.release isPhase rfl trivial
    · exact fun _ => ⟨rfl, rfl⟩
    · exact fun _ => isRunning
  · apply keeps_op
    intro stages before sound isStage _
    refine ⟨.woken, ?_, ?_⟩
    · apply sound.target
      · apply sound.guards.outside
        · rw [isStage]
          rfl
        · rfl
        · exact fun _ => trivial
        · exact fun _ _ _ => rfl
      · exact fun isBlocked => nomatch isBlocked
      · intro _
        apply sound.status
        rw [isStage]
        rfl
    · exact keeps_lock .running (by decide) rfl (fun _ => rfl) continues

theorem keeps_script (waits : Nat) {rest : Unit → SignalProgram ι α}
    (continues : Keeps .target post .running (rest ())) :
    Keeps .target post .running (script waits >>= rest) := by
  induction waits with
  | zero => exact continues
  | succ waits ih =>
      have isScript : script (waits + 1) >>= rest =
          wait >>= fun _ => script waits >>= rest :=
        Program.bind_bind wait (fun _ => script waits) rest
      rw [isScript]
      exact keeps_wait ih

theorem keeps_finish {last : TudStatus} {rest : Unit → SignalProgram ι α}
    (continues : Keeps .target post .outside (rest ())) :
    Keeps .target post .running (finish last >>= rest) := by
  apply keeps_setStatus .finishing rfl rfl fun runs => nomatch runs
  apply keeps_op
  intro stages before sound isStage _
  have isPhase : (stages .target).phase = some .owner := by
    rw [isStage]
    rfl
  refine ⟨.outside, ?_, continues⟩
  apply sound.target
  · exact sound.guards.release isPhase rfl trivial
  · intro isBlocked
    cases isStage.symm.trans (sound.blocked isBlocked)
  · exact fun runs => nomatch runs

theorem keeps_threadFunc (waits : Nat) (last : TudStatus)
    {rest : Unit → SignalProgram ι α}
    (continues : Keeps .target post .outside (rest ())) :
    Keeps .target post .outside (threadFunc waits last >>= rest) := by
  apply keeps_lock .starting (by decide) rfl fun runs => nomatch runs
  apply keeps_setStatus .running rfl rfl fun _ => rfl
  have isRest : (script waits >>= fun _ => finish last) >>= rest =
      script waits >>= fun _ => finish last >>= rest :=
    Program.bind_bind (script waits) (fun _ => finish last) rest
  show Keeps _ _ _ ((script waits >>= fun _ => finish last) >>= rest)
  rw [isRest]
  exact keeps_script waits (keeps_finish continues)

/-- A call may return. -/
theorem returns_outside (thread : Thread ι) (event : Event) :
    (discipline ι).Returns thread event Stage.outside := by
  intro stages shared log turn
  have sound : Sound stages shared := turn.holds
  have same := Function.update_eq_self thread stages
  have isStage : stages thread = .outside := turn.isGhost
  rw [isStage] at same
  rw [← same] at sound
  exact sound

theorem keeps_calls {target : Target} (thread : Thread ι)
    (program : SignalProgram ι Event)
    (offered : (signals ι target).calls thread program) :
    Keeps thread ((discipline ι).Returns thread) .outside program := by
  cases thread with
  | target =>
      rcases offered with ⟨waits, last, rfl⟩
      exact keeps_threadFunc waits last (returns_outside .target .ended)
  | signaller index =>
      rcases offered with ⟨signaller, rfl⟩
      unfold signal
      cases isRefusal : signaller.refusal target with
      | none =>
          apply keeps_began
          apply keeps_threadSignal isRefusal
          apply keeps_ended
          exact returns_outside _ _
      | some refusal =>
          unfold threadSignal
          rw [isRefusal]
          exact returns_outside _ _

/-- While the thread is blocked after a call of `jack.signal` has begun and ended,
another call is in progress: the thread will be signalled. -/
theorem signal_in_progress {target : Target}
    {config : Config (Thread ι) (SignalOp ι) SignalOp.Answer Event (Shared ι)}
    (run : (signals ι target).Reaches .ready config)
    (blocked : config.shared.blocked = true)
    (completed : ∃ index, Completed index config.shared.during) :
    ∃ index, config.running (.signaller index) ≠ none := by
  have start : (discipline ι).invariant (discipline ι).idle .ready [] := by
    refine ⟨.inl ⟨rfl, trivial, fun _ => rfl⟩, ?_, ?_, ?_, ?_⟩
    · exact fun isBlocked => nomatch isBlocked
    · exact fun runs => nomatch runs
    · exact fun _ isOwner => nomatch isOwner
    · exact fun isBlocked => nomatch isBlocked
  rcases Discipline.justified_of_reaches start (fun _ => trivial) keeps_calls run with
    ⟨stages, justified⟩
  have sound : Sound stages config.shared := justified.holds
  rcases completed with ⟨index, completed⟩
  rcases sound.served blocked ⟨index, .inl completed⟩ with ⟨other, entered⟩
  refine ⟨other, fun isOutside => ?_⟩
  cases entered.symm.trans (justified.outside (.signaller other) isOutside)

end Rules

/-- Perform an access that need not wait. -/
def SignalOp.perform : (op : SignalOp ι) → Shared ι → Option (Answer op × Shared ι)
  | lock, shared => if shared.locked then none else some (exec lock shared)
  | op, shared => some (op.exec shared)

theorem SignalOp.meaning_of_perform (op : SignalOp ι)
    (before : Shared ι) (answer : op.Answer)
    (after : Shared ι) (performed : op.perform before = some (answer, after)) :
    op.meaning before answer after := by
  cases op with
  | lock =>
      rw [perform] at performed
      split at performed
      · cases performed
      next isFree =>
        exact ⟨fun _ => Bool.eq_false_iff.mpr isFree, (Option.some.inj performed).symm⟩
  | _ => exact ⟨fun isLock => (nomatch isLock), (Option.some.inj performed).symm⟩

/-- A thread that waits, a call that has got its lock, and another call that has found
it taken. -/
def twoCalls : List (System.Turn (Thread Bool) (SignalOp Bool) SignalOp.Answer Event) :=
  let call (index : Bool) : SignalProgram Bool Event :=
    signal ⟨0x602010, 0x601010⟩ index ⟨none, 0x601010⟩
  [.start .target (do threadFunc 1 .done; return .ended),
    .act .target, .act .target, .act .target,
    .start (.signaller false) (call false), .act (.signaller false),
    .act (.signaller false),
    .act (.signaller false),
    .start (.signaller true) (call true), .act (.signaller true), .act (.signaller true),
    .act (.signaller true), .act (.signaller true)]

theorem signal_in_progress_twoCalls :
    ∃ config : Config (Thread Bool) (SignalOp Bool) SignalOp.Answer Event (Shared Bool),
      (signals Bool ⟨0x602010, 0x601010⟩).Reaches .ready config ∧
        config.shared.blocked = true ∧
        Completed true config.shared.during ∧
          ∃ index, config.running (.signaller index) ≠ none := by
  have reached : ∃ config,
      System.schedule SignalOp.perform (.initial .ready) twoCalls = some config ∧
      config.shared.blocked = true ∧
      config.shared.during = [.began false, .began true, .ended true] :=
        ⟨_, rfl, rfl, rfl⟩
  rcases reached with ⟨config, reached, blocked, isDuring⟩
  have completed : Completed true config.shared.during :=
    ⟨[.began false], [.ended true], isDuring, List.mem_cons_self⟩
  have run : (signals Bool ⟨0x602010, 0x601010⟩).Reaches .ready config := by
    apply System.steps_of_schedule SignalOp.meaning_of_perform _ reached
    intro thread program member
    simp only [twoCalls, List.mem_cons, System.Turn.start.injEq,
      reduceCtorEq, false_or, or_false, List.not_mem_nil] at member
    rcases member with ⟨rfl, rfl⟩ | ⟨rfl, rfl⟩ | ⟨rfl, rfl⟩
    · exact ⟨1, .done, rfl⟩
    · exact ⟨⟨none, 0x601010⟩, rfl⟩
    · exact ⟨⟨none, 0x601010⟩, rfl⟩
  exact ⟨config, run, blocked, completed,
    signal_in_progress run blocked ⟨true, completed⟩⟩

end LuaJack.Signals
