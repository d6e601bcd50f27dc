import LuaJack.Atomic.Program
import Mathlib.Logic.Relation

/-!
# Interleaved execution

A system has threads that share one state.  Each thread runs, one after the
other, programs chosen from those it may call; the threads take turns at the
granularity of atomic operations.  Local computation belongs to the operation
that precedes it, so a call that has performed its last operation has returned.
The events with which the calls return are recorded in one global log.
-/

namespace LuaJack.Atomic

universe u

variable {Thread Op Event : Type} {Answer : Op → Type} {σ : Type u}

/-- Threads over a shared state: the meaning of the atomic operations and the
programs that each thread may call. -/
structure System (Thread Op : Type) (Answer : Op → Type) (Event : Type) (σ : Type u) where
  meaning : Meaning Op Answer σ
  calls : Thread → Program Op Answer Event → Prop

/-- A state of the whole system. `running thread` is what is left of the call
that the thread is inside of. -/
structure Config (Thread Op : Type) (Answer : Op → Type) (Event : Type) (σ : Type u) where
  shared : σ
  running : Thread → Option (Program Op Answer Event)
  log : List (Thread × Event)

namespace Config

variable [DecidableEq Thread]

/-- All threads are outside any call. -/
def initial (shared : σ) : Config Thread Op Answer Event σ where
  shared
  running := fun _ => none
  log := []

/-- No thread is inside a call. -/
def Quiet (config : Config Thread Op Answer Event σ) : Prop :=
  ∀ thread, config.running thread = none

/-- The configuration after `thread` has changed the shared state and is left
with a program: a finished program has returned. -/
def settle (config : Config Thread Op Answer Event σ) (thread : Thread) (shared : σ) :
    Program Op Answer Event → Config Thread Op Answer Event σ
  | .done event =>
      { shared
        running := Function.update config.running thread none
        log := config.log ++ [(thread, event)] }
  | .act op next =>
      { shared
        running := Function.update config.running thread (some (.act op next))
        log := config.log }

@[simp] theorem settle_shared (config : Config Thread Op Answer Event σ) (thread : Thread)
    (shared : σ) (program : Program Op Answer Event) :
    (config.settle thread shared program).shared = shared := by
  cases program <;> rfl

end Config

namespace System

variable [DecidableEq Thread]

/-- One step: a thread starts a call, or performs its next atomic operation. -/
inductive Step (system : System Thread Op Answer Event σ) :
    Config Thread Op Answer Event σ → Config Thread Op Answer Event σ → Prop where
  | start {config : Config Thread Op Answer Event σ} {thread : Thread}
      {program : Program Op Answer Event} :
      config.running thread = none → system.calls thread program →
      Step system config (config.settle thread config.shared program)
  | act {config : Config Thread Op Answer Event σ} {thread : Thread} {op : Op}
      {next : Answer op → Program Op Answer Event} {answer : Answer op} {shared : σ} :
      config.running thread = some (.act op next) →
      system.meaning op config.shared answer shared →
      Step system config (config.settle thread shared (next answer))

/-- Any number of steps. -/
abbrev Steps (system : System Thread Op Answer Event σ) :
    Config Thread Op Answer Event σ → Config Thread Op Answer Event σ → Prop :=
  Relation.ReflTransGen system.Step

/-- The configurations that a run started in `shared` can reach. -/
def Reaches (system : System Thread Op Answer Event σ) (shared : σ)
    (config : Config Thread Op Answer Event σ) : Prop :=
  system.Steps (.initial shared) config

/-- The same system, in which an operation is performed only when a condition
on the state before it is met. Its runs are the runs of the system all of whose
operations meet the condition. -/
def restrict (system : System Thread Op Answer Event σ) (condition : Op → σ → Prop) :
    System Thread Op Answer Event σ where
  meaning := fun op before answer after =>
    condition op before ∧ system.meaning op before answer after
  calls := system.calls

/-- The same system, in which the condition may also concern the answer of the
operation. -/
def confine (system : System Thread Op Answer Event σ)
    (condition : (op : Op) → σ → Answer op → Prop) : System Thread Op Answer Event σ where
  meaning := fun op before answer after =>
    condition op before answer ∧ system.meaning op before answer after
  calls := system.calls

/-- A run whose operations all meet a condition is a run. -/
theorem steps_of_restrict {system : System Thread Op Answer Event σ}
    {condition : Op → σ → Prop} {first last : Config Thread Op Answer Event σ}
    (steps : (system.restrict condition).Steps first last) : system.Steps first last := by
  induction steps with
  | refl => exact .refl
  | tail _ step ih =>
      cases step with
      | start outside offered => exact ih.tail (.start outside offered)
      | act inside permitted => exact ih.tail (.act inside permitted.2)

/-- A condition that is always met restricts nothing. -/
theorem restrict_of_steps {system : System Thread Op Answer Event σ}
    {condition : Op → σ → Prop}
    (always : ∀ op shared, condition op shared)
    {first last : Config Thread Op Answer Event σ}
    (steps : system.Steps first last) : (system.restrict condition).Steps first last := by
  induction steps with
  | refl => exact .refl
  | tail _ step ih =>
      cases step with
      | start outside offered => exact ih.tail (.start outside offered)
      | act inside performed => exact ih.tail (.act inside ⟨always _ _, performed⟩)

/-- A relation that all operations respect relates the shared states of a run. -/
theorem shared_of_steps {system : System Thread Op Answer Event σ}
    {relation : σ → σ → Prop} (refl : ∀ shared, relation shared shared)
    (trans : ∀ {first second third}, relation first second → relation second third →
      relation first third)
    (operation : ∀ op before answer after, system.meaning op before answer after →
      relation before after)
    {first last : Config Thread Op Answer Event σ} (steps : system.Steps first last) :
    relation first.shared last.shared := by
  induction steps with
  | refl => exact refl _
  | tail _ step ih =>
      apply trans ih
      cases step with
      | start _ _ =>
          rw [Config.settle_shared]
          exact refl _
      | act _ performed =>
          rw [Config.settle_shared]
          exact operation _ _ _ _ performed

/-- A thread inside a call performs its next operation. -/
theorem steps_of_act {system : System Thread Op Answer Event σ} {thread : Thread}
    {config : Config Thread Op Answer Event σ} {op : Op}
    {next : Answer op → Program Op Answer Event}
    {before after : σ} {answer : Answer op}
    (permitted : system.meaning op before answer after) :
    system.Steps (config.settle thread before (.act op next))
      (config.settle thread after (next answer)) := by
  have inside : (config.settle thread before (.act op next)).running thread =
      some (.act op next) := by
    simp [Config.settle]
  have resumed : (config.settle thread before (.act op next)).settle
      thread after (next answer) =
      config.settle thread after (next answer) := by
    cases next answer <;> simp [Config.settle]
  rw [← resumed]
  exact .single (.act inside permitted)

/-- A call whose operations are all performed without another thread in between
takes the system from one configuration to the next. -/
theorem steps_of_runs {system : System Thread Op Answer Event σ} {thread : Thread}
    {config : Config Thread Op Answer Event σ} {program : Program Op Answer Event}
    {history : List (Occurrence Op Answer)} {event : Event} {before after : σ}
    (run : program.Runs system.meaning before history event after) :
    system.Steps (config.settle thread before program)
      { shared := after
        running := Function.update config.running thread none
        log := config.log ++ [(thread, event)] } := by
  induction run with
  | done event state => exact .refl
  | act permitted _ ih => exact (steps_of_act permitted).trans ih

/-- A thread outside any call can perform a whole call alone. -/
theorem steps_of_call {system : System Thread Op Answer Event σ} {thread : Thread}
    {config : Config Thread Op Answer Event σ} {program : Program Op Answer Event}
    {history : List (Occurrence Op Answer)} {event : Event} {after : σ}
    (outside : config.running thread = none) (offered : system.calls thread program)
    (run : program.Runs system.meaning config.shared history event after) :
    system.Steps config
      { shared := after, running := config.running, log :=
        config.log ++ [(thread, event)] } := by
  have finished : system.Steps (config.settle thread config.shared program) _ :=
    steps_of_runs run
  rw [← outside, Function.update_eq_self] at finished
  exact .head (.start outside offered) finished

/-- The same, if the operations are functions. -/
theorem steps_of_exec {system : System Thread Op Answer Event σ}
    {exec : (op : Op) → σ → Answer op × σ}
    (isExec : system.meaning = fun op before answer after =>
      (answer, after) = exec op before)
    {config : Config Thread Op Answer Event σ} {thread : Thread}
    {program : Program Op Answer Event} {event : Event} {after : σ}
    (outside : config.running thread = none) (offered : system.calls thread program)
    (isRun : program.run exec config.shared = (event, after)) :
    system.Steps config
      { shared := after, running := config.running, log :=
        config.log ++ [(thread, event)] } := by
  rcases Program.runs_of_run exec program config.shared with ⟨history, runs⟩
  rw [← isExec, isRun] at runs
  exact steps_of_call outside offered runs

/-! ### Schedules -/

/-- A turn of a thread: it starts a call, or performs its next operation. -/
inductive Turn (Thread Op : Type) (Answer : Op → Type) (Event : Type) where
  | start (thread : Thread) (program : Program Op Answer Event)
  | act (thread : Thread)

/-- The threads take turns, as far as this is possible, where the operations are
functions that are sometimes not possible. -/
def schedule (exec : (op : Op) → σ → Option (Answer op × σ))
    (config : Config Thread Op Answer Event σ) :
    List (Turn Thread Op Answer Event) → Option (Config Thread Op Answer Event σ)
  | [] => some config
  | .start thread program :: turns =>
      match config.running thread with
      | none => schedule exec (config.settle thread config.shared program) turns
      | some _ => none
  | .act thread :: turns =>
      match config.running thread with
      | some (.act op next) =>
          match exec op config.shared with
          | some (answer, shared) =>
              schedule exec (config.settle thread shared (next answer)) turns
          | none => none
      | _ => none

/-- Every schedule that is possible is a run. -/
theorem steps_of_schedule {system : System Thread Op Answer Event σ}
    {exec : (op : Op) → σ → Option (Answer op × σ)}
    (permitted : ∀ op before answer after, exec op before = some (answer, after) →
      system.meaning op before answer after)
    {turns : List (Turn Thread Op Answer Event)}
    (offered : ∀ thread program, .start thread program ∈ turns →
      system.calls thread program)
    {config final : Config Thread Op Answer Event σ}
    (reached : schedule exec config turns = some final) : system.Steps config final := by
  induction turns generalizing config with
  | nil =>
      cases reached
      exact .refl
  | cons turn turns ih =>
      have later := fun thread program member =>
          offered thread program (.tail turn member)
      cases turn with
      | start thread program =>
          rw [schedule] at reached
          split at reached
          next outside =>
            exact .head (.start outside (offered thread program (.head _)))
              (ih later reached)
          next => cases reached
      | act thread =>
          rw [schedule] at reached
          split at reached
          next op next inside =>
            split at reached
            next answer shared performed =>
              exact .head (.act inside (permitted _ _ _ _ performed)) (ih later reached)
            next => cases reached
          next => cases reached

end System

end LuaJack.Atomic
