import LuaJack.Atomic.Interleaving
import LuaJack.Atomic.Typestate

/-!
# Simulation by a protocol

An operation may have another effect than in a second system only in some situations.
When the calls keep to a protocol whose states tell that these situations do not arise,
every run is a run of the second system too. -/

namespace LuaJack.Atomic

open Program

universe u

variable {Thread Op Event State : Type} {Answer : Op → Type} {σ : Type u}

/-- Every call that is in progress goes on by a protocol, in a state that suits what the
threads share. -/
def Tracked (step : State → (op : Op) → Answer op → Option State)
    (suits : State → σ → Prop) (config : Config Thread Op Answer Event σ) : Prop :=
  ∀ thread program, config.running thread = some program →
    ∃ state, suits state config.shared ∧ Follows step (fun _ _ => True) state program

namespace Tracked

variable {step : State → (op : Op) → Answer op → Option State} {suits : State → σ → Prop}
variable {state : State} {shared : σ}

theorem initial :
    Tracked step suits (.initial shared : Config Thread Op Answer Event σ) := by
  intro thread program isRunning
  cases isRunning

variable [DecidableEq Thread] {config later : Config Thread Op Answer Event σ}

/-- A call goes on or returns, and the other calls are not disturbed. -/
theorem settle (tracked : Tracked step suits config) {thread : Thread}
    {program : Program Op Answer Event} (others : ∀ other, suits other config.shared →
      suits other shared) (own : suits state shared)
    (follows : Follows step (fun _ _ => True) state program) :
    Tracked step suits (config.settle thread shared program) := by
  intro other rest isRunning
  rw [Config.settle_shared]
  rcases eq_or_ne other thread with rfl | different
  · cases program with
    | done event =>
        dsimp only [Config.settle] at isRunning
        rw [Function.update_self] at isRunning
        cases isRunning
    | act op next =>
        dsimp only [Config.settle] at isRunning
        rw [Function.update_self] at isRunning
        cases isRunning
        exact ⟨state, own, follows⟩
  · have unchanged : config.running other = some rest := by
      cases program <;>
        · dsimp only [Config.settle] at isRunning
          rw [Function.update_of_ne different] at isRunning
          exact isRunning
    rcases tracked other rest unchanged with ⟨earlier, suited, follows⟩
    exact ⟨earlier, others earlier suited, follows⟩

/-- An operation of one system that has the same effect in the other one. -/
def Simulates (step : State → (op : Op) → Answer op → Option State)
    (suits : State → σ → Prop)
    (system other : System Thread Op Answer Event σ) (start : σ) : Prop :=
  ∀ (config : Config Thread Op Answer Event σ) thread op next state,
  other.Reaches start config →
    config.running thread = some (.act op next) → suits state config.shared →
    ∀ answer after state', step state op answer = some state' →
      system.meaning op config.shared answer after →
      other.meaning op config.shared answer after ∧ suits state' after ∧
        ∀ earlier, suits earlier config.shared → suits earlier after

variable {system other : System Thread Op Answer Event σ} {start : σ}

/-- Every run of a system is one of the other system. -/
theorem steps_of_steps (simulates : Simulates step suits system other start)
    (offered : ∀ thread program, system.calls thread program →
      other.calls thread program ∧
      ∃ first, (∀ shared, suits first shared) ∧
        Follows step (fun _ _ => True) first program)
    (tracked : Tracked step suits config) (reached : other.Reaches start config)
    (steps : system.Steps config later) :
    other.Steps config later ∧ Tracked step suits later := by
  induction steps with
  | refl => exact ⟨.refl, tracked⟩
  | tail _ taken ih =>
      rcases ih with ⟨before, tracked⟩
      cases taken with
      | @start thread program outside isCall =>
          rcases offered thread program isCall with ⟨isCall, first, fits, follows⟩
          exact ⟨before.tail (.start outside isCall),
            tracked.settle (fun _ suited => suited) (fits _) follows⟩
      | @act thread op next answer after inside performed =>
          rcases tracked thread _ inside with ⟨state, suited, follows⟩
          rcases follows answer with ⟨state', allowed, continues⟩
          rcases simulates _ thread op next state
            (reached.trans before) inside suited answer after
            state' allowed performed with ⟨performed, own, others⟩
          exact ⟨before.tail (.act inside performed), tracked.settle others own continues⟩

end Tracked

end LuaJack.Atomic
