import Mathlib.Data.List.Basic
import Mathlib.Tactic.Common

/-!
# Machines

A machine performs actions one after the other; an action that is impossible in
a state yields no successor.  A run is a list of actions.  This module holds the
vocabulary for runs and the induction over them.
-/

namespace LuaJack.Atomic

universe u v

variable {Action : Type u} {State : Type v}

/-- The successor of a state under an action, when the action is possible. -/
abbrev Machine (Action : Type u) (State : Type v) := Action → State → Option State

namespace Machine

/-- The state after a list of actions. -/
def run (machine : Machine Action State) : List Action → State → Option State
  | [], state => some state
  | action :: actions, state => (machine action state).bind (machine.run actions)

/-- Every action of the list meets a condition on the state that it is performed in. -/
def Along (machine : Machine Action State) (condition : Action → State → Prop) :
    List Action → State → Prop
  | [], _ => True
  | action :: actions, state => condition action state ∧
      ∀ next, machine action state = some next → machine.Along condition actions next

instance decidableAlong (machine : Machine Action State)
    (condition : Action → State → Prop)
    [∀ action state, Decidable (condition action state)] :
    ∀ actions state, Decidable (machine.Along condition actions state)
  | [], _ => inferInstanceAs (Decidable True)
  | action :: actions, state =>
      match successor : machine action state with
      | none => decidable_of_iff (condition action state) (by simp [Along, successor])
      | some next =>
          have := decidableAlong machine condition actions next
          decidable_of_iff (condition action state ∧ machine.Along condition actions next)
            (by simp [Along, successor])

variable {machine : Machine Action State} {condition : Action → State → Prop}
variable {action : Action} {actions first second : List Action} {state final : State}

@[simp] theorem run_nil : machine.run [] state = some state := rfl

theorem run_cons : machine.run (action :: actions) state = some final ↔
    ∃ next, machine action state = some next ∧ machine.run actions next = some final :=
  Option.bind_eq_some_iff

theorem run_append : machine.run (first ++ second) state = some final ↔
    ∃ middle, machine.run first state = some middle ∧
      machine.run second middle = some final := by
  induction first generalizing state with
  | nil => simp
  | cons action actions ih =>
      simp only [List.cons_append, run_cons, ih]
      constructor
      · rintro ⟨next, performed, middle, before, after⟩
        exact ⟨middle, ⟨next, performed, before⟩, after⟩
      · rintro ⟨middle, ⟨next, performed, before⟩, after⟩
        exact ⟨next, performed, middle, before, after⟩

/-- What the initial state satisfies and every step preserves holds after every
run whose steps meet the condition. -/
theorem invariant_of_run {Invariant : State → Prop}
    (step : ∀ action state next, Invariant state → condition action state →
      machine action state = some next → Invariant next)
    (start : Invariant state) (along : machine.Along condition actions state)
    (run : machine.run actions state = some final) : Invariant final := by
  induction actions generalizing state with
  | nil =>
      cases run
      exact start
  | cons action actions ih =>
      rcases run_cons.mp run with ⟨next, performed, rest⟩
      exact ih (step action state next start along.1 performed)
        (along.2 next performed) rest

/-- The same for runs without a condition. -/
theorem invariant_of_any_run {Invariant : State → Prop}
    (step : ∀ action state next, Invariant state → machine action state = some next →
      Invariant next)
    (start : Invariant state) (run : machine.run actions state = some final) :
    Invariant final := by
  induction actions generalizing state with
  | nil =>
      cases run
      exact start
  | cons action actions ih =>
      rcases run_cons.mp run with ⟨next, performed, rest⟩
      exact ih (step action state next start performed) rest

/-- The same for an invariant that relates a state to a record of the actions before. -/
theorem invariant_of_recorded_run {Record : Type*} (append : Record → Action → Record)
    {Invariant : Record → State → Prop}
    (step : ∀ record action state next, Invariant record state →
      machine action state = some next → Invariant (append record action) next)
    {record : Record} (start : Invariant record state)
    (run : machine.run actions state = some final) :
    Invariant (actions.foldl append record) final := by
  induction actions generalizing record state with
  | nil =>
      cases run
      exact start
  | cons action actions ih =>
      rcases run_cons.mp run with ⟨next, performed, rest⟩
      exact ih (step record action state next start performed) rest

/-- When a step from a good state leads to a good state exactly if it meets the condition,
all states that a run reaches are good exactly if all of its steps meet the condition. -/
theorem all_reached_iff_along {Invariant Good : State → Prop}
    (invariant : ∀ action state next, Invariant state → machine action state = some next →
      Invariant next)
    (step : ∀ action state next, Invariant state → Good state →
      machine action state = some next → (Good next ↔ condition action state))
    (start : Invariant state) (good : Good state)
    (run : machine.run actions state = some final) :
    (∀ first second middle, actions = first ++ second →
      machine.run first state = some middle → Good middle) ↔
      machine.Along condition actions state := by
  induction actions generalizing state with
  | nil =>
      constructor
      · exact fun _ => trivial
      · intro _ first second middle split reached
        rw [(List.append_eq_nil_iff.mp split.symm).1] at reached
        cases reached
        exact good
  | cons action actions ih =>
      rcases run_cons.mp run with ⟨next, performed, rest⟩
      have nextStart := invariant action state next start performed
      have isCondition := step action state next start good performed
      constructor
      · intro reached
        have nextGood :=
          reached [action] actions next rfl (run_cons.mpr ⟨next, performed, rfl⟩)
        refine ⟨isCondition.mp nextGood, ?_⟩
        intro other alsoPerformed
        cases performed.symm.trans alsoPerformed
        apply (ih nextStart nextGood rest).mp
        intro first second middle split later
        apply reached (action :: first) second middle
        · rw [split, List.cons_append]
        · exact run_cons.mpr ⟨next, performed, later⟩
      · intro along first second middle split reached
        cases first with
        | nil =>
            cases reached
            exact good
        | cons head tail =>
            cases split
            rcases run_cons.mp reached with ⟨other, alsoPerformed, later⟩
            cases performed.symm.trans alsoPerformed
            exact (ih nextStart (isCondition.mpr along.1) rest).mpr
              (along.2 next performed)
              tail second middle rfl later

/-- Some condition holds in every state that a run reaches. -/
def Throughout (machine : Machine Action State) (condition : State → Prop)
    (actions : List Action) (state : State) : Prop :=
  ∀ first second middle, actions = first ++ second →
    machine.run first state = some middle →
    condition middle

theorem throughout_of_cons {Holds : State → Prop} {next : State}
    (throughout : machine.Throughout Holds (action :: actions) state)
    (performed : machine action state = some next) :
    machine.Throughout Holds actions next := by
  intro first second middle split run
  apply throughout (action :: first) second middle
  · rw [split, List.cons_append]
  · exact run_cons.mpr ⟨next, performed, run⟩

theorem throughout_of_invariant {Invariant : State → Prop}
    (step : ∀ action state next, Invariant state → machine action state = some next →
      Invariant next)
    (start : Invariant state) : machine.Throughout Invariant actions state :=
  fun _ _ _ _ run => invariant_of_any_run step start run

/-- Conditions that agree in the states that a run reaches agree throughout the run. -/
theorem throughout_congr {Invariant One Two : State → Prop}
    (agree : ∀ state, Invariant state → (One state ↔ Two state))
    (invariant : machine.Throughout Invariant actions state) :
    machine.Throughout One actions state ↔ machine.Throughout Two actions state := by
  constructor
  · exact fun one first second middle split run =>
      (agree middle (invariant first second middle split run)).mp
      (one first second middle split run)
  · exact fun two first second middle split run =>
      (agree middle (invariant first second middle split run)).mpr
      (two first second middle split run)

/-- Conditions on the actions that agree in the states that a run reaches agree along
the run. -/
theorem along_congr {Invariant : State → Prop} {One Two : Action → State → Prop}
    (agree : ∀ action state, Invariant state → (One action state ↔ Two action state))
    (invariant : machine.Throughout Invariant actions state) :
    machine.Along One actions state ↔ machine.Along Two actions state := by
  induction actions generalizing state with
  | nil => exact Iff.rfl
  | cons action actions ih =>
      have first := agree action state (invariant [] _ state rfl rfl)
      constructor
      · exact fun along => ⟨first.mp along.1, fun next performed =>
          (ih (throughout_of_cons invariant performed)).mp (along.2 next performed)⟩
      · exact fun along => ⟨first.mpr along.1, fun next performed =>
          (ih (throughout_of_cons invariant performed)).mpr (along.2 next performed)⟩

end Machine

end LuaJack.Atomic
