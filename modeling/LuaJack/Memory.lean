import Mathlib.Tactic.Common

/-!
# Functions with memory

A function with memory answers an input in the state that the earlier inputs have left.
Whether the answers are those of a function without memory is a question about every
place of a history. -/

namespace LuaJack.Memory

variable {Input State Output : Type*}

section

variable (call : Input → State → Output × State)

/-- The state that some inputs leave. -/
def after (inputs : List Input) (state : State) : State :=
  inputs.foldl (fun state input => (call input state).2) state

/-- The answers to some inputs. -/
def outputs : List Input → State → List Output
  | [], _ => []
  | input :: inputs, state => (call input state).1 :: outputs inputs (call input state).2

/-- After the earlier inputs, an input is answered as if it were the first one. -/
def Same (initial : State) (earlier : List Input) (input : Input) : Prop :=
  (call input (after call earlier initial)).1 = (call input initial).1

end

variable {call : Input → State → Output × State} {initial state : State}

/-- All inputs are answered as if they were first exactly if each one is. -/
theorem outputs_eq_map_iff (inputs : List Input) :
    outputs call inputs initial = inputs.map (fun input => (call input initial).1) ↔
      ∀ earlier input later, inputs = earlier ++ input :: later →
        Same call initial earlier input := by
  -- The induction is on the inputs that are left.
  suffices general : ∀ state, outputs call inputs state =
      inputs.map (fun input => (call input initial).1) ↔
        ∀ earlier input later, inputs = earlier ++ input :: later →
          (call input (after call earlier state)).1 =
            (call input initial).1 from general initial
  induction inputs with
  | nil =>
      intro state
      refine iff_of_true rfl ?_
      intro earlier input later isNil
      simp at isNil
  | cons first inputs ih =>
      intro state
      rw [outputs, List.map_cons, List.cons.injEq, ih]
      constructor
      · rintro ⟨isFirst, rest⟩ earlier input later isInputs
        cases earlier with
        | nil =>
            cases isInputs
            exact isFirst
        | cons _ earlier =>
            cases isInputs
            exact rest earlier input later rfl
      · intro every
        constructor
        · exact every [] first inputs rfl
        · intro earlier input later isInputs
          exact every (first :: earlier) input later (by rw [isInputs, List.cons_append])

/-- If the initial state is never entered again, it has been kept only by inputs each of
which keeps it. -/
theorem after_eq_initial_iff
    (never : ∀ input state, state ≠ initial → (call input state).2 ≠ initial)
    (inputs : List Input) :
    after call inputs initial = initial ↔
      ∀ input ∈ inputs, (call input initial).2 = initial := by
  have left (inputs : List Input) {state : State} (changed : state ≠ initial) :
      after call inputs state ≠ initial := by
    induction inputs generalizing state with
    | nil => exact changed
    | cons first inputs ih => exact ih (never first state changed)
  induction inputs with
  | nil => simp [after]
  | cons first inputs ih =>
      rw [List.forall_mem_cons]
      by_cases keeps : (call first initial).2 = initial
      · have isRest : after call (first :: inputs) initial = after call inputs initial :=
          congrArg (after call inputs) keeps
        rw [isRest]
        exact ih.trans (and_iff_right keeps).symm
      · exact iff_of_false (left inputs keeps) fun all => keeps all.1

end LuaJack.Memory
