import Mathlib.Tactic.Common

/-!
# Functions that may fail

A fallible function changes a state, and returns a value or raises an error.  What
it has changed before it raises an error stays changed.
-/

namespace LuaJack

universe u v w

/-- A function on a state that returns a value or raises an error. -/
def Fallible (State : Type u) (Error : Type v) (α : Type w) :=
  State → Except Error α × State

namespace Fallible

variable {State : Type u} {Error : Type v} {α β : Type w}

instance : Monad (Fallible State Error) where
  pure value := fun state => (.ok value, state)
  bind function rest := fun state =>
    match function state with
    | (.ok value, state) => rest value state
    | (.error reason, state) => (.error reason, state)

/-- Raise an error. -/
def error (reason : Error) : Fallible State Error α := fun state => (.error reason, state)

/-- Access the state. -/
def asks (access : State → α) :
    Fallible State Error α := fun state => (.ok (access state), state)

/-- Change the state. -/
def modify (change : State → State) : Fallible State Error PUnit :=
  fun state => (.ok ⟨⟩, change state)

/-- A function on a part of the state. -/
def focus {Part : Type u} (get : State → Part) (set : Part → State → State)
    (function : Fallible Part Error α) : Fallible State Error α := fun state =>
  ((function (get state)).1, set (function (get state)).2 state)

/-! ## What the calls do -/

section

variable (state : State) (function : Fallible State Error α)
  (rest : α → Fallible State Error β)

theorem bind_apply : (function >>= rest) state =
    match function state with
    | (.ok value, state) => rest value state
    | (.error reason, state) => (.error reason, state) := rfl

@[simp] theorem pure_apply (value : α) :
    (pure value : Fallible State Error α) state = (.ok value, state) := rfl

@[simp] theorem error_apply (reason : Error) :
    (error reason : Fallible State Error α) state = (.error reason, state) := rfl

@[simp] theorem asks_apply (access : State → α) :
    (asks access : Fallible State Error α) state = (.ok (access state), state) := rfl

@[simp] theorem modify_apply (change : State → State) :
    (modify change : Fallible State Error PUnit) state = (.ok ⟨⟩, change state) := rfl

@[simp] theorem error_bind (reason : Error) : error reason >>= rest = error reason := rfl

@[simp] theorem asks_bind (access : State → α) :
    (asks access >>= rest) state = rest (access state) state := rfl

@[simp] theorem modify_bind (change : State → State)
    (rest : PUnit → Fallible State Error β) :
    (modify change >>= rest) state = rest ⟨⟩ (change state) := rfl

variable {state function rest}

theorem bind_of_ok {value : α} {after : State}
    (returns : function state = (.ok value, after)) :
    (function >>= rest) state = rest value after := by
  rw [bind_apply, returns]

theorem bind_of_error {reason : Error} {after : State}
    (fails : function state = (.error reason, after)) :
    (function >>= rest) state = (.error reason, after) := by
  rw [bind_apply, fails]

/-- What changes nothing returns a value or fails. -/
theorem check_cases (same : (function state).2 = state) :
    (∃ value, function state = (.ok value, state)) ∨
      ∃ reason, function state = (.error reason, state) := by
  cases result : function state with
  | mk answer after =>
      rw [result] at same
      cases same
      cases answer with
      | ok value => exact .inl ⟨value, rfl⟩
      | error reason => exact .inr ⟨reason, rfl⟩

/-- A sequence succeeds exactly if both parts do. -/
theorem bind_eq_ok {value : β} {after : State} :
    (function >>= rest) state = (.ok value, after) ↔
      ∃ first middle, function state = (.ok first, middle) ∧
        rest first middle = (.ok value, after) := by
  rw [bind_apply]
  cases result : function state with
  | mk answer middle =>
      cases answer with
      | ok first => simp
      | error reason => simp

theorem bind_pure (function : Fallible State Error α) : function >>= pure = function := by
  funext state
  rw [bind_apply]
  cases function state with
  | mk answer after => cases answer <;> rfl

theorem bind_assoc {γ : Type w} (function : Fallible State Error α)
    (second : α → Fallible State Error β) (third : β → Fallible State Error γ) :
    function >>= second >>= third = function >>= fun value => second value >>= third := by
  funext state
  simp only [bind_apply]
  cases function state with
  | mk answer after => cases answer <;> rfl

instance : LawfulMonad (Fallible State Error) :=
  LawfulMonad.mk' _ bind_pure (fun _ _ => rfl) bind_assoc

/-- What is made of the returned value does not concern the state. -/
theorem bind_pure_state (change : α → β) :
    ((do return change (← function) : Fallible State Error β) state).2 =
      (function state).2 := by
  cases result : function state with
  | mk answer after =>
      cases answer with
      | ok value =>
          rw [bind_of_ok result]
          rfl
      | error reason => rw [bind_of_error result]

theorem focus_of_ok {Part : Type u} {get : State → Part} {set : Part → State → State}
    {function : Fallible Part Error α} {value : α} {part : Part}
    (returns : function (get state) = (.ok value, part)) :
    focus get set function state = (.ok value, set part state) := by
  rw [focus, returns]

theorem ite_apply {condition : Prop} [Decidable condition]
    {first second : Fallible State Error α} :
    (if condition then first else second) state =
      if condition then first state else second state := by
  split
  · rfl
  · rfl

end

/-! ## Relations that functions respect -/

/-- Whether it returns or raises an error, the function leads only to related states. -/
def Respects (relation : State → State → Prop)
    (function : Fallible State Error α) : Prop :=
  ∀ state, relation state (function state).2

section Respects

variable {relation : State → State → Prop} {function : Fallible State Error α}
variable {rest : α → Fallible State Error β}

theorem respects_pure (refl : ∀ state, relation state state) (value : α) :
    Respects relation (pure value : Fallible State Error α) := refl

theorem respects_error (refl : ∀ state, relation state state) (reason : Error) :
    Respects relation (error reason : Fallible State Error α) := refl

theorem respects_bind (trans : ∀ {first second third}, relation first second →
    relation second third → relation first third) (first : Respects relation function)
    (second : ∀ value, Respects relation (rest value)) :
    Respects relation (function >>= rest) := by
  intro state
  have before := first state
  rw [bind_apply]
  cases result : function state with
  | mk answer middle =>
      rw [result] at before
      cases answer with
      | ok value => exact trans before (second value middle)
      | error reason => exact before

end Respects

/-! ## Measures that functions change -/

/-- Whenever the function returns, it has changed a measure of the state by some
amount. -/
def Shifts (measure : State → Int) (amount : Int)
    (function : Fallible State Error α) : Prop :=
  ∀ state value after, function state = (.ok value, after) →
    measure after = measure state + amount

section Shifts

variable {measure : State → Int} {amount first second : Int}
  {function : Fallible State Error α}
variable {rest : α → Fallible State Error β}

theorem shifts_pure (value : α) :
    Shifts measure 0 (pure value : Fallible State Error α) := by
  intro state result after returns
  cases returns
  exact (Int.add_zero _).symm

theorem shifts_error (reason : Error) :
    Shifts measure amount (error reason : Fallible State Error α) := by
  intro state result after returns
  cases returns

theorem shifts_asks (access : State → α) :
    Shifts measure 0 (asks access : Fallible State Error α) := by
  intro state result after returns
  cases returns
  exact (Int.add_zero _).symm

theorem shifts_modify {change : State → State}
    (changes : ∀ state, measure (change state) = measure state + amount) :
    Shifts measure amount (modify change : Fallible State Error PUnit) := by
  intro state result after returns
  cases returns
  exact changes state

/-- The amounts of the parts of a sequence add up. -/
theorem shifts_bind (before : Shifts measure first function)
    (continues : ∀ value, Shifts measure second (rest value)) :
    Shifts measure (first + second) (function >>= rest) := by
  intro state result after returns
  rcases bind_eq_ok.mp returns with ⟨value, middle, isMiddle, isAfter⟩
  rw [continues value middle result after isAfter, before state value middle isMiddle,
    Int.add_assoc]

theorem shifts_ite {condition : Prop} [Decidable condition]
    {other : Fallible State Error α}
    (holds : Shifts measure amount function) (fails : Shifts measure amount other) :
    Shifts measure amount (if condition then function else other) := by
  split
  · exact holds
  · exact fails

end Shifts

end Fallible

end LuaJack
