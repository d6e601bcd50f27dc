import Mathlib.Tactic.Common

/-!
# Checked computations

A checked computation gives a value where a condition holds and raises an error
everywhere else.  Computations that are checked one after the other are checked
together.
-/

namespace LuaJack

universe u v

/-- The computation gives the value where the condition holds, and raises an error
elsewhere. -/
structure Checked {Error : Type u} {α : Type v} (result : Except Error α) (valid : Prop)
    (value : α) : Prop where
  succeeds : valid → result = .ok value
  raises : ¬ valid → ∃ error, result = .error error

namespace Checked

variable {Error : Type u} {α β : Type v}
variable {result : Except Error α} {rest : α → Except Error β}
variable {valid restValid : Prop} {value : α} {restValue : β}

theorem raises_iff (checked : Checked result valid value) :
    (∃ error, result = .error error) ↔ ¬ valid := by
  constructor
  · rintro ⟨error, raised⟩ holds
    rw [checked.succeeds holds] at raised
    cases raised
  · exact checked.raises

theorem eq_ok (checked : Checked result valid value)
    {given : α} (succeeded : result = .ok given) :
    valid ∧ given = value := by
  by_cases holds : valid
  · refine ⟨holds, ?_⟩
    rw [checked.succeeds holds] at succeeded
    exact (Except.ok.inj succeeded).symm
  · obtain ⟨error, raised⟩ := checked.raises holds
    rw [raised] at succeeded
    cases succeeded

theorem of_ok (succeeded : result = .ok value) (holds : valid) :
    Checked result valid value :=
  ⟨fun _ => succeeded, fun fails => absurd holds fails⟩

theorem of_error {error : Error} (raised : result = .error error) (fails : ¬ valid) :
    Checked result valid value :=
  ⟨fun holds => absurd holds fails, fun _ => ⟨error, raised⟩⟩

theorem congr {valid' : Prop} {value' : α} (checked : Checked result valid value)
    (same : valid ↔ valid') (given : valid → value = value') :
    Checked result valid' value' where
  succeeds holds := by rw [checked.succeeds (same.mpr holds), given (same.mpr holds)]
  raises fails := checked.raises fun holds => fails (same.mp holds)

/-- Two computations, of which the second is only reached where the first succeeds. -/
theorem bind (first : Checked result valid value)
    (second : valid → Checked (rest value) restValid restValue) :
    Checked (result >>= rest) (valid ∧ restValid) restValue where
  succeeds := by
    rintro ⟨holds, restHolds⟩
    rw [first.succeeds holds]
    exact (second holds).succeeds restHolds
  raises := by
    intro fails
    by_cases holds : valid
    · rw [first.succeeds holds]
      exact (second holds).raises fun restHolds => fails ⟨holds, restHolds⟩
    · obtain ⟨error, raised⟩ := first.raises holds
      rw [raised]
      exact ⟨error, rfl⟩

end Checked

end LuaJack
