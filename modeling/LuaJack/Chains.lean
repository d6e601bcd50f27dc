import Mathlib.Data.Fintype.Card
import Mathlib.Data.Set.Finite.Basic
import Mathlib.Logic.Relation
import Mathlib.Tactic.Common

/-!
# Chains

A value may stand for another one, and this one for yet another.  If there are finitely
many such values and none of them stands for itself in the end, every value has a last
one in its chain. -/

namespace LuaJack.Chains

open Relation

variable {α : Type*}

/-- A value stands for another one. -/
def Leads (next : α → Option α) (target value : α) : Prop := next value = some target

/-- No value is met again in its own chain. -/
def Acyclic (next : α → Option α) : Prop := ∀ value, ¬ TransGen (Leads next) value value

variable {next : α → Option α}

theorem acyclic_of_none (none : ∀ value, next value = none) : Acyclic next := by
  intro value chain
  rcases TransGen.head'_iff.mp chain with ⟨target, leads, _⟩
  cases (none target).symm.trans leads

/-- The values that stand for others are finitely many, so that chains without cycles
end. -/
theorem wellFounded_of_acyclic (finite : {value | (next value).isSome}.Finite)
    (acyclic : Acyclic next) : WellFounded (Leads next) := by
  have : Finite {value | (next value).isSome} := finite
  let later (target value : {value | (next value).isSome}) : Prop :=
    TransGen (Leads next) target.val value.val
  have : IsTrans _ later := ⟨fun _ _ _ => TransGen.trans⟩
  have : Std.Irrefl later := ⟨fun value => acyclic value.val⟩
  have laterWellFounded : WellFounded later := Finite.wellFounded_of_trans_of_irrefl later
  have ends {value : α} (isLast : next value = none) : Acc (Leads next) value := by
    refine ⟨_, fun target leads => ?_⟩
    cases isLast.symm.trans leads
  have accessible (value : {value | (next value).isSome}) : Acc
      (Leads next) value.val := by
    induction value using laterWellFounded.induction with
    | h value ih =>
        refine ⟨_, fun target leads => ?_⟩
        cases isNext : next target with
        | none => exact ends isNext
        | some _ =>
            exact ih ⟨target, Option.isSome_iff_exists.mpr ⟨_, isNext⟩⟩ (.single leads)
  constructor
  intro value
  cases isNext : next value with
  | none => exact ends isNext
  | some _ => exact accessible ⟨value, Option.isSome_iff_exists.mpr ⟨_, isNext⟩⟩

/-- The last value of a chain. -/
def last (wellFounded : WellFounded (Leads next)) (value : α) : α :=
  match _leads : next value with
  | none => value
  | some target => last wellFounded target
termination_by wellFounded.wrap value

variable {wellFounded : WellFounded (Leads next)} {value target : α}

theorem last_of_none (isLast : next value = none) : last wellFounded value = value := by
  rw [last]
  split
  · rfl
  · rename_i leads
    cases isLast.symm.trans leads

theorem last_of_some (leads : next value = some target) :
    last wellFounded value = last wellFounded target := by
  rw [last]
  split
  · rename_i isLast
    cases isLast.symm.trans leads
  · rename_i leads'
    cases leads.symm.trans leads'
    rfl

end LuaJack.Chains
