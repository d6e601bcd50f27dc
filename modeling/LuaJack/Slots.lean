import Mathlib.Logic.Function.Basic
import Mathlib.Tactic.Common

/-!
# References into a registry

A registry maps references to values, and slots hold references.  As long as no
reference is held twice, a slot can be cleared or assigned without a change of
what the others refer to.
-/

namespace LuaJack

universe u v w

variable {Slot : Type u} {Reference : Type v} {Value : Type w}

/-- The slots hold references that are used, and no reference twice. A slot without a
reference holds `null`. -/
structure Holds (registry : Reference → Option Value) (null : Reference)
    (refs : Slot → Reference) : Prop where
  unused : registry null = none
  used : ∀ slot, refs slot ≠ null → (registry (refs slot)).isSome
  distinct : ∀ slot other, refs slot = refs other → refs slot ≠ null → slot = other

namespace Holds

variable {registry : Reference → Option Value}
  {null : Reference} {refs : Slot → Reference}

/-- Slots may be forgotten. -/
theorem forget {fewer : Slot → Reference} (holds : Holds registry null refs)
    (subset : ∀ slot, fewer slot ≠ null → fewer slot = refs slot) :
    Holds registry null fewer where
  unused := holds.unused
  used := by
    intro slot notNull
    have same := subset slot notNull
    rw [same] at notNull ⊢
    exact holds.used slot notNull
  distinct := by
    intro slot other equal notNull
    have same := subset slot notNull
    have otherSame := subset other (equal ▸ notNull)
    apply holds.distinct slot other
    · rw [← same, ← otherSame, equal]
    · rw [← same]
      exact notNull

/-- A reference that another slot holds. -/
theorem ne_of_ne (holds : Holds registry null refs)
    {slot other : Slot} (different : other ≠ slot)
    (notNull : refs other ≠ null) : refs other ≠ refs slot :=
  fun equal => different (holds.distinct other slot equal notNull)

/-- A reference that is not used is not held. -/
theorem ne_fresh (holds : Holds registry null refs)
    {ref : Reference} (fresh : registry ref = none)
    {slot : Slot} (held : refs slot ≠ null) : refs slot ≠ ref := by
  intro equal
  have used := holds.used slot held
  rw [equal, fresh] at used
  cases used

variable [DecidableEq Slot] [DecidableEq Reference]

/-! ## Clearing a slot -/

/-- What the slots refer to after one of them has been cleared. -/
theorem lookup_release (holds : Holds registry null refs) (slot other : Slot) :
    Function.update registry (refs slot) none (Function.update refs slot null other) =
      if other = slot then none else registry (refs other) := by
  have nullFree : Function.update registry (refs slot) none null = none := by
    rw [Function.update_apply, holds.unused, ite_self]
  split
  next same => rw [same, Function.update_self, nullFree]
  next different =>
    rw [Function.update_of_ne different]
    by_cases isNull : refs other = null
    · rw [isNull, nullFree, holds.unused]
    · exact Function.update_of_ne (holds.ne_of_ne different isNull) none registry

theorem release (holds : Holds registry null refs) (slot : Slot) :
    Holds (Function.update registry (refs slot) none) null
      (Function.update refs slot null) where
  unused := by rw [Function.update_apply, holds.unused, ite_self]
  used := by
    intro other notNull
    rw [holds.lookup_release]
    split
    next same =>
      rw [same, Function.update_self] at notNull
      exact absurd rfl notNull
    next different =>
      rw [Function.update_of_ne different] at notNull
      exact holds.used other notNull
  distinct := by
    have held (one : Slot) (notNull : Function.update refs slot null one ≠ null) :
        Function.update refs slot null one = refs one := by
      apply Function.update_of_ne
      rintro rfl
      exact notNull (Function.update_self _ _ _)
    intro one other equal notNull
    apply holds.distinct one other
    · rw [← held one notNull, equal, held other (equal ▸ notNull)]
    · rw [← held one notNull]
      exact notNull

/-! ## Assigning a new reference -/

section Store

variable (holds : Holds registry null refs)
  {ref : Reference} (fresh : registry ref = none)
variable (notNull : ref ≠ null) (slot : Slot) (value : Value)
include holds fresh notNull

theorem lookup_store (other : Slot) :
    Function.update registry ref (some value) (Function.update refs slot ref other) =
      if other = slot then some value else registry (refs other) := by
  split
  next same => rw [same, Function.update_self, Function.update_self]
  next different =>
    rw [Function.update_of_ne different]
    apply Function.update_of_ne
    by_cases isNull : refs other = null
    · rw [isNull]
      exact notNull.symm
    · exact holds.ne_fresh fresh isNull

theorem store :
    Holds (Function.update registry ref (some value)) null
      (Function.update refs slot ref) where
  unused := by
    rw [Function.update_of_ne notNull.symm]
    exact holds.unused
  used := by
    intro other held
    rw [holds.lookup_store fresh notNull]
    split
    · rfl
    next different =>
      rw [Function.update_of_ne different] at held
      exact holds.used other held
  distinct := by
    intro one other equal held
    by_cases isOne : one = slot
    · by_cases isOther : other = slot
      · rw [isOne, isOther]
      · rw [isOne, Function.update_self, Function.update_of_ne isOther] at equal
        rw [isOne, Function.update_self, equal] at held
        exact absurd equal.symm (holds.ne_fresh fresh held)
    · rw [Function.update_of_ne isOne] at equal held
      by_cases isOther : other = slot
      · rw [isOther, Function.update_self] at equal
        exact absurd equal (holds.ne_fresh fresh held)
      · rw [Function.update_of_ne isOther] at equal
        exact holds.distinct one other equal held

end Store

end Holds

/-! ## Registries without other references -/

/-- The slots hold exactly the references that are used, each once. -/
structure Accounts (registry : Reference → Option Value) (null : Reference)
    (refs : Slot → Reference) : Prop extends Holds registry null refs where
  owned : ∀ ref, (registry ref).isSome → ∃ slot, refs slot = ref

namespace Accounts

variable {registry : Reference → Option Value}
  {null : Reference} {refs : Slot → Reference}

/-- Nothing is used and nothing is held. -/
theorem empty (unused : ∀ ref, registry ref = none) (noRefs : ∀ slot, refs slot = null) :
    Accounts registry null refs where
  unused := unused null
  used := fun slot held => absurd (noRefs slot) held
  distinct := fun slot _ _ held => absurd (noRefs slot) held
  owned := by
    intro ref isSome
    rw [unused] at isSome
    cases isSome

/-- There is no balance while a reference is used that no slot holds. -/
theorem not_of_unowned {ref : Reference} (isUsed : (registry ref).isSome)
    (unowned : ∀ slot, refs slot ≠ ref) : ¬Accounts registry null refs := by
  intro accounts
  cases accounts.owned ref isUsed with
  | intro slot isRef => exact unowned slot isRef

variable [DecidableEq Slot] [DecidableEq Reference]

theorem release (accounts : Accounts registry null refs) (slot : Slot) :
    Accounts (Function.update registry (refs slot) none) null
      (Function.update refs slot null) where
  toHolds := accounts.toHolds.release slot
  owned := by
    intro ref isSome
    by_cases isReleased : ref = refs slot
    · rw [isReleased, Function.update_self] at isSome
      cases isSome
    · rw [Function.update_of_ne isReleased] at isSome
      cases accounts.owned ref isSome with
      | intro other isRef =>
          have different : other ≠ slot := by
            intro same
            rw [same] at isRef
            exact isReleased isRef.symm
          exact ⟨other, (Function.update_of_ne different _ _).trans isRef⟩

/-- The slot must not hold another reference. -/
theorem store (accounts : Accounts registry null refs) {ref : Reference}
    (fresh : registry ref = none) (notNull : ref ≠ null)
    {slot : Slot} (isEmpty : refs slot = null) (value : Value) :
    Accounts (Function.update registry ref (some value)) null
      (Function.update refs slot ref) where
  toHolds := accounts.toHolds.store fresh notNull slot value
  owned := by
    intro used isSome
    by_cases isRef : used = ref
    · exact ⟨slot, by rw [isRef, Function.update_self]⟩
    · rw [Function.update_of_ne isRef] at isSome
      cases accounts.owned used isSome with
      | intro other isUsed =>
          have different : other ≠ slot := by
            intro same
            rw [same, isEmpty] at isUsed
            rw [← isUsed, accounts.unused] at isSome
            cases isSome
          exact ⟨other, (Function.update_of_ne different _ _).trans isUsed⟩

end Accounts

end LuaJack
