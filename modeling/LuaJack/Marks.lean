import Mathlib.Tactic.Common

/-!
# Marks

Every entry has a word of marks, one bit for each.  Setting or resetting a mark reads
the word and writes the whole word back, so this is not one access when several threads
change the word. -/

namespace LuaJack

/-- The member `marks` of an entry. -/
abbrev Marks := BitVec 32

namespace Marks

/-- `MarkGet`. -/
def get (marks : Marks) (bit : Nat) : Bool := marks &&& 1#32 <<< bit = 1#32 <<< bit

/-- `MarkSet`. -/
def set (marks : Marks) (bit : Nat) : Marks := marks ||| 1#32 <<< bit

/-- `MarkReset`. -/
def reset (marks : Marks) (bit : Nat) : Marks := marks &&& ~~~(1#32 <<< bit)

/-- The bit of `IsCudValid`. -/
def validBit : Nat := 0

/-- The bit of `IsProcessCallback`. -/
def processCallbackBit : Nat := 1

/-- The bit of `IsCudProfile`. -/
def profileBit : Nat := 2

variable (marks : Marks) {bit : Nat}

@[simp] theorem get_set : (marks.set bit).get bit = true := by
  rw [get, set, decide_eq_true_eq]
  apply BitVec.eq_of_getLsbD_eq
  intro index _
  rw [BitVec.getLsbD_and, BitVec.getLsbD_or, Bool.and_comm, Bool.and_or_distrib_left,
    Bool.and_self, Bool.or_comm]
  cases (1#32 <<< bit).getLsbD index <;> rfl

theorem get_reset (inWord : bit < 32) : (marks.reset bit).get bit = false := by
  rw [get, reset, decide_eq_false_iff_not]
  intro same
  have atBit := congrArg (·.getLsbD bit) same
  simp [inWord] at atBit

end Marks

end LuaJack
