import LuaJack.Errors.Verbatim

/-!
# The exit status

`OsExit` converts its argument to a boolean, and the original `os.exit` is called with a
boolean in the end: at once in the main thread, and otherwise when the main thread finds
that the exit has been registered. -/

namespace LuaJack.Errors

open Atomic

/-- The arguments that `os.exit` takes. -/
inductive ExitArgument where
  | absent
  | boolean (value : Bool)
  | integer (value : LuaInteger)
  deriving DecidableEq

/-- The status with which the original `os.exit` ends the process. The integer is
converted to an `int`, and `exit` passes its low eight bits on. -/
def ExitArgument.status : ExitArgument → BitVec 8
  | absent => 0
  | boolean value => if value then 0 else 1
  | integer value => (value.setWidth 32).setWidth 8

/-- `lua_toboolean`. -/
def ExitArgument.toBoolean : ExitArgument → Bool
  | absent => false
  | boolean value => value
  | integer _ => true

/-- `OriginalOsExit`: the status with which it ends the process. -/
def originalOsExit (code : Bool) : BitVec 8 := ExitArgument.status (.boolean code)

/-- The status with which `luajack_checkerror` ends the process, unless it raises an
error. -/
def Outcome.status : Outcome → Option (BitVec 8)
  | error _ => none
  | exit code => some (originalOsExit code)

section Runs

variable {ι : Type} [DecidableEq ι]
variable {config : Config (Thread ι) ErrorOp ErrorOp.Answer Event Register}

/-- Until an error is registered, only one call has got the lock, and it is this call
that registers its error. -/
structure FirstSets (register : Register) : Prop where
  alone : register.setters = [] → register.holders.length ≤ 1
  first : ∀ ticket ∈ register.setters, ticket = 0

omit [DecidableEq ι] in
theorem FirstSets.exec {register : Register}
    (firstSets : FirstSets register) (op : ErrorOp)
    (guards : ∃ (phases : ι → Option Phase), errlock.Guards phases register)
    (situation : Situation (op.exec register).2) : FirstSets (op.exec register).2 := by
  cases op with
  | trylock call =>
      rw [ErrorOp.exec]
      cases locked : register.locked with
      | true => exact firstSets
      | false =>
          refine ⟨?_, firstSets.first⟩
          intro noSetters
          rcases guards with ⟨_, ⟨_, free, _⟩ | ⟨_, _, isLocked, _⟩⟩
          · rcases free with ⟨_, noHolders⟩ | ⟨ticket, other, recorded⟩
            · simp [noHolders]
            · have isSetter : register.setters = [] := noSetters
              rw [recorded.setters] at isSetter
              cases isSetter
          · have isLocked : register.locked = true := isLocked
            rw [locked] at isLocked
            cases isLocked
  | setStatus ticket status =>
      have isSetters : (ErrorOp.exec (.setStatus ticket status) register).2.setters =
          register.setters ++ [ticket] := rfl
      cases situation with
      | blank blank => simp [blank.setters] at isSetters
      | drafting drafting => simp [drafting.setters] at isSetters
      | @recorded other call recorded =>
          rw [recorded.setters] at isSetters
          cases noSetters : register.setters with
          | cons setter setters => simp [noSetters] at isSetters
          | nil =>
              have inside := (List.getElem?_eq_some_iff.mp recorded.holder).1
              have isFirst : other = 0 :=
                Nat.lt_one_iff.mp (Nat.lt_of_lt_of_le inside (firstSets.alone noSetters))
              constructor
              · intro isEmpty
                cases recorded.setters.symm.trans isEmpty
              · intro setter member
                rw [recorded.setters] at member
                rw [List.mem_singleton.mp member, isFirst]
  | _ => exact ⟨firstSets.alone, firstSets.first⟩

end Runs

/-! ## The exit alone -/

end LuaJack.Errors
