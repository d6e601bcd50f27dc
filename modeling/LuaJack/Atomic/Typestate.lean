import LuaJack.Atomic.Program

/-!
# What a program does whatever the answers

Some facts about a program hold in every environment, since they only depend on which
operations the program performs after which answers: that it keeps to a protocol, and that
it ends after a limited number of operations.
-/

namespace LuaJack.Atomic.Program

variable {Op : Type} {Answer : Op → Type} {α β : Type} {State : Type*}

/-! ## Protocols -/

/-- `Follows step post state program`: started in a state of the protocol, the program
only performs operations that the protocol allows in the state that it has got to, and
ends with a result and a state that satisfy `post`. -/
def Follows (step : State → (op : Op) → Answer op → Option State)
    (post : α → State → Prop) :
    State → Program Op Answer α → Prop
  | state, .done value => post value state
  | state, .act op next => ∀ answer, ∃ state', step state op answer = some state' ∧
      Follows step post state' (next answer)

variable {step : State → (op : Op) → Answer op → Option State} {state : State}
variable {program : Program Op Answer α} {rest : α → Program Op Answer β}

/-- One operation. -/
theorem Follows.perform {post : β → State → Prop}
    {op : Op} {next : Answer op → Program Op Answer β}
    (follows : ∀ answer, ∃ state', step state op answer = some state' ∧
      Follows step post state' (next answer)) :
    Follows step post state (Program.perform op >>= next) := follows

/-- Sequential composition rule. -/
theorem Follows.bind {between : α → State → Prop} {post : β → State → Prop}
    (first : Follows step between state program)
    (second : ∀ value state', between value state' →
      Follows step post state' (rest value)) :
    Follows step post state (program >>= rest) := by
  induction program generalizing state with
  | done value => exact second value state first
  | act op next ih =>
      intro answer
      rcases first answer with ⟨state', allowed, follows⟩
      exact ⟨state', allowed, ih answer follows⟩

/-- Consequence rule. -/
theorem Follows.imp {post weaker : α → State → Prop}
    (follows : Follows step post state program)
    (implies : ∀ value state, post value state → weaker value state) :
    Follows step weaker state program := by
  rw [← Program.bind_done program]
  exact follows.bind implies

/-! ## Limits -/

/-- The program performs at most this number of operations. -/
def Within : Program Op Answer α → Nat → Prop
  | .done _, _ => True
  | .act _ _, 0 => False
  | .act _ next, limit + 1 => ∀ answer, (next answer).Within limit

/-- One operation. -/
theorem Within.perform {op : Op} {next : Answer op → Program Op Answer β} {limit : Nat}
    (within : ∀ answer, (next answer).Within limit) :
    (Program.perform op >>= next).Within (limit + 1) := within

theorem Within.mono {limit more : Nat} (within : program.Within limit)
    (le : limit ≤ more) :
    program.Within more := by
  induction program generalizing limit more with
  | done value => trivial
  | act op next ih =>
      cases limit with
      | zero => exact within.elim
      | succ limit =>
          cases more with
          | zero => exact absurd le (Nat.not_succ_le_zero limit)
          | succ more =>
              exact fun answer => ih answer (within answer) (Nat.le_of_succ_le_succ le)

/-- Sequential composition rule. -/
theorem Within.bind {first second : Nat} (within : program.Within first)
    (later : ∀ value, (rest value).Within second) :
    (program >>= rest).Within (first + second) := by
  induction program generalizing first with
  | done value => exact (later value).mono (Nat.le_add_left second first)
  | act op next ih =>
      cases first with
      | zero => exact within.elim
      | succ first =>
          rw [Nat.succ_add]
          exact fun answer => ih answer (within answer)

/-- A program within a limit has no run with more operations. -/
theorem Within.length_le {σ : Type*} {meaning : Meaning Op Answer σ} {before after : σ}
    {history : List (Occurrence Op Answer)} {value : α} {limit : Nat}
    (within : program.Within limit)
    (run : program.Runs meaning before history value after) :
    history.length ≤ limit := by
  induction run generalizing limit with
  | done value state => exact Nat.zero_le limit
  | act performed rest ih =>
      cases limit with
      | zero => exact within.elim
      | succ limit => exact Nat.succ_le_succ (ih (within _))

end LuaJack.Atomic.Program
