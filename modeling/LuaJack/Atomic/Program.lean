import Mathlib.Logic.Function.Basic
import Mathlib.Tactic.Common

/-!
# Programs over atomic operations

A sequential piece of code is represented by the tree of its interactions with
the state it shares with others: every node is one atomic operation, and the
code that follows is a function of the answer.  Purely local computation leaves
no node.

The same tree can be run alone from a given state, run against an unknown
environment that chooses the answers, or interleaved with other programs.
-/

namespace LuaJack.Atomic

universe u

variable {Op : Type} {Answer : Op → Type} {σ : Type u} {α β : Type}

/-- A sequential program whose only interactions with its surroundings are
atomic operations of type `Op`. -/
inductive Program (Op : Type) (Answer : Op → Type) (α : Type) where
  | done (value : α) : Program Op Answer α
  | act (op : Op) (next : Answer op → Program Op Answer α) : Program Op Answer α

/-- One performed operation together with the answer it received. -/
structure Occurrence (Op : Type) (Answer : Op → Type) where
  op : Op
  answer : Answer op

/-- Meaning of the operations on a shared state. A relation, because an
operation may be blocked and may have several answers. -/
abbrev Meaning (Op : Type) (Answer : Op → Type) (σ : Type u) :=
  (op : Op) → σ → Answer op → σ → Prop

namespace Program

/-- Continue a program with a function of its result. -/
def bind (program : Program Op Answer α) (rest : α → Program Op Answer β) :
    Program Op Answer β :=
  match program with
  | .done value => rest value
  | .act op next => .act op fun answer => (next answer).bind rest

instance : Monad (Program Op Answer) where
  pure := .done
  bind := bind

/-- The program that performs one operation and returns its answer. -/
def perform (op : Op) : Program Op Answer (Answer op) :=
  .act op .done

@[simp] theorem pure_eq (value : α) :
    (pure value : Program Op Answer α) = .done value := rfl

@[simp] theorem done_bind (value : α) (rest : α → Program Op Answer β) :
    (Program.done value : Program Op Answer α) >>= rest = rest value := rfl

@[simp] theorem act_bind (op : Op) (next : Answer op → Program Op Answer α)
    (rest : α → Program Op Answer β) :
    Program.act op next >>= rest = .act op fun answer => next answer >>= rest := rfl

@[simp] theorem perform_bind (op : Op) (rest : Answer op → Program Op Answer β) :
    (perform op : Program Op Answer (Answer op)) >>= rest = .act op rest := rfl

theorem bind_done (program : Program Op Answer α) :
    program >>= Program.done = program := by
  induction program with
  | done value => rfl
  | act op next ih =>
      rw [act_bind]
      congr 1
      funext answer
      exact ih answer

theorem bind_bind {γ : Type} (program : Program Op Answer α)
    (first : α → Program Op Answer β) (second : β → Program Op Answer γ) :
    program >>= first >>= second = program >>= fun value => first value >>= second := by
  induction program with
  | done value => rfl
  | act op next ih =>
      simp only [act_bind]
      congr 1
      funext answer
      exact ih answer

instance : LawfulMonad (Program Op Answer) :=
  LawfulMonad.mk' _ bind_done (fun _ _ => rfl) bind_bind

/-- Replace every operation by a program over other operations. -/
def translate {Op' : Type} {Answer' : Op' → Type}
    (interpret : (op : Op) → Program Op' Answer' (Answer op)) :
    Program Op Answer α → Program Op' Answer' α
  | .done value => .done value
  | .act op next => interpret op >>= fun answer => (next answer).translate interpret

/-! ## Undisturbed runs -/

/-- Run a program alone, when every operation is a total function of the state. -/
def run (exec : (op : Op) → σ → Answer op × σ) : Program Op Answer α → σ → α × σ
  | .done value, state => (value, state)
  | .act op next, state =>
      let (answer, state) := exec op state
      (next answer).run exec state

@[simp] theorem run_done (exec : (op : Op) → σ → Answer op × σ) (value : α) (state : σ) :
    (Program.done value : Program Op Answer α).run exec state = (value, state) := rfl

@[simp] theorem run_act (exec : (op : Op) → σ → Answer op × σ) (op : Op)
    (next : Answer op → Program Op Answer α) (state : σ) :
    (Program.act op next).run exec state =
      (next (exec op state).1).run exec (exec op state).2 := rfl

theorem run_bind (exec : (op : Op) → σ → Answer op × σ) (program : Program Op Answer α)
    (rest : α → Program Op Answer β) (state : σ) :
    (program >>= rest).run exec state =
      (rest (program.run exec state).1).run exec (program.run exec state).2 := by
  induction program generalizing state with
  | done value => rfl
  | act op next ih =>
      rw [act_bind, run_act, run_act]
      exact ih _ _

/-! ## Runs with their history -/

/-- `Runs meaning program before history value after`: started in `before`, the
program can perform the operations of `history`, in order and with the answers
recorded there, and end in `after` with result `value`. -/
inductive Runs (meaning : Meaning Op Answer σ) :
    Program Op Answer α → σ → List (Occurrence Op Answer) → α → σ → Prop where
  | done (value : α) (state : σ) : Runs meaning (.done value) state [] value state
  | act {op : Op} {next : Answer op → Program Op Answer α} {before middle after : σ}
      {answer : Answer op} {history : List (Occurrence Op Answer)} {value : α} :
      meaning op before answer middle →
      Runs meaning (next answer) middle history value after →
      Runs meaning (.act op next) before (⟨op, answer⟩ :: history) value after

@[simp] theorem runs_done {meaning : Meaning Op Answer σ} {result value : α}
    {before after : σ} {history : List (Occurrence Op Answer)} :
    Runs meaning (Program.done result) before history value after ↔
      history = [] ∧ value = result ∧ after = before := by
  constructor
  · intro run
    cases run
    exact ⟨rfl, rfl, rfl⟩
  · rintro ⟨rfl, rfl, rfl⟩
    exact .done _ _

theorem runs_act {meaning : Meaning Op Answer σ} {op : Op}
    {next : Answer op → Program Op Answer α} {value : α}
    {before after : σ} {history : List (Occurrence Op Answer)} :
    Runs meaning (Program.act op next) before history value after ↔
      ∃ answer middle rest, history = ⟨op, answer⟩ :: rest ∧
        meaning op before answer middle ∧
        Runs meaning (next answer) middle rest value after := by
  constructor
  · intro run
    cases run with
    | act permitted rest => exact ⟨_, _, _, rfl, permitted, rest⟩
  · rintro ⟨answer, middle, rest, rfl, permitted, run⟩
    exact .act permitted run

/-- A run of a sequential composition is a run of the first part followed by a
run of the second. -/
theorem runs_bind {meaning : Meaning Op Answer σ} {program : Program Op Answer α}
    {rest : α → Program Op Answer β} {value : β} {before after : σ}
    {history : List (Occurrence Op Answer)} :
    Runs meaning (program >>= rest) before history value after ↔
      ∃ first middle result second, history = first ++ second ∧
        Runs meaning program before first result middle ∧
        Runs meaning (rest result) middle second value after := by
  induction program generalizing before history with
  | done result => simp
  | act op next ih =>
      rw [act_bind, runs_act]
      constructor
      · rintro ⟨answer, middle, tail, rfl, permitted, run⟩
        obtain ⟨first, last, result, second, rfl, firstRun, secondRun⟩ :=
          (ih answer).mp run
        exact ⟨⟨op, answer⟩ :: first, last, result, second, rfl,
          .act permitted firstRun, secondRun⟩
      · rintro ⟨first, last, result, second, rfl, firstRun, secondRun⟩
        obtain ⟨answer, middle, tail, rfl, permitted, run⟩ := runs_act.mp firstRun
        exact ⟨answer, middle, tail ++ second, rfl, permitted,
          (ih answer).mpr ⟨tail, last, result, second, rfl, run, secondRun⟩⟩

/-- Running alone is one of the possible runs. -/
theorem runs_of_run (exec : (op : Op) → σ → Answer op × σ) (program : Program Op Answer α)
    (state : σ) :
    ∃ history, Runs (fun op before answer after => (answer, after) =
      exec op before) program
      state history (program.run exec state).1 (program.run exec state).2 := by
  induction program generalizing state with
  | done value => exact ⟨[], .done value state⟩
  | act op next ih =>
      rcases ih (exec op state).1 (exec op state).2 with ⟨history, run⟩
      exact ⟨_, .act rfl run⟩

end Program

end LuaJack.Atomic
