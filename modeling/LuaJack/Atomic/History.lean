import LuaJack.Atomic.Interleaving
import LuaJack.Atomic.Typestate

/-!
# Histories of calls

In a recorded system every call returns, besides its event, the operations that it has
performed and the answers that it has received.  What a program does whatever the
answers is then true of every entry of the log, however the calls are interleaved.

An operation may add something to a record in the shared state.  When no call does
anything after such an operation, the log accounts for the whole record. -/

namespace LuaJack.Atomic

universe u

variable {Thread Op Event α State ρ : Type} {Answer : Op → Type} {σ : Type u}

namespace Program

/-- The program that returns its history too, of which a part is already known. -/
def recorded (history : List (Occurrence Op Answer)) :
    Program Op Answer α → Program Op Answer (List (Occurrence Op Answer) × α)
  | .done value => .done (history, value)
  | .act op next =>
      .act op fun answer => (next answer).recorded (history ++ [⟨op, answer⟩])

/-- The state of a protocol after a history. -/
def play (step : State → (op : Op) → Answer op → Option State) (start : State)
    (history : List (Occurrence Op Answer)) : Option State :=
  history.foldlM
    (fun state occurrence => step state occurrence.op occurrence.answer) start

variable {step : State → (op : Op) → Answer op → Option State}

@[simp] theorem play_nil (start : State) :
    play step start ([] : List (Occurrence Op Answer)) = some start := rfl

/-- One more operation. -/
theorem play_concat {start state state' : State}
    {history : List (Occurrence Op Answer)} {op : Op}
    {answer : Answer op} (played : play step start history = some state)
    (performed : step state op answer = some state') :
    play step start (history ++ [⟨op, answer⟩]) = some state' := by
  unfold play at played ⊢
  rw [List.foldlM_append, played, Option.bind_eq_bind, Option.bind_some, List.foldlM_cons,
    performed]
  rfl

/-- A protocol that only forbids, and otherwise takes notes. -/
theorem foldl_of_play {note : State → (op : Op) → Answer op → State}
    (notes : ∀ state op answer state', step state op answer = some state' →
      note state op answer = state')
    {start final : State} {history : List (Occurrence Op Answer)}
    (played : play step start history = some final) :
    history.foldl (fun state occurrence => note state occurrence.op occurrence.answer)
      start =
      final := by
  induction history generalizing start with
  | nil =>
      cases played
      rfl
  | cons occurrence history ih =>
      unfold play at ih played
      rw [List.foldlM_cons] at played
      rcases Option.bind_eq_some_iff.mp played with ⟨next, performed, rest⟩
      rw [List.foldl_cons, notes _ _ _ _ performed]
      exact ih rest

end Program

namespace System

/-- The same system, in which the events of the log come with the histories of the
calls. -/
def recorded (system : System Thread Op Answer Event σ) :
    System Thread Op Answer (List (Occurrence Op Answer) × Event) σ where
  meaning := system.meaning
  calls := fun thread program =>
    ∃ original, system.calls thread original ∧ program = original.recorded []

end System

open Program

/-- All calls keep to a protocol: those that have returned, and those that are in
progress. -/
structure Protocol (step : State → (op : Op) → Answer op → Option State)
    (post : Event → State → Prop) (start : State)
    (config : Config Thread Op Answer (List (Occurrence Op Answer) × Event) σ) :
    Prop where
  returned : ∀ entry ∈ config.log, ∃ state, play step start entry.2.1 = some state ∧
    post entry.2.2 state
  running : ∀ thread program, config.running thread = some program →
    ∃ history rest state, program = recorded history rest ∧
      play step start history = some state ∧ Follows step post state rest

namespace Protocol

variable {system : System Thread Op Answer Event σ}
variable {step : State → (op : Op) → Answer op → Option State}
  {post : Event → State → Prop}
variable {start state : State} {shared : σ} {thread : Thread}
variable {config : Config Thread Op Answer (List (Occurrence Op Answer) × Event) σ}

/-- What a call that is in progress does next keeps to the protocol. -/
theorem act {op : Op}
    {next : Answer op → Program Op Answer (List (Occurrence Op Answer) × Event)}
    (protocol : Protocol step post start config)
    (inside : config.running thread = some (.act op next)) (answer : Answer op) :
    ∃ history rest state, next answer = recorded history rest ∧
      play step start history = some state ∧ Follows step post state rest ∧
      ∃ before, (∀ answer, ∃ after, step before op answer = some after) ∧
        step before op answer = some state := by
  rcases protocol.running thread _ inside with
    ⟨history, rest, state, isProgram, played, follows⟩
  cases rest with
  | done event => cases isProgram
  | act other rest =>
      cases isProgram
      rcases follows answer with ⟨state', performed, continues⟩
      refine ⟨history ++ [⟨op, answer⟩], rest answer,
        state', rfl, play_concat played performed, continues, state, ?_, performed⟩
      intro answer
      rcases follows answer with ⟨after, performed, _⟩
      exact ⟨after, performed⟩

variable [DecidableEq Thread]

/-- A call that keeps to the protocol goes on or returns. -/
theorem settle {history : List (Occurrence Op Answer)} {rest : Program Op Answer Event}
    (protocol : Protocol step post start config)
    (played : play step start history = some state)
    (follows : Follows step post state rest) :
    Protocol step post start (config.settle thread shared (recorded history rest)) := by
  cases rest with
  | done event =>
      constructor
      · intro entry member
        rcases List.mem_append.mp member with earlier | last
        · exact protocol.returned entry earlier
        · rw [List.mem_singleton.mp last]
          exact ⟨state, played, follows⟩
      · intro other program isRunning
        dsimp only [recorded, Config.settle] at isRunning
        rcases eq_or_ne other thread with rfl | different
        · rw [Function.update_self] at isRunning
          cases isRunning
        · rw [Function.update_of_ne different] at isRunning
          exact protocol.running other program isRunning
  | act op next =>
      constructor
      · exact protocol.returned
      · intro other program isRunning
        dsimp only [recorded, Config.settle] at isRunning
        rcases eq_or_ne other thread with rfl | different
        · rw [Function.update_self] at isRunning
          cases isRunning
          exact ⟨history, .act op next, state, rfl, played, follows⟩
        · rw [Function.update_of_ne different] at isRunning
          exact protocol.running other program isRunning

/-- When every program that the threads may call keeps to the protocol, all calls do. -/
theorem of_reaches
    (follows : ∀ thread program, system.calls thread program →
      Follows step post start program)
    (run : system.recorded.Reaches shared config) : Protocol step post start config := by
  induction run with
  | refl =>
      constructor
      · intro entry member
        cases member
      · intro thread program isRunning
        cases isRunning
  | tail _ taken ih =>
      cases taken with
      | @start thread program outside offered =>
          rcases offered with ⟨original, offered, rfl⟩
          exact ih.settle (play_nil start) (follows thread original offered)
      | @act thread op next answer after inside performed =>
          rcases ih.act inside answer with
            ⟨history, rest, state, isNext, played, continues, _⟩
          rw [isNext]
          exact ih.settle played continues

/-! ## The record -/

/-- What the calls of the log have added to the record. -/
def contributions (step : State → (op : Op) → Answer op → Option State) (start : State)
    (given : State → List ρ) (log : List (Thread × List (Occurrence Op Answer) × Event)) :
    List ρ :=
  log.flatMap fun entry => ((play step start entry.2.1).map given).getD []

/-- The log accounts for the record again after a call has gone on or returned. -/
theorem contributions_settle {record : σ → List ρ} {given : State → List ρ}
    {history : List (Occurrence Op Answer)} {rest : Program Op Answer Event}
    (last : ∀ state op, (∀ answer, ∃ after, step state op answer = some after) →
      given state = [])
    (played : play step start history = some state)
    (follows : Follows step post state rest)
    (added : record shared = contributions step start given config.log ++ given state) :
    record (config.settle thread shared (recorded history rest)).shared =
      contributions step start given
        (config.settle thread shared (recorded history rest)).log := by
  rw [Config.settle_shared, added]
  cases rest with
  | done event =>
      simp only [recorded, Config.settle, contributions,
        List.flatMap_append, List.flatMap_cons,
        List.flatMap_nil, List.append_nil, played, Option.map_some, Option.getD_some]
  | act op next =>
      have nothing : given state = [] := by
        apply last state op
        intro answer
        rcases follows answer with ⟨after, performed, _⟩
        exact ⟨after, performed⟩
      rw [nothing, List.append_nil]
      rfl

/-- When nothing is done after an operation that adds to the record, the log accounts
for the whole record. -/
theorem record_of_reaches {record : σ → List ρ} {given : State → List ρ}
    (follows : ∀ thread program, system.calls thread program →
      Follows step post start program)
    (last : ∀ state op, (∀ answer, ∃ after, step state op answer = some after) →
      given state = [])
    (adds : ∀ state op before answer after state', step state op answer = some state' →
      system.meaning op before answer after →
        record after = record before ++ given state')
    (nothing : given start = []) (empty : record shared = [])
    (run : system.recorded.Reaches shared config) :
    record config.shared = contributions step start given config.log := by
  induction run with
  | refl => exact empty
  | tail before taken ih =>
      have protocol := of_reaches follows before
      cases taken with
      | @start thread program outside offered =>
          rcases offered with ⟨original, offered, rfl⟩
          apply contributions_settle last (play_nil start)
            (follows thread original offered)
          rw [nothing, List.append_nil]
          exact ih
      | @act thread op next answer after inside performed =>
          rcases protocol.act inside answer with
            ⟨history, rest, state, isNext, played, continues, earlier, _, stepped⟩
          rw [isNext]
          apply contributions_settle last played continues
          rw [adds earlier op _ answer after state stepped performed, ih]

end Protocol

end LuaJack.Atomic
