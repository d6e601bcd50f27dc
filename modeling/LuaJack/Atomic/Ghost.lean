import LuaJack.Atomic.Interleaving

/-!
# Invariants of interleaved programs

To reason about one thread at a time, every thread is given a ghost value that
records what its call has achieved so far.  An invariant relates the ghost
values of all threads, the shared state and the log.  A program keeps the
invariant when each of its operations, performed in any state that satisfies
the invariant, can be matched by a new ghost value; nothing is assumed about
what the other threads do in between except that they keep the invariant too.
-/

namespace LuaJack.Atomic

universe u

variable {Thread Op Event α β : Type} {Answer : Op → Type} {σ : Type u}

/-- A ghost discipline for a system. `settled` singles out the ghost values that
a thread may have while it waits for its turn; the others occur only between
the last operation of a call and its return, which are one step. -/
structure Discipline (Thread Op : Type) (Answer : Op → Type)
    (Event : Type) (σ : Type u) where
  Ghost : Thread → Type
  idle : (thread : Thread) → Ghost thread
  settled : (thread : Thread) → Ghost thread → Prop
  invariant : ((thread : Thread) → Ghost thread) → σ → List (Thread × Event) → Prop

namespace Discipline

variable [DecidableEq Thread]
variable (discipline : Discipline Thread Op Answer Event σ)
  (meaning : Meaning Op Answer σ)

/-- What a thread may assume when it is its turn: it has the given ghost value,
every other thread is settled, and the invariant holds. -/
structure Turn (thread : Thread) (ghost : discipline.Ghost thread)
    (ghosts : (thread : Thread) → discipline.Ghost thread) (shared : σ)
    (log : List (Thread × Event)) : Prop where
  isGhost : ghosts thread = ghost
  others : ∀ other, other ≠ thread → discipline.settled other (ghosts other)
  holds : discipline.invariant ghosts shared log

/-- `Keeps thread post ghost program`: run by `thread` with the given ghost value,
the program keeps the invariant and ends with a result and a ghost value that
satisfy `post`. -/
def Keeps (thread : Thread) (post : α → discipline.Ghost thread → Prop) :
    discipline.Ghost thread → Program Op Answer α → Prop
  | ghost, .done value => post value ghost
  | ghost, .act op next =>
      discipline.settled thread ghost ∧
      ∀ ghosts before log answer after, discipline.Turn thread ghost ghosts before log →
        meaning op before answer after →
        ∃ ghost', discipline.invariant (Function.update ghosts thread ghost') after log ∧
          Keeps thread post ghost' (next answer)

/-- What a thread must have achieved for its call to return with an event. -/
def Returns (thread : Thread) (event : Event) (ghost : discipline.Ghost thread) : Prop :=
  ∀ ghosts shared log, discipline.Turn thread ghost ghosts shared log →
    discipline.invariant (Function.update ghosts thread (discipline.idle thread)) shared
      (log ++ [(thread, event)])

variable {discipline meaning} {thread : Thread}

/-- Sequential composition rule. -/
theorem Keeps.bind {post : β → discipline.Ghost thread → Prop}
    {between : α → discipline.Ghost thread → Prop} {ghost : discipline.Ghost thread}
    {program : Program Op Answer α} {rest : α → Program Op Answer β}
    (first : discipline.Keeps meaning thread between ghost program)
    (second : ∀ value ghost', between value ghost' →
      discipline.Keeps meaning thread post ghost' (rest value)) :
    discipline.Keeps meaning thread post ghost (program >>= rest) := by
  induction program generalizing ghost with
  | done value => exact second value ghost first
  | act op next ih =>
      refine ⟨first.1, ?_⟩
      intro ghosts before log answer after turn performed
      rcases first.2 ghosts before log answer after turn performed with
        ⟨ghost', holds', continues⟩
      exact ⟨ghost', holds', ih answer continues⟩

/-- Consequence rule. -/
theorem Keeps.imp {post weaker : α → discipline.Ghost thread → Prop}
    {ghost : discipline.Ghost thread} {program : Program Op Answer α}
    (keeps : discipline.Keeps meaning thread post ghost program)
    (implies : ∀ value ghost, post value ghost → weaker value ghost) :
    discipline.Keeps meaning thread weaker ghost program := by
  rw [← Program.bind_done program]
  exact keeps.bind implies

/-- A thread may take another ghost value before its first operation. -/
theorem Keeps.learn {post : α → discipline.Ghost thread → Prop}
    {ghost : discipline.Ghost thread} {program : Program Op Answer α}
    (settled : discipline.settled thread ghost) (returns : ∀ value, post value ghost)
    (learns : ∀ ghosts shared log, discipline.Turn thread ghost ghosts shared log →
      ∃ ghost', discipline.invariant (Function.update ghosts thread ghost') shared log ∧
        discipline.Keeps meaning thread post ghost' program) :
    discipline.Keeps meaning thread post ghost program := by
  cases program with
  | done value => exact returns value
  | act op next =>
      refine ⟨settled, ?_⟩
      intro ghosts before log answer after turn performed
      rcases learns ghosts before log turn with ⟨learned, holds, keeps⟩
      have turn' : discipline.Turn thread learned
          (Function.update ghosts thread learned) before
          log := by
        refine ⟨Function.update_self .., ?_, holds⟩
        intro other different
        rw [Function.update_of_ne different]
        exact turn.others other different
      rcases keeps.2 _ before log answer after turn' performed with
        ⟨ghost', holds', continues⟩
      rw [Function.update_idem] at holds'
      exact ⟨ghost', holds', continues⟩

/-- A program that keeps the invariant keeps it in particular when it is run alone. -/
theorem Keeps.run {exec : (op : Op) → σ → Answer op × σ}
    {post : α → discipline.Ghost thread → Prop} {ghost : discipline.Ghost thread}
    {program : Program Op Answer α} {shared : σ} {log : List (Thread × Event)}
    {ghosts : (thread : Thread) → discipline.Ghost thread}
    (keeps : discipline.Keeps
      (fun op before answer after => (answer, after) = exec op before)
      thread post ghost program)
    (turn : discipline.Turn thread ghost ghosts shared log) :
    ∃ ghost', post (program.run exec shared).1 ghost' ∧
      discipline.invariant (Function.update ghosts thread ghost')
        (program.run exec shared).2
        log := by
  induction program generalizing ghost ghosts shared with
  | done value =>
      refine ⟨ghost, keeps, ?_⟩
      rw [← turn.isGhost, Function.update_eq_self]
      exact turn.holds
  | act op next ih =>
      rcases keeps.2 ghosts shared log _ _ turn rfl with ⟨ghost', holds', continues⟩
      have turn' : discipline.Turn thread ghost' (Function.update ghosts thread ghost')
          (exec op shared).2 log := by
        refine ⟨Function.update_self .., ?_, holds'⟩
        intro other different
        rw [Function.update_of_ne different]
        exact turn.others other different
      rcases ih _ continues turn' with ⟨ghost'', ends, holds''⟩
      rw [Function.update_idem] at holds''
      exact ⟨ghost'', ends, holds''⟩

/-- A configuration in which the threads are where their ghost values say. -/
structure Justified (discipline : Discipline Thread Op Answer Event σ)
    (system : System Thread Op Answer Event σ) (config : Config Thread Op Answer Event σ)
    (ghosts : (thread : Thread) → discipline.Ghost thread) : Prop where
  holds : discipline.invariant ghosts config.shared config.log
  settled : ∀ thread, discipline.settled thread (ghosts thread)
  outside : ∀ thread, config.running thread = none →
    ghosts thread = discipline.idle thread
  inside : ∀ thread program, config.running thread = some program →
    discipline.Keeps system.meaning thread (discipline.Returns thread)
      (ghosts thread) program

section Settle

variable {system : System Thread Op Answer Event σ}
  {config : Config Thread Op Answer Event σ}
variable {ghosts : (thread : Thread) → discipline.Ghost thread}

/-- The other threads are where they were; only `thread` has to be looked at. -/
theorem Justified.update {ghost : discipline.Ghost thread} {shared : σ}
    {now : Option (Program Op Answer Event)} {log : List (Thread × Event)}
    (justified : discipline.Justified system config ghosts)
    (holds : discipline.invariant (Function.update ghosts thread ghost) shared log)
    (settled : discipline.settled thread ghost)
    (outside : now = none → ghost = discipline.idle thread)
    (inside : ∀ program, now = some program →
      discipline.Keeps system.meaning thread (discipline.Returns thread) ghost program) :
    discipline.Justified system
      { shared := shared, running :=
        Function.update config.running thread now, log := log }
      (Function.update ghosts thread ghost) := by
  refine ⟨holds, ?_, ?_, ?_⟩
  · intro other
    rcases eq_or_ne other thread with rfl | different
    · rwa [Function.update_self]
    · rw [Function.update_of_ne different]
      exact justified.settled other
  · intro other isOutside
    dsimp only at isOutside
    rcases eq_or_ne other thread with rfl | different
    · rw [Function.update_self] at isOutside ⊢
      exact outside isOutside
    · rw [Function.update_of_ne different] at isOutside ⊢
      exact justified.outside other isOutside
  · intro other program isInside
    dsimp only at isInside
    rcases eq_or_ne other thread with rfl | different
    · rw [Function.update_self] at isInside ⊢
      exact inside program isInside
    · rw [Function.update_of_ne different] at isInside ⊢
      exact justified.inside other program isInside

/-- Resuming a program that keeps the invariant leads to a justified
configuration again, whether the program has returned or not. -/
theorem Justified.settle (justified : discipline.Justified system config ghosts)
    (idleSettled : ∀ thread, discipline.settled thread (discipline.idle thread))
    {shared : σ} {program : Program Op Answer Event} {ghost : discipline.Ghost thread}
    (holds : discipline.invariant (Function.update ghosts thread ghost) shared config.log)
    (keeps : discipline.Keeps system.meaning thread
      (discipline.Returns thread) ghost program) :
    ∃ ghosts', discipline.Justified system
      (config.settle thread shared program) ghosts' := by
  cases program with
  | done event =>
      have turn : discipline.Turn thread ghost
          (Function.update ghosts thread ghost) shared
          config.log := by
        refine ⟨Function.update_self .., ?_, holds⟩
        intro other different
        rw [Function.update_of_ne different]
        exact justified.settled other
      have returned := keeps _ shared config.log turn
      rw [Function.update_idem] at returned
      refine ⟨_, justified.update returned (idleSettled thread) (fun _ => rfl) ?_⟩
      intro program isInside
      cases isInside
  | act op next =>
      refine ⟨_, justified.update holds keeps.1 ?_ ?_⟩
      · intro isOutside
        cases isOutside
      · intro program isInside
        cases isInside
        exact keeps

end Settle

/-- If every program that the threads may call keeps the invariant, then every
reachable configuration is justified. -/
theorem justified_of_reaches {system : System Thread Op Answer Event σ} {shared : σ}
    {config : Config Thread Op Answer Event σ}
    (start : discipline.invariant discipline.idle shared [])
    (idleSettled : ∀ thread, discipline.settled thread (discipline.idle thread))
    (keeps : ∀ thread program, system.calls thread program →
      discipline.Keeps system.meaning thread (discipline.Returns thread)
        (discipline.idle thread) program)
    (run : system.Reaches shared config) :
    ∃ ghosts, discipline.Justified system config ghosts := by
  induction run with
  | refl =>
      refine ⟨discipline.idle, start, idleSettled, fun _ _ => rfl, ?_⟩
      intro thread program isInside
      cases isInside
  | tail _ step ih =>
      rcases ih with ⟨ghosts, justified⟩
      cases step with
      | @start thread program outside offered =>
          have isIdle := justified.outside thread outside
          refine justified.settle idleSettled ?_ (keeps thread program offered)
          rw [← isIdle, Function.update_eq_self]
          exact justified.holds
      | @act thread op next answer after isInside performed =>
          have turn : discipline.Turn thread (ghosts thread) ghosts _ _ :=
            ⟨rfl, fun other _ => justified.settled other, justified.holds⟩
          rcases (justified.inside thread _ isInside).2
            ghosts _ _ answer after turn performed
            with ⟨ghost', holds', continues⟩
          exact justified.settle idleSettled holds' continues

end Discipline

end LuaJack.Atomic
