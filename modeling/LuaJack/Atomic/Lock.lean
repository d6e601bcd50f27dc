import LuaJack.Atomic.Ghost

/-!
# Locks

A lock guards a part of the shared state: while the lock is free that part is in
order, and while a thread holds the lock only that thread changes it.  This
module turns the description of a lock into a ghost discipline, with one proof
rule for acquiring it, one for an operation of the holder and one for releasing
it.
-/

namespace LuaJack.Atomic

universe u

variable {Thread Op Event α Phase : Type} {Answer : Op → Type} {σ : Type u}

/-- A lock that guards part of a state. `free` is what holds while nobody has the
lock, `held phase` what its holder knows. -/
structure Lock (σ : Type u) (Phase : Type) where
  locked : σ → Bool
  free : σ → Prop
  held : Phase → σ → Prop

namespace Lock

/-- The threads' ghost values are right: no thread holds the lock, or one does. -/
def Guards (lock : Lock σ Phase) (phases : Thread → Option Phase) (shared : σ) : Prop :=
  (lock.locked shared = false ∧ lock.free shared ∧ ∀ thread, phases thread = none) ∨
  ∃ holder phase, lock.locked shared = true ∧ phases holder = some phase ∧
    lock.held phase shared ∧ ∀ other, other ≠ holder → phases other = none

/-- The ghost discipline of a lock: a thread's ghost value is the phase it is in
while it holds the lock. -/
def discipline (lock : Lock σ Phase) (Thread Op : Type)
    (Answer : Op → Type) (Event : Type) :
    Discipline Thread Op Answer Event σ where
  Ghost := fun _ => Option Phase
  idle := fun _ => none
  settled := fun _ _ => True
  invariant := fun phases shared _ => lock.Guards phases shared

variable [DecidableEq Thread] {lock : Lock σ Phase} {meaning : Meaning Op Answer σ}
variable {thread : Thread} {post : α → Option Phase → Prop} {op : Op}
variable {next : Answer op → Program Op Answer α}

/-- At most one thread holds the lock. -/
theorem Guards.exclusive {phases : Thread → Option Phase}
    {shared : σ} {first second : Thread}
    {phase phase' : Phase} (guards : lock.Guards phases shared)
    (isFirst : phases first = some phase) (isSecond : phases second = some phase') :
    first = second := by
  rcases guards with ⟨_, _, none⟩ | ⟨holder, _, _, _, _, others⟩
  · rw [none first] at isFirst
    cases isFirst
  · have firstHolds : first = holder := by
      by_contra different
      rw [others first different] at isFirst
      cases isFirst
    have secondHolds : second = holder := by
      by_contra different
      rw [others second different] at isSecond
      cases isSecond
    rw [firstHolds, secondHolds]

/-- Only the holder is in a phase. -/
theorem Guards.update {phases : Thread → Option Phase} {phase : Phase} {shared : σ}
    (locked : lock.locked shared = true) (held : lock.held phase shared)
    (others : ∀ other, other ≠ thread → phases other = none) :
    lock.Guards (Function.update phases thread (some phase)) shared := by
  right
  refine ⟨thread, phase, locked, Function.update_self .., held, ?_⟩
  intro other different
  rw [Function.update_of_ne different]
  exact others other different

/-- What a thread that holds the lock finds when it is its turn. -/
theorem Guards.holder {phases : Thread → Option Phase} {phase : Phase} {shared : σ}
    (guards : lock.Guards phases shared) (isPhase : phases thread = some phase) :
    lock.locked shared = true ∧ lock.held phase shared ∧
      ∀ other, other ≠ thread → phases other = none := by
  have only : ∀ other, other ≠ thread → phases other = none := by
    intro other different
    cases isOther : phases other with
    | none => rfl
    | some phase' => exact absurd (guards.exclusive isOther isPhase) different
  rcases guards with ⟨_, _, none⟩ | ⟨holder, phase', locked, isHolder, held, others⟩
  · rw [none thread] at isPhase
    cases isPhase
  · have same : holder = thread := by
      by_contra different
      rw [only holder different] at isHolder
      cases isHolder
    subst same
    rw [isPhase, Option.some.injEq] at isHolder
    subst isHolder
    exact ⟨locked, held, only⟩

/-- A thread gets the lock. -/
theorem Guards.acquire {phases : Thread → Option Phase} {phase : Phase} {before after : σ}
    (guards : lock.Guards phases before) (free : lock.locked before = false)
    (locked : lock.locked after = true)
    (held : lock.free before → lock.held phase after) :
    lock.Guards (Function.update phases thread (some phase)) after := by
  rcases guards with ⟨_, order, none⟩ | ⟨_, _, taken, _⟩
  · exact Guards.update locked (held order) fun other _ => none other
  · rw [free] at taken
    cases taken

/-- The holder releases the lock. -/
theorem Guards.release {phases : Thread → Option Phase} {phase : Phase} {before after : σ}
    (guards : lock.Guards phases before) (isPhase : phases thread = some phase)
    (unlocked : lock.locked after = false) (order : lock.free after) :
    lock.Guards (Function.update phases thread none) after := by
  refine .inl ⟨unlocked, order, ?_⟩
  intro other
  rcases eq_or_ne other thread with rfl | different
  · exact Function.update_self ..
  · rw [Function.update_of_ne different]
    exact (guards.holder isPhase).2.2 other different

/-- A thread without the lock leaves everything in order. -/
theorem Guards.outside {phases : Thread → Option Phase} {before after : σ}
    (guards : lock.Guards phases before) (isOutside : phases thread = none)
    (same : lock.locked after = lock.locked before)
    (order : lock.free before → lock.free after)
    (held : ∀ phase, lock.held phase before → lock.held phase after) :
    lock.Guards (Function.update phases thread none) after := by
  have unchanged := Function.update_eq_self thread phases
  rw [isOutside] at unchanged
  rw [unchanged]
  rcases guards with
    ⟨free, isFree, none⟩ | ⟨holder, phase, taken, isHolder, isHeld, others⟩
  · exact .inl ⟨same.trans free, order isFree, none⟩
  · exact .inr ⟨holder, phase, same.trans taken, isHolder, held phase isHeld, others⟩

/-- Acquiring the lock: the operation is only possible while the lock is free. -/
theorem keeps_acquire (phase : Phase)
    (acquires : ∀ before answer after, meaning op before answer after →
      lock.locked before = false ∧ lock.locked after = true ∧
        (lock.free before → lock.held phase after))
    (continues : ∀ answer, (lock.discipline Thread Op Answer Event).Keeps
      meaning thread post
      (some phase) (next answer)) :
    (lock.discipline Thread Op Answer Event).Keeps meaning thread post none
      (.act op next) := by
  refine ⟨trivial, ?_⟩
  intro phases before log answer after turn performed
  rcases acquires before answer after performed with ⟨free, locked, held⟩
  exact ⟨some phase, Guards.acquire turn.holds free locked held, continues answer⟩

/-- An operation of the holder of the lock. -/
theorem keeps_inside {phase : Phase}
    (inside : ∀ before answer after, lock.held phase before →
      meaning op before answer after →
      lock.locked after = lock.locked before ∧
        ∃ phase', lock.held phase' after ∧
          (lock.discipline Thread Op Answer Event).Keeps meaning thread post (some phase')
            (next answer)) :
    (lock.discipline Thread Op Answer Event).Keeps meaning thread post (some phase)
      (.act op next) := by
  refine ⟨trivial, ?_⟩
  intro phases before log answer after turn performed
  rcases Guards.holder turn.holds turn.isGhost with ⟨locked, held, others⟩
  rcases inside before answer after held performed with ⟨same, phase', held', continues⟩
  exact ⟨some phase', Guards.update (same.trans locked) held' others, continues⟩

/-- An operation that needs no lock because it changes nothing. -/
theorem keeps_observe {phase : Option Phase}
    (observes : ∀ before answer after, meaning op before answer after → after = before)
    (continues : ∀ answer, (lock.discipline Thread Op Answer Event).Keeps
      meaning thread post
      phase (next answer)) :
    (lock.discipline Thread Op Answer Event).Keeps meaning thread post phase
      (.act op next) := by
  refine ⟨trivial, ?_⟩
  intro phases before log answer after turn performed
  rcases observes before answer after performed with rfl
  refine ⟨phase, ?_, continues answer⟩
  have same := Function.update_eq_self thread phases
  rw [turn.isGhost] at same
  rw [same]
  exact turn.holds

/-- Releasing the lock: the holder has put everything in order. -/
theorem keeps_release {phase : Phase}
    (releases : ∀ before answer after, lock.held phase before →
      meaning op before answer after →
      lock.locked after = false ∧ lock.free after)
    (continues : ∀ answer,
      (lock.discipline Thread Op Answer Event).Keeps meaning thread post none
        (next answer)) :
    (lock.discipline Thread Op Answer Event).Keeps meaning thread post (some phase)
      (.act op next) := by
  refine ⟨trivial, ?_⟩
  intro phases before log answer after turn performed
  rcases Guards.holder turn.holds turn.isGhost with ⟨_, held, _⟩
  rcases releases before answer after held performed with ⟨free, order⟩
  exact ⟨none, Guards.release turn.holds turn.isGhost free order, continues answer⟩

/-- A call that does not hold the lock may return. -/
theorem returns_none (event : Event) :
    (lock.discipline Thread Op Answer Event).Returns thread event none := by
  intro phases shared log turn
  have same := Function.update_eq_self thread phases
  rw [turn.isGhost] at same
  have guards := turn.holds
  rw [← same] at guards
  exact guards

/-- If every call releases the lock again, the guarded state is in order
whenever no thread is inside a call. -/
theorem free_of_reaches {system : System Thread Op Answer Event σ} {shared : σ}
    {config : Config Thread Op Answer Event σ}
    (unlocked : lock.locked shared = false) (start : lock.free shared)
    (keeps : ∀ thread program, system.calls thread program →
      (lock.discipline Thread Op Answer Event).Keeps system.meaning thread
        ((lock.discipline Thread Op Answer Event).Returns thread) none program)
    (run : system.Reaches shared config) (quiet : config.Quiet) :
    lock.locked config.shared = false ∧ lock.free config.shared := by
  have initially : (lock.discipline Thread Op Answer Event).invariant
      (lock.discipline Thread Op Answer Event).idle shared [] :=
    .inl ⟨unlocked, start, fun _ => rfl⟩
  rcases Discipline.justified_of_reaches initially (fun _ => trivial) keeps run with
    ⟨phases, justified⟩
  rcases justified.holds with ⟨free, order, _⟩ | ⟨holder, phase, _, isHolder, _⟩
  · exact ⟨free, order⟩
  · rw [justified.outside holder (quiet holder)] at isHolder
    cases isHolder

end Lock

end LuaJack.Atomic
