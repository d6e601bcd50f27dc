import LuaJack.Atomic.Lock
import LuaJack.Callback.Nested
import LuaJack.Object.Close
import Mathlib.Algebra.Group.Nat.Defs

/-!
# Events are handled in order

Whatever the threads of JACK and the callbacks do, the events leave the queue in the
order in which they came, each is handed to a Lua function at most once, and a flush
removes no more events than there were when it counted them.  The client of an event
that is handed on has been found to be valid, and still is unless a finalizer has closed
it while the arguments were pushed.

The counter is read without the lock.  It may then be one behind the queue, never ahead of
it, since only the main thread removes events.
-/

namespace LuaJack.Nested

open Atomic

/-! ## The lock -/

/-- The counter is right, or is about to be incremented by an insertion. -/
inductive Counted (queue : Evt.Queue Evt) : Prop where
  | level (isLength : queue.counter = BitVec.ofNat 32 queue.head.length)
  | behind (isLength : queue.counter + 1 = BitVec.ofNat 32 queue.head.length)
      (nonempty : queue.head ≠ [])

/-- The main thread never counts too many events, even if the counter has overflowed. -/
theorem Counted.le {queue : Evt.Queue Evt} (counted : Counted queue) :
    queue.counter.toNat ≤ queue.head.length := by
  cases counted with
  | level isLength =>
      rw [isLength, BitVec.toNat_ofNat]
      exact Nat.mod_le _ _
  | behind isLength nonempty =>
      have positive := List.length_pos_iff.mpr nonempty
      have sum := congrArg BitVec.toNat isLength
      have one : (1 : BitVec 32).toNat = 1 := rfl
      rw [BitVec.toNat_add, one, BitVec.toNat_ofNat] at sum
      have bound := queue.counter.isLt
      have le := Nat.mod_le queue.head.length (2 ^ 32)
      omega

/-- How far the holder of the lock is. -/
inductive Phase where
  | level
  | listed
  | holding (evt : Evt)
  | unlisted

/-- What the holder of the lock knows about the queue. -/
def Phase.Holds (queue : Evt.Queue Evt) : Phase → Prop
  | level => queue.counter = BitVec.ofNat 32 queue.head.length
  | listed => queue.counter + 1 = BitVec.ofNat 32 queue.head.length ∧ queue.head ≠ []
  | holding evt =>
      queue.counter = BitVec.ofNat 32 queue.head.length ∧ queue.head.head? = some evt
  | unlisted => queue.counter = BitVec.ofNat 32 (queue.head.length + 1)

/-- The lock of `evt.c`. -/
def queueLock : Lock Shared Phase where
  locked := fun shared => shared.queue.locked
  free := fun shared => Phase.level.Holds shared.queue
  held := fun phase shared => phase.Holds shared.queue

/-! ## What holds in all runs -/

/-- What the script may do does not close the client of an event whose arguments are being
pushed. -/
def Careful (permitted : Permitted) : Prop :=
  ∀ key world change, permitted key world change →
    world.Valid .client key → (change world).Valid .client key

/-- The events have been handed on once each, and only to functions of valid clients. -/
structure Own.Orderly (permitted : Permitted) (own : Own) : Prop where
  isEvt : ∀ handing ∈ own.handed,
    own.removed[handing.pending.serial]? = some handing.pending.evt
  isValid : Careful permitted → ∀ handing ∈ own.handed,
    handing.world.Valid .client handing.pending.evt.clientKey
  once : own.handed.Pairwise fun first second => first.pending.serial ≠
    second.pending.serial
  limited : ∀ round ∈ own.rounds, round.removals ≤ round.counted ∧
    round.counted ≤ round.queued

/-- How far a thread is with the queue, and what the main thread knows. -/
structure Ghost where
  phase : Option Phase
  known : Option Own

variable {ι α : Type}

/-- What relates the threads and the shared state. -/
structure Sound (permitted : Permitted) (ghosts : Evt.Thread ι → Ghost)
    (shared : Shared) : Prop where
  guards : queueLock.Guards (fun thread => (ghosts thread).phase) shared
  counted : (ghosts .main).phase = none → Counted shared.queue
  listed : shared.inserted = shared.own.removed ++ shared.queue.head
  known : ∀ own, (ghosts .main).known = some own → shared.own = own
  orderly : shared.own.Orderly permitted

/-- The ghost discipline of the threads. -/
def discipline (permitted : Permitted) (ι : Type) :
    Discipline (Evt.Thread ι) Access Access.Answer Unit Shared where
  Ghost := fun _ => Ghost
  idle := fun _ => ⟨none, none⟩
  settled := fun _ _ => True
  invariant := fun ghosts shared _ => Sound permitted ghosts shared

/-- The threads, where the script does to these clients only what it may do. -/
abbrev sparing (permitted : Permitted) (ι : Type) :
    System (Evt.Thread ι) Access Access.Answer Unit Shared :=
  (dispatcher ι).restrict (Spares permitted)

section Rules

variable [DecidableEq ι] {permitted : Permitted}
  {thread : Evt.Thread ι} {post : α → Ghost → Prop}
variable {ghosts : Evt.Thread ι → Ghost} {before after : Shared} {ghost : Ghost}

/-- A thread keeps the discipline. -/
abbrev Keeps (permitted : Permitted) (thread : Evt.Thread ι) (post : α → Ghost → Prop)
    (ghost : Ghost) (code : Code α) : Prop :=
  (discipline permitted ι).Keeps (sparing permitted ι).meaning thread post ghost code

theorem phases_update : (fun other => (Function.update ghosts thread ghost other).phase) =
    Function.update (fun other => (ghosts other).phase) thread ghost.phase := by
  funext other
  exact Function.apply_update (fun _ ghost => ghost.phase) ghosts thread ghost other

/-- A thread performs an access. -/
theorem Sound.step (sound : Sound permitted ghosts before)
    (guards : queueLock.Guards
      (Function.update (fun other => (ghosts other).phase) thread ghost.phase) after)
    (counted : Function.update (fun other => (ghosts other).phase)
      thread ghost.phase .main = none →
      Counted after.queue)
    (listed : after.inserted = after.own.removed ++ after.queue.head)
    (same : thread ≠ .main → after.own = before.own)
    (known : thread = .main → ∀ own, ghost.known = some own → after.own = own)
    (orderly : after.own.Orderly permitted) :
    Sound permitted (Function.update ghosts thread ghost) after where
  guards := by
    rw [phases_update]
    exact guards
  counted := by
    intro isNone
    apply counted
    rw [← phases_update]
    exact isNone
  listed := listed
  known := by
    intro own isKnown
    by_cases isMain : thread = .main
    · subst isMain
      rw [Function.update_self] at isKnown
      exact known rfl own isKnown
    · rw [Function.update_of_ne (Ne.symm isMain)] at isKnown
      exact (same isMain).trans (sound.known own isKnown)
  orderly := orderly

/-- A thread changes at most what the main thread owns. -/
theorem Sound.stay {phase : Option Phase} {known known' : Option Own} {own : Own}
    (sound : Sound permitted ghosts before) (isGhost : ghosts thread = ⟨phase, known⟩)
    (removed : own.removed = before.own.removed)
    (same : thread ≠ .main → own = before.own)
    (learned : thread = .main → ∀ other, known' = some other → own = other)
    (orderly : own.Orderly permitted) :
    Sound permitted (Function.update ghosts thread ⟨phase, known'⟩)
      { before with own } := by
  have phases := Function.update_eq_self thread fun other => (ghosts other).phase
  rw [isGhost] at phases
  apply sound.step
  · rw [phases]
    exact sound.guards
  · rw [phases]
    exact sound.counted
  · show before.inserted = own.removed ++ before.queue.head
    rw [removed]
    exact sound.listed
  · exact same
  · exact learned
  · exact orderly

/-- The main thread holds the lock. -/
theorem isHolder (phases : Evt.Thread ι → Option Phase) (phase : Phase) :
    Function.update phases .main (some phase) .main ≠ none := by
  rw [Function.update_self]
  exact Option.some_ne_none phase

theorem keeps_step {op : Access} {rest : op.Answer → Code α}
    (step : ∀ ghosts before answer after, Sound permitted ghosts before →
      ghosts thread = ghost →
      Spares permitted op before → Access.meaning op before answer after →
      ∃ ghost', Sound permitted (Function.update ghosts thread ghost') after ∧
        Keeps permitted thread post ghost' (rest answer)) :
    Keeps permitted thread post ghost (access op >>= rest) := by
  refine ⟨trivial, ?_⟩
  intro ghosts before log answer after turn performed
  exact step ghosts before answer after turn.holds turn.isGhost performed.1 performed.2

omit [DecidableEq ι] in
/-- The main thread still knows what it knew. -/
theorem Sound.remembers {phase : Option Phase} {known : Option Own}
    (sound : Sound permitted ghosts before) (isGhost : ghosts thread = ⟨phase, known⟩)
    (isMain : thread = .main) (own : Own) (isKnown : known = some own) :
    before.own = own := by
  subst isMain
  apply sound.known own
  rw [isGhost]
  exact isKnown

/-! ## Accesses to the queue -/

section Queue

variable {phase : Phase} {known : Option Own}

theorem keeps_lock {rest : Unit → Code α}
    (continues : Keeps permitted thread post ⟨some .level, known⟩ (rest ())) :
    Keeps permitted thread post ⟨none, known⟩ (access (.queue .lock) >>= rest) := by
  apply keeps_step
  rintro ghosts before _ _ sound isGhost _ ⟨isFree, rfl, rfl⟩
  refine ⟨⟨some .level, known⟩, ?_, continues⟩
  rcases sound.guards with ⟨_, level, none⟩ | ⟨_, _, locked, _⟩
  · apply sound.step
    · exact Lock.Guards.update rfl level fun other _ => none other
    · exact fun _ => .level level
    · exact (List.append_nil _).trans sound.listed
    · exact fun _ => rfl
    · exact sound.remembers isGhost
    · exact sound.orderly
  · cases isFree.symm.trans locked

theorem keeps_unlock {rest : Unit → Code α}
    (continues : Keeps permitted thread post ⟨none, known⟩ (rest ())) :
    Keeps permitted thread post ⟨some .level, known⟩
      (access (.queue .unlock) >>= rest) := by
  apply keeps_step
  rintro ghosts before _ _ sound isGhost _ ⟨_, rfl, rfl⟩
  refine ⟨⟨none, known⟩, ?_, continues⟩
  rcases sound.guards.holder (congrArg Ghost.phase isGhost) with ⟨_, level, others⟩
  apply sound.step
  · refine .inl ⟨rfl, level, ?_⟩
    intro other
    by_cases isThread : other = thread
    · rw [isThread, Function.update_self]
    · rw [Function.update_of_ne isThread]
      exact others other isThread
  · exact fun _ => .level level
  · exact (List.append_nil _).trans sound.listed
  · exact fun _ => rfl
  · exact sound.remembers isGhost
  · exact sound.orderly

/-- An access by the holder of the lock that removes nothing. -/
theorem keeps_queue {op : Evt.QueueOp Evt} {rest : op.Answer → Code α}
    (same : ∀ queue, (op.exec queue).2.locked = queue.locked)
    (appends : ∀ queue, (op.exec queue).2.head = queue.head ++ inserts op)
    (step : ∀ queue, phase.Holds queue →
      ∃ phase' : Phase, phase'.Holds (op.exec queue).2 ∧
      (thread ≠ .main → Counted (op.exec queue).2) ∧
      Keeps permitted thread post ⟨some phase', known⟩ (rest (op.exec queue).1)) :
    Keeps permitted thread post ⟨some phase, known⟩ (access (.queue op) >>= rest) := by
  apply keeps_step
  rintro ghosts before _ _ sound isGhost _ ⟨_, rfl, rfl⟩
  rcases sound.guards.holder (congrArg Ghost.phase isGhost) with ⟨locked, held, others⟩
  rcases step before.queue held with ⟨phase', held', counted, continues⟩
  refine ⟨⟨some phase', known⟩, ?_, continues⟩
  apply sound.step
  · exact Lock.Guards.update ((same before.queue).trans locked) held' others
  · intro isNone
    by_cases isMain : thread = .main
    · subst isMain
      exact absurd isNone (isHolder _ _)
    · exact counted isMain
  · show before.inserted ++ inserts op =
        before.own.removed ++ (op.exec before.queue).2.head
    rw [appends, sound.listed, List.append_assoc]
  · exact fun _ => rfl
  · exact sound.remembers isGhost
  · exact sound.orderly

/-- An insertion is ahead of the counter in between. -/
theorem keeps_insertion {evt : Evt} {rest : Unit → Code α}
    (continues : Keeps permitted thread post ⟨none, known⟩ (rest ())) :
    Keeps permitted thread post ⟨none, known⟩ (insertion evt >>= rest) := by
  have insertion : insertion evt >>= rest = (do
      access (.queue .lock)
      access (.queue (.insertTail evt))
      access (.queue .increment)
      access (.queue .pipeWrite)
      access (.queue .unlock)
      rest ()) := rfl
  rw [insertion]
  apply keeps_lock
  apply keeps_queue (fun _ => rfl) fun _ => rfl
  intro queue level
  have listed : Phase.listed.Holds (Evt.QueueOp.exec (.insertTail evt) queue).2 := by
    refine ⟨?_, List.append_ne_nil_of_right_ne_nil _ (List.cons_ne_nil _ _)⟩
    show queue.counter + 1 = BitVec.ofNat 32 (queue.head ++ [evt]).length
    rw [List.length_append, level]
    exact (BitVec.ofNat_add ..).symm
  refine ⟨.listed, listed, fun _ => .behind listed.1 listed.2, ?_⟩
  apply keeps_queue (fun _ => rfl) fun queue => (List.append_nil _).symm
  intro queue listed
  refine ⟨.level, listed.1, fun _ => .level listed.1, ?_⟩
  apply keeps_queue (fun _ => rfl) fun queue => (List.append_nil _).symm
  intro queue level
  refine ⟨.level, level, fun _ => .level level, ?_⟩
  exact keeps_unlock continues

end Queue

section Main

variable {post : α → Ghost → Prop} {own : Own}

/-- The main thread removes the event that it has looked at. -/
theorem keeps_removeHead {evt : Evt} {round : Nat} {rest : Unit → Code α}
    (orderly : (own.remove round evt).Orderly permitted)
    (continues : Keeps permitted (.main : Evt.Thread ι) post
        ⟨some .unlisted, some (own.remove round evt)⟩
      (rest ())) :
    Keeps permitted (.main : Evt.Thread ι) post ⟨some (.holding evt), some own⟩
      (access (.removeHead round) >>= rest) := by
  apply keeps_step
  rintro ghosts before _ _ sound isGhost _ rfl
  refine ⟨⟨some .unlisted, some (own.remove round evt)⟩, ?_, continues⟩
  rcases sound.guards.holder (congrArg Ghost.phase isGhost) with
    ⟨locked, ⟨level, isHead⟩, others⟩
  have isOwn := sound.remembers isGhost rfl own rfl
  have split : before.queue.head = evt :: before.queue.head.tail :=
    List.eq_cons_of_mem_head? isHead
  have unlisted : Phase.unlisted.Holds (Evt.QueueOp.exec .removeHead before.queue).2 := by
    show before.queue.counter = BitVec.ofNat 32 (before.queue.head.tail.length + 1)
    rw [level, split]
    rfl
  have guards : queueLock.Guards
      (Function.update (fun other => (ghosts other).phase) .main (some .unlisted))
      { before.perform .removeHead with own := own.remove round evt } :=
    Lock.Guards.update locked unlisted others
  rw [isHead, isOwn]
  apply sound.step
  · exact guards
  · exact fun isNone => absurd isNone (isHolder _ _)
  · show before.inserted ++ [] = own.removed ++ [evt] ++ before.queue.head.tail
    rw [List.append_nil, sound.listed, isOwn, List.append_assoc]
    exact congrArg _ split
  · exact fun isJack => absurd rfl isJack
  · intro _ other isKnown
    exact Option.some.inj isKnown
  · exact orderly

/-- A removal in a round takes the first event, if there is one. -/
theorem keeps_removal {round : Nat} {rest : Option Evt → Code α}
    (orderly : ∀ evt, (own.remove round evt).Orderly permitted)
    (empty : Keeps permitted (.main : Evt.Thread ι) post ⟨none, some own⟩ (rest none))
    (removed : ∀ evt, Keeps permitted (.main : Evt.Thread ι) post
        ⟨none, some (own.remove round evt)⟩
      (rest (some evt))) :
    Keeps permitted (.main : Evt.Thread ι) post
      ⟨none, some own⟩ (removal round >>= rest) := by
  have removal : removal round >>= rest = (do
      access (.queue .lock)
      match ← access (.queue .first) with
      | none =>
          access (.queue .unlock)
          rest none
      | some evt =>
          access (.removeHead round)
          access (.queue .pipeRead)
          access (.queue .decrement)
          access (.queue .unlock)
          rest (some evt)) := by
    apply congrArg (Program.act _)
    funext _
    apply congrArg (Program.act _)
    funext evt
    cases evt <;> rfl
  rw [removal]
  apply keeps_lock
  apply keeps_queue (fun _ => rfl) fun queue => (List.append_nil _).symm
  intro queue level
  cases isHead : queue.head.head? with
  | none =>
      refine ⟨.level, level, fun isJack => absurd rfl isJack, ?_⟩
      have isNone : (Evt.QueueOp.exec .first queue).1 = none := isHead
      simp only [isNone]
      exact keeps_unlock empty
  | some evt =>
      refine ⟨.holding evt, ⟨level, isHead⟩, fun isJack => absurd rfl isJack, ?_⟩
      have isSome : (Evt.QueueOp.exec .first queue).1 = some evt := isHead
      simp only [isSome]
      apply keeps_removeHead (orderly evt)
      apply keeps_queue (fun _ => rfl) fun queue => (List.append_nil _).symm
      intro queue unlisted
      refine ⟨.unlisted, unlisted, fun isJack => absurd rfl isJack, ?_⟩
      apply keeps_queue (fun _ => rfl) fun queue => (List.append_nil _).symm
      intro queue unlisted
      refine ⟨.level, ?_, fun isJack => absurd rfl isJack, keeps_unlock (removed evt)⟩
      show queue.counter - 1 = BitVec.ofNat 32 queue.head.length
      rw [unlisted, BitVec.ofNat_add]
      exact BitVec.add_sub_cancel _ _

/-- The main thread performs an access that does not concern the queue. -/
theorem keeps_main {op : Access} {rest : op.Answer → Code α}
    (step : ∀ before answer after, before.own = own → Counted before.queue →
      Spares permitted op before → Access.meaning op before answer after →
      ∃ own', after = { before with own := own' } ∧ own'.removed = own.removed ∧
        own'.Orderly permitted ∧ Keeps permitted (.main : Evt.Thread ι) post
          ⟨none, some own'⟩ (rest answer)) :
    Keeps permitted (.main : Evt.Thread ι) post
      ⟨none, some own⟩ (access op >>= rest) := by
  apply keeps_step
  intro ghosts before answer after sound isGhost spared performed
  have isOwn := sound.remembers isGhost rfl own rfl
  have counted := sound.counted (congrArg Ghost.phase isGhost)
  rcases step before answer after isOwn counted spared performed with
    ⟨own', rfl, sameRemoved, orderly, continues⟩
  refine ⟨⟨none, some own'⟩, ?_, continues⟩
  apply sound.stay isGhost
  · rw [isOwn]
    exact sameRemoved
  · exact fun isJack => absurd rfl isJack
  · intro _ other isKnown
    exact Option.some.inj isKnown
  · exact orderly

/-- When it starts to run, the main thread finds an orderly state. -/
theorem keeps_learn {code : Code α} (returns : ∀ value, post value ⟨none, none⟩)
    (keeps : ∀ own, own.Orderly permitted →
        Keeps permitted (.main : Evt.Thread ι) post ⟨none, some own⟩ code) :
    Keeps permitted (.main : Evt.Thread ι) post ⟨none, none⟩ code := by
  apply Discipline.Keeps.learn trivial returns
  intro ghosts before log turn
  have sound : Sound permitted ghosts before := turn.holds
  have isGhost : ghosts .main = ⟨none, none⟩ := turn.isGhost
  refine ⟨⟨none, some before.own⟩, ?_, keeps before.own sound.orderly⟩
  show Sound permitted (Function.update ghosts .main ⟨none, some before.own⟩) before
  apply sound.stay isGhost rfl fun _ => rfl
  · intro _ other isKnown
    exact Option.some.inj isKnown
  · exact sound.orderly

end Main

/-! ## The code of the main thread -/

/-- What a part of the run of the main thread leaves as it was: the rounds below an
index, and the clients of the events whose arguments are being pushed. The events that
it hands on have been removed later than some others. -/
structure Since (permitted : Permitted) (pushing : List Pending) (base floor : Nat)
    (before after : Own) : Prop where
  inside : base ≤ after.rounds.length
  same : ∀ index < base, after.rounds[index]? = before.rounds[index]?
  removed : before.removed <+: after.removed
  handed : ∃ fresh, after.handed = before.handed ++ fresh ∧
    ∀ handing ∈ fresh, floor ≤ handing.pending.serial
  spared : Careful permitted → ∀ pending ∈ pushing,
    before.world.Valid .client pending.evt.clientKey →
      after.world.Valid .client pending.evt.clientKey

namespace Since

variable {pushing : List Pending} {base floor : Nat} {first second third own : Own}

/-- Only the world changes. -/
theorem of_world (inside : base ≤ own.rounds.length) {world : World}
    (spared : Careful permitted → ∀ pending ∈ pushing,
      own.world.Valid .client pending.evt.clientKey →
        world.Valid .client pending.evt.clientKey) :
    Since permitted pushing base floor own { own with world } where
  inside := inside
  same := fun _ _ => rfl
  removed := List.prefix_refl _
  handed := ⟨[], (List.append_nil _).symm, List.forall_mem_nil _⟩
  spared := spared

theorem refl (inside : base ≤ own.rounds.length) :
    Since permitted pushing base floor own own :=
  of_world inside fun _ _ _ => id

theorem trans (one : Since permitted pushing base floor first second)
    (two : Since permitted pushing base floor second third) :
    Since permitted pushing base floor first third where
  inside := two.inside
  same := fun index below => (two.same index below).trans (one.same index below)
  removed := one.removed.trans two.removed
  handed := by
    rcases one.handed with ⟨fresh, isSecond, later⟩
    rcases two.handed with ⟨more, isThird, alsoLater⟩
    refine ⟨fresh ++ more, ?_, List.forall_mem_append.mpr ⟨later, alsoLater⟩⟩
    rw [isThird, isSecond, List.append_assoc]
  spared := fun careful pending member valid =>
    two.spared careful pending member (one.spared careful pending member valid)

theorem mono {fewer : List Pending} {below lower : Nat}
    (since : Since permitted pushing base floor first second) (subset : fewer ⊆ pushing)
    (le : below ≤ base) (lower_le : lower ≤ floor) :
    Since permitted fewer below lower first second where
  inside := Nat.le_trans le since.inside
  same := fun index isBelow => since.same index (Nat.lt_of_lt_of_le isBelow le)
  removed := since.removed
  handed := by
    rcases since.handed with ⟨fresh, isSecond, later⟩
    exact ⟨fresh, isSecond, fun handing member =>
      Nat.le_trans lower_le (later handing member)⟩
  spared := fun careful pending member => since.spared careful pending (subset member)

theorem start (inside : base ≤ own.rounds.length) (queued counted : Nat) :
    Since permitted pushing base floor own (own.start queued counted) where
  inside := by
    rw [Own.start, List.length_append]
    exact Nat.le_add_right_of_le inside
  same := fun index below => List.getElem?_append_left (Nat.lt_of_lt_of_le below inside)
  removed := List.prefix_refl _
  handed := ⟨[], (List.append_nil _).symm, List.forall_mem_nil _⟩
  spared := fun _ _ _ => id

theorem remove (inside : base ≤ own.rounds.length)
    {round : Nat} (le : base ≤ round) (evt : Evt) :
    Since permitted pushing base floor own (own.remove round evt) where
  inside := by
    rw [Own.remove, List.length_modify]
    exact inside
  same := fun index below =>
    List.getElem?_modify_ne _ _ (Nat.ne_of_gt (Nat.lt_of_lt_of_le below le))
  removed := List.prefix_append _ _
  handed := ⟨[], (List.append_nil _).symm, List.forall_mem_nil _⟩
  spared := fun _ _ _ => id

theorem hand (inside : base ≤ own.rounds.length) {pending : Pending}
    (later : floor ≤ pending.serial) :
    Since permitted pushing base floor own (own.hand pending) where
  inside := inside
  same := fun _ _ => rfl
  removed := List.prefix_refl _
  handed := ⟨_, rfl, List.forall_mem_singleton.mpr later⟩
  spared := fun _ _ _ => id

end Since

namespace Own.Orderly

variable {own : Own} {pending : Pending} {evt : Evt}

/-- A round starts that has not counted too many events. -/
theorem start (orderly : own.Orderly permitted)
    {queued counted : Nat} (le : counted ≤ queued) :
    (own.start queued counted).Orderly permitted where
  isEvt := orderly.isEvt
  isValid := orderly.isValid
  once := orderly.once
  limited := by
    intro round member
    rcases List.mem_append.mp member with old | isNew
    · exact orderly.limited round old
    · rw [List.mem_singleton.mp isNew]
      exact ⟨Nat.zero_le counted, le⟩

/-- A round that has not removed all the events that it has counted removes one more. -/
theorem remove (orderly : own.Orderly permitted) {round : Nat} {entry : Round}
    (isEntry : own.rounds[round]? = some entry) (less : entry.removals < entry.counted) :
    (own.remove round evt).Orderly permitted where
  isEvt := by
    intro handing member
    have isEvt := orderly.isEvt handing member
    show (own.removed ++ [evt])[handing.pending.serial]? = _
    rw [List.getElem?_append_left (List.getElem?_eq_some_iff.mp isEvt).1]
    exact isEvt
  isValid := orderly.isValid
  once := orderly.once
  limited := by
    intro other member
    rcases List.mem_iff_getElem?.mp member with ⟨index, isOther⟩
    by_cases isRound : round = index
    · subst isRound
      rw [Own.remove, List.getElem?_modify_eq, isEntry] at isOther
      cases isOther
      exact ⟨less, (orderly.limited entry (List.mem_of_getElem? isEntry)).2⟩
    · rw [Own.remove, List.getElem?_modify_ne _ _ isRound] at isOther
      exact orderly.limited other (List.mem_of_getElem? isOther)

end Own.Orderly

/-- The event has been removed, and has not been handed on. -/
structure Latest (pending : Pending) (own : Own) : Prop where
  isEvt : own.removed[pending.serial]? = some pending.evt
  isNew : ∀ handing ∈ own.handed, handing.pending.serial ≠ pending.serial

/-- An event that waits meanwhile is not handed on. -/
theorem Latest.since {pending : Pending} {pushing : List Pending}
    {base : Nat} {before after : Own} (latest : Latest pending before)
    (since : Since permitted pushing base before.removed.length before after) :
    Latest pending after where
  isEvt := by
    rcases List.getElem?_eq_some_iff.mp latest.isEvt with ⟨inside, isEvt⟩
    rw [← isEvt]
    exact List.prefix_iff_getElem?.mp since.removed pending.serial inside
  isNew := by
    have inside := (List.getElem?_eq_some_iff.mp latest.isEvt).1
    rcases since.handed with ⟨fresh, isAfter, later⟩
    intro handing member
    rw [isAfter] at member
    rcases List.mem_append.mp member with old | isFresh
    · exact latest.isNew handing old
    · exact Nat.ne_of_gt (Nat.lt_of_lt_of_le inside (later handing isFresh))

/-- What the main thread knows about an event in each stage. -/
def Stage.Holds (permitted : Permitted) (pending : Pending) (own : Own) : Stage → Prop
  | removed => Latest pending own
  | found => Latest pending own ∧
      (Careful permitted → own.world.Valid .client pending.evt.clientKey)
  | handed => True

/-- An event that has just been removed. -/
theorem Own.Orderly.latest {own : Own} (orderly : own.Orderly permitted)
    (round : Nat) (evt : Evt) :
    Latest ⟨own.removed.length, evt⟩ (own.remove round evt) where
  isEvt := List.getElem?_concat_length
  isNew := fun handing member =>
    Nat.ne_of_lt (List.getElem?_eq_some_iff.mp (orderly.isEvt handing member)).1

/-- An event whose client is valid is handed to a function. -/
theorem Own.Orderly.hand {own : Own} {pending : Pending} (orderly : own.Orderly permitted)
    (found : Stage.found.Holds permitted pending own) :
    (own.hand pending).Orderly permitted where
  isEvt := by
    intro handing member
    rcases List.mem_append.mp member with old | isNew
    · exact orderly.isEvt handing old
    · rw [List.mem_singleton.mp isNew]
      exact found.1.isEvt
  isValid := by
    intro careful handing member
    rcases List.mem_append.mp member with old | isNew
    · exact orderly.isValid careful handing old
    · rw [List.mem_singleton.mp isNew]
      exact found.2 careful
  once := by
    apply List.pairwise_append.mpr
    refine ⟨orderly.once, List.pairwise_singleton _ _, ?_⟩
    intro handing member other isNew
    rw [List.mem_singleton.mp isNew]
    exact found.1.isNew handing member
  limited := orderly.limited

/-- Where the main thread is in a flush. -/
structure Looping (permitted : Permitted) (base floor round budget : Nat)
    (current : Option (Pending × Stage)) (own : Own) : Prop where
  isLater : base ≤ round
  budget : ∃ entry, own.rounds[round]? = some entry ∧
    entry.removals + budget ≤ entry.counted
  stage : ∀ pending stage, current = some (pending, stage) →
    floor ≤ pending.serial ∧ stage.Holds permitted pending own

/-- Where the main thread is in a flush. -/
def Progress.Holds (permitted : Permitted) (base floor round : Nat) (own : Own) :
    Progress → Prop
  | started => True
  | looping budget current => Looping permitted base floor round budget current own

/-- What a task leaves. -/
def Leaves (permitted : Permitted) (pushing : List Pending)
    (base floor : Nat) (before : Own) (ghost : Ghost) : Prop :=
  ∃ own, ghost = ⟨none, some own⟩ ∧ own.Orderly permitted ∧
    Since permitted pushing base floor before own

/-- A task keeps the discipline, and leaves what it should as it was. -/
def KeepsTask (permitted : Permitted) (ι : Type) [DecidableEq ι] :
    (task : Task) → Code task.Result → Prop
  | .script pushing, code => ∀ base floor own, own.Orderly permitted →
      base ≤ own.rounds.length → floor ≤ own.removed.length →
      Keeps permitted (.main : Evt.Thread ι)
        (fun _ => Leaves permitted pushing base floor own)
        ⟨none, some own⟩ code
  | .flush pushing round flush, code => ∀ base floor own progress, own.Orderly permitted →
      base ≤ own.rounds.length → floor ≤ own.removed.length →
        FlushFollows progress flush →
      progress.Holds permitted base floor round own →
      Keeps permitted (.main : Evt.Thread ι)
        (fun _ => Leaves permitted pushing base floor own)
        ⟨none, some own⟩ code

section Tasks

variable {pushing inner : List Pending} {base floor round budget : Nat} {own later : Own}
variable {current : Option (Pending × Stage)}

/-- A round has been started. -/
theorem Looping.start (inside : base ≤ own.rounds.length) (queued counted : Nat) :
    Looping permitted base floor own.rounds.length counted none
      (own.start queued counted) where
  isLater := inside
  budget := ⟨_, List.getElem?_concat_length, Nat.le_of_eq (Nat.zero_add _)⟩
  stage := fun _ _ isCurrent => by cases isCurrent

/-- A round that may remove an event has removed fewer than it has counted. -/
theorem Looping.less
    (looping : Looping permitted base floor round (budget + 1) current own) :
    ∃ entry, own.rounds[round]? = some entry ∧ entry.removals < entry.counted := by
  rcases looping.budget with ⟨entry, isEntry, enough⟩
  exact ⟨entry, isEntry, by omega⟩

/-- No event could be removed. -/
theorem Looping.skip
    (looping : Looping permitted base floor round (budget + 1) current own) :
    Looping permitted base floor round budget none own where
  isLater := looping.isLater
  budget := by
    rcases looping.budget with ⟨entry, isEntry, enough⟩
    exact ⟨entry, isEntry, by omega⟩
  stage := fun _ _ isCurrent => by cases isCurrent

/-- An event has been removed. -/
theorem Looping.remove
    (looping : Looping permitted base floor round (budget + 1) current own)
    (orderly : own.Orderly permitted) (le : floor ≤ own.removed.length) (evt : Evt) :
    Looping permitted base floor round budget (some (⟨own.removed.length, evt⟩, .removed))
      (own.remove round evt) where
  isLater := looping.isLater
  budget := by
    rcases looping.budget with ⟨entry, isEntry, enough⟩
    refine ⟨{ entry with removals := entry.removals + 1 }, ?_, ?_⟩
    · rw [Own.remove, List.getElem?_modify_eq, isEntry]
      rfl
    · show entry.removals + 1 + budget ≤ entry.counted
      omega
  stage := by
    rintro _ _ ⟨rfl, rfl⟩
    exact ⟨le, orderly.latest round evt⟩

/-- Script code has run in the course of a flush, which is still in the same round. -/
theorem Looping.since (looping : Looping permitted base floor round budget current own)
    {next : Option (Pending × Stage)}
    (since : Since permitted inner (round + 1) own.removed.length own later)
    (stage : ∀ pending stage, next = some (pending, stage) →
      floor ≤ pending.serial ∧ stage.Holds permitted pending later) :
    Looping permitted base floor round budget next later where
  isLater := looping.isLater
  budget := by
    rcases looping.budget with ⟨entry, isEntry, enough⟩
    exact ⟨entry, (since.same round (Nat.lt_succ_self round)).trans isEntry, enough⟩
  stage := stage

omit [DecidableEq ι] in
theorem Leaves.of_since (since : Since permitted pushing base floor own later)
    {ghost : Ghost} (leaves : Leaves permitted pushing base floor later ghost) :
    Leaves permitted pushing base floor own ghost := by
  rcases leaves with ⟨last, isGhost, orderly, more⟩
  exact ⟨last, isGhost, orderly, since.trans more⟩

theorem keeps_since {code : Code α} (since : Since permitted pushing base floor own later)
    (keeps : Keeps permitted (.main : Evt.Thread ι)
      (fun _ => Leaves permitted pushing base floor later) ⟨none, some later⟩ code) :
    Keeps permitted (.main : Evt.Thread ι)
      (fun _ => Leaves permitted pushing base floor own)
      ⟨none, some later⟩ code :=
  keeps.imp fun _ _ => .of_since since

/-- Script code runs in the course of a flush, which is left if that code raises an
error. -/
theorem keeps_script {code : Code Result} {rest : Result → Code α}
    (script : KeepsTask permitted ι (.script inner) code) (subset : pushing ⊆ inner)
    (orderly : own.Orderly permitted) (le : floor ≤ own.removed.length)
    (looping : Looping permitted base floor round budget current own)
    (continues : ∀ result later, later.Orderly permitted →
      base ≤ later.rounds.length → floor ≤ later.removed.length →
      Since permitted inner (round + 1) own.removed.length own later →
      Keeps permitted (.main : Evt.Thread ι)
        (fun _ => Leaves permitted pushing base floor later)
        ⟨none, some later⟩ (rest result)) :
    Keeps permitted (.main : Evt.Thread ι)
      (fun _ => Leaves permitted pushing base floor own)
      ⟨none, some own⟩ (code >>= rest) := by
  have inside : round + 1 ≤ own.rounds.length := by
    rcases looping.budget with ⟨entry, isEntry, _⟩
    exact (List.getElem?_eq_some_iff.mp isEntry).1
  apply (script (round + 1) own.removed.length own orderly inside (Nat.le_refl _)).bind
  rintro result _ ⟨later, rfl, laterOrderly, since⟩
  have sinceBase := since.mono subset (Nat.le_succ_of_le looping.isLater) le
  apply keeps_since sinceBase
  exact continues result later laterOrderly sinceBase.inside
    (Nat.le_trans le since.removed.length_le) since

/-- A flush is left with an error. -/
theorem leaves_raised (orderly : own.Orderly permitted)
    (inside : base ≤ own.rounds.length) (outcome : Outcome) :
    Keeps permitted (.main : Evt.Thread ι)
      (fun _ => Leaves permitted pushing base floor own)
      ⟨none, some own⟩ (.done outcome) := ⟨own, rfl, orderly, .refl inside⟩

end Tasks

section Cases

variable {pushing : List Pending} {round : Nat}

/-- An event is removed, or there is none. -/
theorem keepsTask_remove {next : Option Pending → Flush}
    {rest : Option Evt → Nat → Code Outcome}
    (keeps : ∀ evt removed, KeepsTask permitted ι
      (.flush pushing round (next (evt.map (.mk (removed - 1))))) (rest evt removed)) :
    KeepsTask permitted ι (.flush pushing round (.act .evtRemove next)) (do
      let evt ← removal round
      let removed ← access .tally
      rest evt removed) := by
  intro base floor own progress orderly inside le follows holds
  rcases follows none with ⟨_, allowed, continues⟩
  rcases next_evtRemove allowed with ⟨budget, current, rfl, rfl⟩
  have looping : Looping permitted base floor round (budget + 1) current own := holds
  rcases looping.less with ⟨entry, isEntry, less⟩
  apply keeps_removal fun _ => orderly.remove isEntry less
  · apply keeps_main
    rintro before removed after rfl _ _ ⟨_, isAfter⟩
    refine ⟨before.own, isAfter, rfl, orderly, ?_⟩
    exact keeps none removed base floor before.own
      _ orderly inside le continues looping.skip
  · intro evt
    have removed : (own.remove round evt).Orderly permitted :=
      orderly.remove isEntry less
    apply keeps_main
    rintro before _ after isOwn _ _ ⟨rfl, isAfter⟩
    rcases follows (some ⟨before.own.removed.length - 1, evt⟩) with
      ⟨_, allowed, continues⟩
    cases allowed
    refine ⟨own.remove round evt, by rw [isAfter, ← isOwn], rfl, removed, ?_⟩
    have since : Since permitted pushing base floor own (own.remove round evt) :=
      .remove inside looping.isLater evt
    apply keeps_since since
    have serial : before.own.removed.length - 1 = own.removed.length := by
      rw [isOwn, Own.remove, List.length_append]
      rfl
    have latest := looping.remove orderly le evt
    rw [← serial] at latest
    exact keeps (some evt) _ base floor _ _ removed since.inside
      (Nat.le_trans le since.removed.length_le) continues latest

/-- The client of an event is looked up. -/
theorem keepsTask_cudSearch {pending : Pending} {key : Addr} {next : Option Cud → Flush}
    {rest : Option Cud → Code Outcome}
    (keeps : ∀ cud, KeepsTask permitted ι (.flush pushing round (next cud)) (rest cud)) :
    KeepsTask permitted ι
      (.flush pushing round (.act (.handling pending (.cudSearch key)) next))
      (access (.cudSearch key) >>= rest) := by
  intro base floor own progress orderly inside le follows holds
  apply keeps_main
  rintro before _ after rfl _ _ ⟨rfl, isAfter⟩
  refine ⟨before.own, isAfter, rfl, orderly, ?_⟩
  rcases follows (before.own.world.search .client key) with ⟨_, allowed, continues⟩
  rcases next_handling allowed with ⟨budget, stage, stage', rfl, staged, rfl⟩
  rcases next_cudSearch staged with ⟨rfl, rfl, rfl⟩
  apply keeps _ base floor _ _ orderly inside le continues
  rcases holds.stage _ _ rfl with ⟨serial, latest⟩
  refine ⟨holds.isLater, holds.budget, ?_⟩
  rintro _ _ ⟨rfl, rfl⟩
  refine ⟨serial, ?_⟩
  split
  next isValid => exact ⟨latest, fun _ => (Option.any_eq_true _ _).mp isValid⟩
  next => exact latest

/-- The arguments are pushed, which script code may interrupt, and the function is
called. -/
theorem keepsTask_pcall {pending : Pending} {call : Invocation} {next : Result → Flush}
    {pushes function : Code Result} {rest : Result → Code Outcome}
    (pushesKeeps : KeepsTask permitted ι (.script (pending :: pushing)) pushes)
    (functionKeeps : KeepsTask permitted ι (.script pushing) function)
    (keeps : ∀ result,
      KeepsTask permitted ι (.flush pushing round (next result)) (rest result)) :
    KeepsTask permitted ι
      (.flush pushing round (.act (.handling pending (.pcall call)) next))
      (pushes >>= unlessRaised (do
        access (.pcall pending)
        let result ← function
        rest result)) := by
  intro base floor own progress orderly inside le follows holds
  rcases follows (.ok []) with ⟨_, allowed, _⟩
  rcases next_handling allowed with ⟨budget, stage, _, rfl, staged, rfl⟩
  rcases next_pcall staged with ⟨rfl, rfl⟩
  have looping : Looping permitted base floor round budget
      (some (pending, .found)) own := holds
  rcases looping.stage _ _ rfl with ⟨serial, latest, isValid⟩
  apply keeps_script pushesKeeps (List.subset_cons_self _ _) orderly le looping
  intro pushed later laterOrderly laterInside laterLe since
  cases pushed with
  | error value => exact leaves_raised laterOrderly laterInside _
  | ok _ =>
      have found : Stage.found.Holds permitted pending later :=
        ⟨latest.since since, fun careful =>
          since.spared careful pending List.mem_cons_self (isValid careful)⟩
      have handed := laterOrderly.hand found
      apply keeps_main
      rintro before _ after rfl _ _ isAfter
      refine ⟨before.own.hand pending, isAfter, rfl, handed, ?_⟩
      have pushed : Looping permitted base floor round budget none before.own :=
        looping.since since fun _ _ isCurrent => by cases isCurrent
      have calling : Looping permitted base floor round budget none
          (before.own.hand pending) :=
        ⟨pushed.isLater, pushed.budget, fun _ _ isCurrent => by cases isCurrent⟩
      apply keeps_since (.hand laterInside serial)
      apply keeps_script functionKeeps (List.Subset.refl _) handed laterLe calling
      intro result last lastOrderly lastInside lastLe since
      rcases follows result with ⟨_, allowed, continues⟩
      rcases next_handling allowed with ⟨_, _, _, isProgress, staged, rfl⟩
      cases isProgress
      rcases next_pcall staged with ⟨_, rfl⟩
      apply keeps result base floor last _ lastOrderly lastInside lastLe continues
      apply calling.since since
      rintro _ _ ⟨rfl, rfl⟩
      exact ⟨serial, trivial⟩

/-- Script code runs before an access. -/
theorem keepsTask_foreign {op : FlushOp} {next : op.Answer → Flush}
    {code : Code Result} {rest : op.Answer → Code Outcome}
    (isForeign : runsCode op = true)
    (script : KeepsTask permitted ι (.script pushing) code)
    (keeps : ∀ answer,
      KeepsTask permitted ι (.flush pushing round (next answer)) (rest answer)) :
    KeepsTask permitted ι (.flush pushing round (.act op next))
      (code >>= unlessRaised (access (.other op) >>= rest)) := by
  intro base floor own progress orderly inside le follows holds
  rcases nonempty_of_runsCode isForeign with ⟨some⟩
  rcases follows some with ⟨_, allowed, _⟩
  rcases next_runsCode isForeign allowed with ⟨budget, current, _, rfl, _, _⟩
  have looping : Looping permitted base floor round budget current own := holds
  apply keeps_script script (List.Subset.refl _) orderly le looping
  intro result later laterOrderly laterInside laterLe since
  cases result with
  | error value => exact leaves_raised laterOrderly laterInside _
  | ok _ =>
      apply keeps_main
      rintro before answer after rfl _ _ isAfter
      refine ⟨before.own, isAfter, rfl, laterOrderly, ?_⟩
      rcases follows answer with ⟨_, allowed, continues⟩
      rcases next_runsCode isForeign allowed with
        ⟨_, _, current', isProgress, rfl, isHanded⟩
      cases isProgress
      apply keeps answer base floor _ _ laterOrderly laterInside laterLe continues
      apply looping.since since
      intro pending stage isCurrent
      rcases isHanded pending stage isCurrent with ⟨rfl, earlier, wasCurrent⟩
      exact ⟨(looping.stage pending earlier wasCurrent).1, trivial⟩

end Cases

/-- The main thread keeps the discipline, whatever the script does. -/
theorem keepsTask_of_mainCode {task : Task}
    {code : Code task.Result} (main : MainCode task code) :
    KeepsTask permitted ι task code := by
  induction main with
  | done result =>
      intro base floor own orderly inside le
      exact ⟨own, rfl, orderly, .refl inside⟩
  | insert evt _ ih =>
      intro base floor own orderly inside le
      exact keeps_insertion (ih base floor own orderly inside le)
  | @operate pushing change rest _ ih =>
      intro base floor own orderly inside le
      apply keeps_main
      rintro before answer after rfl _ spared ⟨rfl, isAfter⟩
      have changed : Own.Orderly permitted
          { before.own with world := change before.own.world } :=
        ⟨orderly.isEvt, orderly.isValid, orderly.once, orderly.limited⟩
      refine ⟨_, isAfter, rfl, changed, ?_⟩
      have since : Since permitted pushing base floor before.own
          { before.own with world := change before.own.world } :=
        .of_world inside fun careful pending member =>
          careful _ _ _ (spared pending member)
      exact keeps_since since (ih _ base floor _ changed inside le)
  | sleep _ _ flush ih =>
      intro base floor own orderly inside le
      apply (flush base floor own .started orderly
        inside le follows_callbackFlush trivial).bind
      rintro outcome _ ⟨later, rfl, laterOrderly, since⟩
      exact keeps_since since (ih outcome base floor later laterOrderly since.inside
        (Nat.le_trans le since.removed.length_le))
  | ended round outcome =>
      intro base floor own progress orderly inside _ _ _
      exact leaves_raised orderly inside outcome
  | raised round error _ script =>
      intro base floor own progress orderly inside le _ _
      apply (script base floor own orderly inside le).bind
      rintro result _ ⟨later, rfl, laterOrderly, since⟩
      apply keeps_since since
      cases result <;> exact leaves_raised laterOrderly since.inside _
  | @count pushing round next rest _ ih =>
      intro base floor own progress orderly inside le follows _
      apply keeps_main
      rintro before _ after rfl counted _ ⟨rfl, isAfter⟩
      rcases follows before.queue.counter with ⟨progress', allowed, continues⟩
      rcases next_evtCount allowed with ⟨rfl, rfl⟩
      have started := orderly.start counted.le
      refine ⟨_, isAfter, rfl, started, ?_⟩
      have since : Since permitted pushing base floor before.own (before.own.start _ _) :=
        .start inside before.queue.head.length before.queue.counter.toNat
      apply keeps_since since
      exact ih _ base floor _ _ started since.inside le continues
        (Looping.start inside _ _)
  | remove _ ih => exact keepsTask_remove ih
  | cudSearch _ ih => exact keepsTask_cudSearch ih
  | pcall _ _ _ _ pushes function ih => exact keepsTask_pcall pushes function ih
  | foreign isForeign _ _ script ih => exact keepsTask_foreign isForeign script ih
  | @other pushing round op next rest quiet _ ih =>
      intro base floor own progress orderly inside le follows holds
      apply keeps_main
      rintro before answer after rfl _ _ isAfter
      refine ⟨before.own, isAfter, rfl, orderly, ?_⟩
      rcases follows answer with ⟨_, allowed, continues⟩
      cases next_quiet quiet allowed
      exact ih answer base floor before.own _ orderly inside le continues holds

/-! ## Runs -/

/-- A thread that does not hold the lock may return. -/
theorem returns (thread : Evt.Thread ι) (known : Option Own) :
    (discipline permitted ι).Returns thread () ⟨none, known⟩ := by
  intro ghosts shared log turn
  have sound : Sound permitted ghosts shared := turn.holds
  have isGhost : ghosts thread = ⟨none, known⟩ := turn.isGhost
  show Sound permitted (Function.update ghosts thread ⟨none, none⟩) shared
  apply sound.stay isGhost rfl fun _ => rfl
  · intro _ own isKnown
    cases isKnown
  · exact sound.orderly

theorem keeps_calls (thread : Evt.Thread ι) (program : Code Unit)
    (offered : (sparing permitted ι).calls thread program) :
    Keeps permitted thread ((discipline permitted ι).Returns thread)
      ⟨none, none⟩ program := by
  cases thread with
  | jack index =>
      rcases offered with ⟨evt, rfl⟩
      rw [← Program.bind_done (insertion evt)]
      exact keeps_insertion (returns _ none)
  | main =>
      rcases offered with ⟨script, main, rfl⟩
      apply keeps_learn fun _ => returns _ none
      intro own orderly
      have keeps : KeepsTask permitted ι (.script []) script := keepsTask_of_mainCode main
      apply (keeps 0 0 own orderly (Nat.zero_le _) (Nat.zero_le _)).bind
      rintro result _ ⟨later, rfl, _, _⟩
      exact returns _ (some later)

/-- What holds in every configuration that a run reaches. -/
theorem sound_of_reaches {world : World} {capacity : Nat}
    {config : Config (Evt.Thread ι) Access Access.Answer Unit Shared}
    (run : (sparing permitted ι).Reaches (.new world capacity) config) :
    ∃ ghosts : Evt.Thread ι → Ghost, Sound permitted ghosts config.shared := by
  have start : Sound permitted (fun _ : Evt.Thread ι => ⟨none, none⟩)
      (.new world capacity) := by
    constructor
    · exact .inl ⟨rfl, rfl, fun _ => rfl⟩
    · exact fun _ => .level rfl
    · rfl
    · intro own isKnown
      cases isKnown
    · constructor
      · exact List.forall_mem_nil _
      · exact fun _ => List.forall_mem_nil _
      · exact List.Pairwise.nil
      · exact List.forall_mem_nil _
  rcases (discipline permitted ι).justified_of_reaches start
    (fun _ => trivial) keeps_calls run with
    ⟨ghosts, justified⟩
  exact ⟨ghosts, justified.holds⟩

end Rules

/-- Events have left the queue in the order in which they have been inserted, and have
been handed to functions at most once each. No call of `callback_flush` has removed more
events than there were when it counted them, and it ends after a number of accesses that
this number limits. -/
structure Handled (shared : Shared) : Prop where
  inserted : shared.inserted = shared.own.removed ++ shared.queue.head
  isEvt : ∀ handing ∈ shared.own.handed,
    shared.own.removed[handing.pending.serial]? = some handing.pending.evt
  once : shared.own.handed.Pairwise fun first second =>
    first.pending.serial ≠ second.pending.serial
  limited : ∀ round ∈ shared.own.rounds,
    round.removals ≤ round.counted ∧ round.counted ≤ round.queued
  ends : ∀ counted : Nat, (flushLoop counted).Within (8 * counted + 1)

/-- Besides, the client of each event has been valid when the event was handed to a
function. -/
structure HandledInOrder (shared : Shared) : Prop extends Handled shared where
  isValid : ∀ handing ∈ shared.own.handed,
    handing.world.Valid .client handing.pending.evt.clientKey

theorem Sound.handled {ι : Type} {permitted : Permitted} {ghosts : Evt.Thread ι → Ghost}
    {shared : Shared} (sound : Sound permitted ghosts shared) : Handled shared where
  inserted := sound.listed
  isEvt := sound.orderly.isEvt
  once := sound.orderly.once
  limited := sound.orderly.limited
  ends := within_flushLoop

/-! ### A finalizer that closes a client -/

section Closed

variable {permitted : Permitted} {key : Addr} {world : World} {change : World → World}

/-- A change of the freewheel mode. -/
def freewheeling (key : Addr) : Evt where
  clientKey := key
  type := CallbackKind.freewheel.code

/-- A finalizer. -/
def finalizer (change : World → World) (pending : Pending) : Code Result := do
  let _ ← access (.operate [pending] change)
  return .ok []

/-- A script that sleeps until a flush has been made. The finalizer runs when arguments
are pushed. -/
def sleepOnce (change : World → World) : Code Result := do
  let _ ← straight (finalizer change) 0 callbackFlush
  return .ok []

theorem mainCode_sleepOnce (change : World → World) :
    MainCode (.script []) (sleepOnce change) := by
  apply MainCode.sleep
  · exact mainCode_straight (fun pending => .operate change fun _ => .done _)
      callbackFlush 0
  · exact fun _ => .done _

theorem runs_freewheeling : ∃ history after,
    Program.Runs (sparing permitted Unit).meaning
      (insertion (freewheeling key)) (.new world 1)
      history () after ∧
      after.own = (Shared.new world 1).own ∧ after.queue.locked = false ∧
      after.queue.head = [freewheeling key] ∧ after.queue.counter = 1 :=
  ⟨_, _, .act ⟨trivial, rfl, rfl, rfl⟩ (.act ⟨trivial, trivial, rfl, rfl⟩
    (.act ⟨trivial, trivial, rfl, rfl⟩ (.act ⟨trivial, trivial, rfl, rfl⟩
      (.act ⟨trivial, trivial, rfl, rfl⟩ (.done _ _))))), rfl, rfl, rfl, rfl⟩

/-- One access is made. -/
theorem runs_access {op : Access} (answer : op.Answer) {before : Shared}
    (middle : Shared) {after : Shared} {next : op.Answer → Code Outcome}
    {outcome : Outcome}
    (isMeaning : (sparing permitted Unit).meaning op before answer middle)
    (run : ∃ history, Program.Runs (sparing permitted Unit).meaning
      (next answer) middle history outcome after) :
    ∃ history, Program.Runs (sparing permitted Unit).meaning
      (.act op next) before history outcome after := by
  rcases run with ⟨history, run⟩
  exact ⟨_, .act isMeaning run⟩

/-- An access returns something that is left open. -/
theorem runs_other {op : FlushOp} (answer : op.Answer) {before after : Shared}
    {next : op.Answer → Code Outcome} {outcome : Outcome}
    (run : ∃ history, Program.Runs (sparing permitted Unit).meaning
      (next answer) before history outcome after) :
    ∃ history, Program.Runs (sparing permitted Unit).meaning
      (.act (.other op) next) before history outcome after :=
  runs_access answer before ⟨trivial, rfl⟩ run

/-- The only event in the queue is removed in a round. -/
theorem runs_removal {before : Shared} {evt : Evt} (round : Nat)
    (isFree : before.queue.locked = false) (isHead : before.queue.head = [evt]) :
    ∃ history after,
      Program.Runs (sparing permitted Unit).meaning (removal round)
        before history (some evt) after ∧
      after.own = before.own.remove round evt := by
  rcases before with ⟨⟨locked, head, counter, evtpipe⟩, inserted, own⟩
  simp only at isFree isHead
  subst isFree isHead
  refine ⟨_, _, .act ⟨trivial, rfl, rfl, rfl⟩ (.act ⟨trivial, trivial, rfl, rfl⟩
    (Program.runs_act.mpr ⟨(), _, _, rfl, ⟨trivial, rfl⟩,
      .act ⟨trivial, trivial, rfl, rfl⟩ (.act ⟨trivial, trivial, rfl, rfl⟩
        (.act ⟨trivial, trivial, rfl, rfl⟩ (.done _ _)))⟩)), rfl⟩

/-- The rest of a round follows `evt_remove`. -/
theorem runs_removing {round : Nat} {evt : Option Evt} {rest : Option Evt → Code Outcome}
    {before middle after : Shared} {outcome : Outcome}
    (removed : ∃ history, Program.Runs (sparing permitted Unit).meaning
      (removal round) before history evt middle)
    (run : ∃ history, Program.Runs (sparing permitted Unit).meaning
      (rest evt) middle history outcome after) :
    ∃ history, Program.Runs (sparing permitted Unit).meaning
      (removal round >>= rest) before history outcome after := by
  rcases removed with ⟨first, removalRun⟩
  rcases run with ⟨second, run⟩
  exact ⟨first ++ second, Program.runs_bind.mpr ⟨_, _, _, _, rfl, removalRun, run⟩⟩

/-- The event of a valid client is handed on after the finalizer has run, and the flush
ends. -/
theorem runs_handling {before : Shared} (serial : Nat)
    (valid : before.own.world.Valid .client key)
    (isPermitted : permitted key before.own.world change) :
    ∃ after : Shared, (∃ history, Program.Runs (sparing permitted Unit).meaning
      (straight (finalizer change) 0 (do
        match ← (dispatch (freewheeling key)).forEvent ⟨serial, freewheeling key⟩ with
        | .returned => flushLoop 0
        | outcome => return outcome))
      before history .returned after) ∧
      after.own.handed = before.own.handed ++
        [⟨⟨serial, freewheeling key⟩, change before.own.world⟩] := by
  rcases valid with
    ⟨⟨isValid, client, state, rate, size, refs, processRefs⟩, found, isTrue⟩
  have isTrue : isValid = true := isTrue
  subst isTrue
  let changed : Shared :=
    { before with
      own := { before.own with world := change before.own.world } }
  let called : Shared :=
    { changed with
      own := changed.own.hand ⟨serial, freewheeling key⟩ }
  refine ⟨called, ?_, rfl⟩
  refine runs_access (some _) before ⟨trivial, found.symm, rfl⟩ ?_
  apply runs_other false
  apply runs_other (some 7)
  -- the finalizer runs, and then the function is called
  refine runs_access _ changed ⟨List.forall_mem_singleton.mpr isPermitted, rfl, rfl⟩ ?_
  refine runs_access () called ⟨trivial, rfl⟩ ?_
  exact runs_other () (runs_other () ⟨_, .done _ _⟩)

/-- The flush removes the event and hands it on after the finalizer has run. -/
theorem runs_straight {before : Shared} (isOwn : before.own = (Shared.new world 1).own)
    (isFree : before.queue.locked = false)
    (isHead : before.queue.head = [freewheeling key])
    (isCounter : before.queue.counter = 1) (valid : world.Valid .client key)
    (isPermitted : permitted key world change) : ∃ history after,
    Program.Runs (sparing permitted Unit).meaning
      (straight (finalizer change) 0 callbackFlush) before history .returned after ∧
      after.own.handed = [⟨⟨0, freewheeling key⟩, change world⟩] := by
  rcases before with ⟨⟨locked, head, counter, evtpipe⟩, inserted, own⟩
  simp only at isOwn isFree isHead isCounter
  subst isOwn isFree isHead isCounter
  let before : Shared :=
    ⟨⟨false, [freewheeling key], 1, evtpipe⟩, inserted, (Shared.new world 1).own⟩
  let started : Shared := { before with own := before.own.start 1 1 }
  have isStarted : started.queue.head = [freewheeling key] := rfl
  rcases runs_removal 0 rfl isStarted with ⟨_, removed, removalRun, isRemoved⟩
  have isWorld : removed.own.world = world := by
    rw [isRemoved]
    rfl
  rw [← isWorld] at valid isPermitted
  rcases runs_handling (removed.own.removed.length - 1) valid isPermitted with
    ⟨after, handlingRun, handed⟩
  have loopRun : ∃ history, Program.Runs (sparing permitted Unit).meaning
      (straight (finalizer change) 0 (flushLoop 1)) started history .returned after := by
    refine runs_removing ⟨_, removalRun⟩ ?_
    exact runs_access _ removed ⟨trivial, rfl, rfl⟩ handlingRun
  have flushRun : ∃ history, Program.Runs (sparing permitted Unit).meaning
      (straight (finalizer change) 0 callbackFlush) before history .returned after := by
    apply runs_other true
    apply runs_other false
    exact runs_access _ started ⟨trivial, rfl, rfl⟩ loopRun
  rcases flushRun with ⟨history, flushRun⟩
  refine ⟨history, after, flushRun, ?_⟩
  rw [handed, isRemoved]
  rfl

/-- An event is handed on in the world that a finalizer leaves. -/
theorem reaches_handed (valid : world.Valid .client key)
    (isPermitted : permitted key world change) :
    ∃ config, (sparing permitted Unit).Reaches (.new world 1) config ∧
      config.shared.own.handed = [⟨⟨0, freewheeling key⟩, change world⟩] := by
  rcases runs_freewheeling with ⟨_, inserted, insertRun, isOwn, isFree, isHead, isCounter⟩
  rcases runs_straight isOwn isFree isHead isCounter valid isPermitted with
    ⟨_, flushed, flushRun, handed⟩
  have sleepRun : (sleepOnce change).Runs
      (sparing permitted Unit).meaning inserted _ (.ok [])
      flushed := Program.runs_bind.mpr ⟨_, _, _, _, rfl, flushRun, .done _ _⟩
  have mainRun : Program.Runs (sparing permitted Unit).meaning
      (do let _ ← sleepOnce change; return ()) inserted _ () flushed :=
    Program.runs_bind.mpr ⟨_, _, _, _, rfl, sleepRun, .done _ _⟩
  have jackCalls : (sparing permitted Unit).calls
      (.jack ()) (insertion (freewheeling key)) :=
    ⟨_, rfl⟩
  have mainCalls : (sparing permitted Unit).calls .main
      (do let _ ← sleepOnce change; return ()) :=
    ⟨_, mainCode_sleepOnce change, rfl⟩
  have jackSteps : (sparing permitted Unit).Reaches (.new world 1) _ :=
    System.steps_of_call rfl jackCalls insertRun
  exact ⟨_, jackSteps.trans (System.steps_of_call rfl mainCalls mainRun), handed⟩

end Closed

/-- In every run events are handled in order, exactly if what the script may do, while
the arguments of a call are being pushed, does not close the client of the event. -/
theorem events_handled_in_order_iff (permitted : Permitted) :
    (∀ (ι : Type) [DecidableEq ι] (world : World) (capacity : Nat)
        (config : Config (Evt.Thread ι) Access Access.Answer Unit Shared),
        (sparing permitted ι).Reaches (.new world capacity) config →
          HandledInOrder config.shared) ↔ Careful permitted := by
  constructor
  · intro inOrder key world change isPermitted valid
    rcases reaches_handed valid isPermitted with ⟨config, run, isHanded⟩
    have isValid := (inOrder Unit world 1 config run).isValid
    rw [isHanded] at isValid
    exact isValid _ (.head _)
  · intro careful ι _ world capacity config run
    rcases sound_of_reaches run with ⟨_, sound⟩
    exact ⟨sound.handled, sound.orderly.isValid careful⟩

/-- A client that has registered a freewheel callback. -/
def oneClient : World :=
  { World.initial with
    cuds := Table.empty.insert 0x601010
      { Cud.new with refs := fun kind => if kind = .freewheel then 1 else noRef } }

/-- `client_close`, called by a finalizer. -/
def closeClient (world : World) : World := (clientCloseRef 0x601010 0 world).2

/-- A finalizer closes the client while the argument for its freewheel callback is
pushed. -/
theorem closed_client_handled :
    ¬ ∀ (ι : Type) [DecidableEq ι] (world : World) (capacity : Nat)
        (config : Config (Evt.Thread ι) Access Access.Answer Unit Shared),
        (dispatcher ι).Reaches (.new world capacity) config →
          HandledInOrder config.shared := by
  intro inOrder
  have valid : oneClient.Valid .client 0x601010 := ⟨_, rfl, rfl⟩
  rcases @reaches_handed (fun _ _ _ => True)
    0x601010 oneClient closeClient valid trivial with
    ⟨config, run, isHanded⟩
  have isValid := (inOrder Unit oneClient 1 config (System.steps_of_restrict run)).isValid
  rw [isHanded] at isValid
  have closed : ¬(closeClient oneClient).Valid .client 0x601010 := by decide
  exact closed (isValid _ (.head _))

/-- Whatever finalizers do, no event is lost or handed on twice. -/
theorem handled_of_reaches {ι : Type} [DecidableEq ι] {world : World} {capacity : Nat}
    {config : Config (Evt.Thread ι) Access Access.Answer Unit Shared}
    (run : (dispatcher ι).Reaches (.new world capacity) config) :
    Handled config.shared := by
  have anything (op : Access) (before : Shared) : Spares
      (fun _ _ _ => True) op before := by
    cases op with
    | operate pushing change => exact fun _ _ => trivial
    | _ => trivial
  rcases sound_of_reaches (System.restrict_of_steps anything run) with ⟨_, sound⟩
  exact sound.handled

theorem handled_of_reaches_closing :
    ∃ config, (dispatcher Unit).Reaches (.new oneClient 1) config ∧
      config.shared.own.handed.length = 1 ∧ Handled config.shared := by
  have valid : oneClient.Valid .client 0x601010 := ⟨_, rfl, rfl⟩
  rcases @reaches_handed (fun _ _ _ => True)
    0x601010 oneClient closeClient valid trivial with
    ⟨config, run, isHanded⟩
  have unrestricted := System.steps_of_restrict run
  exact ⟨config, unrestricted, congrArg List.length isHanded,
    handled_of_reaches unrestricted⟩

end LuaJack.Nested
