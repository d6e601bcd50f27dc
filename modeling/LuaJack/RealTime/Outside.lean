import LuaJack.Atomic.Ghost
import LuaJack.RealTime.Cleanup
import LuaJack.RealTime.Profile

/-!
# After the process callback, among other threads

The mark of the process callback is in one word with the marks that the main thread
changes, and other threads may use the buffers of ports too.  As long as the callback
succeeds, no other thread brings the mark back, and the ports are only used while the
callback runs, the client is outside of its process callback whenever no wrapper
runs. -/

namespace LuaJack.Profiling

open Atomic RealTime

variable {ι Number : Type}

/-! ## Undisturbed runs -/

/-- The process callback succeeds, no store for another mark brings back its mark, and
other threads use ports only while it runs. -/
def Undisturbed : (op : ProfileOp Number) → Shared Number → op.Answer → Prop
  | .pcall .process, _, succeeds => succeeds = true
  | .ccall .process, _, rc => rc = 0
  | .setMarks bit marks, shared, _ => bit ≠ Marks.processCallbackBit →
      marks.get Marks.processCallbackBit = true →
        shared.marks.get Marks.processCallbackBit = true
  | .setPort .elsewhere _ _, shared, _ => shared.calling = true
  | _, _, _ => True

section Systems

variable (ι Number)
variable [Zero Number] [Add Number] [Sub Number]
  [Mul Number] [Div Number] [NatCast Number]
variable [LT Number] [DecidableLT Number] [DecidableEq Number]

/-- JACK calls all wrappers of the client in one thread. -/
def cycling (realTime : ι) :
    System (Thread ι) (ProfileOp Number) ProfileOp.Answer
      (Event Number) (Shared Number) where
  meaning := ProfileOp.meaning
  calls := fun thread program => (profiling ι Number).calls thread program ∧
    ∀ index, thread = .jack index → index = realTime

/-- The runs all of whose accesses are undisturbed. -/
def undisturbed (realTime : ι) :
    System (Thread ι) (ProfileOp Number) ProfileOp.Answer
      (Event Number) (Shared Number) :=
  (cycling ι Number realTime).confine Undisturbed

end Systems

/-! ## The queue of the ports -/

/-- The ports of a queue in front of a port. -/
def inFront (pud : Addr) : List Addr → List Addr
  | [] => []
  | head :: fifo => if head = pud then [] else head :: inFront pud fifo

section Queue

variable {pud port key head : Addr} {fifo more : List Addr}

theorem inFront_of_head (isFirst : fifo.head? = some pud) : inFront pud fifo = [] := by
  cases fifo with
  | nil => rfl
  | cons head fifo => exact if_pos (Option.some.inj isFirst)

/-- What is inserted is behind all other ports. -/
theorem inFront_append (member : pud ∈ fifo) :
    inFront pud (fifo ++ more) = inFront pud fifo := by
  induction fifo with
  | nil => cases member
  | cons head fifo ih =>
      rw [List.cons_append, inFront, inFront]
      by_cases same : head = pud
      · rw [if_pos same, if_pos same]
      · rw [if_neg same, if_neg same, ih (List.mem_of_ne_of_mem (Ne.symm same) member)]

/-- When nothing is behind a port, all other ports are in front of it. -/
theorem mem_of_behind_none (isLast : ProfileOp.behind pud fifo = none)
    (inQueue : pud ∈ fifo)
    (member : key ∈ fifo) : key = pud ∨ key ∈ inFront pud fifo := by
  induction fifo with
  | nil => cases member
  | cons head fifo ih =>
      rw [ProfileOp.behind] at isLast
      rw [inFront]
      by_cases same : head = pud
      · rw [if_pos same, List.head?_eq_none_iff] at isLast
        rw [isLast, same] at member
        exact .inl (List.mem_singleton.mp member)
      · rw [if_neg same] at isLast ⊢
        rcases List.mem_cons.mp member with rfl | member
        · exact .inr List.mem_cons_self
        · exact (ih isLast (List.mem_of_ne_of_mem (Ne.symm same) inQueue)
            member).imp_right
            (List.mem_cons_of_mem head)

/-- In front of the next port there is nothing but this port and those in front of it. -/
theorem mem_of_inFront_behind (isNext : ProfileOp.behind pud fifo = some port)
    (member : key ∈ inFront port fifo) : key = pud ∨ key ∈ inFront pud fifo := by
  induction fifo with
  | nil => cases member
  | cons head fifo ih =>
      rw [ProfileOp.behind] at isNext
      rw [inFront] at member ⊢
      split at member
      next => cases member
      next =>
        by_cases same : head = pud
        · rw [if_pos same] at isNext
          rw [inFront_of_head isNext, same] at member
          exact .inl (List.mem_singleton.mp member)
        · rw [if_neg same] at isNext ⊢
          rcases List.mem_cons.mp member with rfl | member
          · exact .inr List.mem_cons_self
          · exact (ih isNext member).imp_right (List.mem_cons_of_mem head)

theorem mem_of_behind (isNext : ProfileOp.behind pud fifo = some port) : port ∈ fifo := by
  induction fifo with
  | nil => cases isNext
  | cons head fifo ih =>
      rw [ProfileOp.behind] at isNext
      split at isNext
      next => exact List.mem_cons_of_mem head (List.mem_of_mem_head? isNext)
      next => exact List.mem_cons_of_mem head (ih isNext)

end Queue

/-! ## How far a call has got -/

/-- How far JACK's call of `Process` or `CProcess` has got. -/
inductive Stage where
  | outside
  | inside
  /-- The callback has returned. -/
  | returned
  /-- `buffer_drop_all` has got to a port. -/
  | walking (pud : Addr)
  /-- It has dropped the buffer of this port. -/
  | walked (pud : Addr)
  | dropped
  | unframed

namespace Stage

/-- What is the case at a stage. -/
def Reached : Stage → Cycle → Prop
  | outside, cycle => Outside cycle
  | inside, _ | returned, _ => True
  | walking pud, cycle =>
      pud ∈ cycle.fifo ∧ ∀ key ∈ inFront pud cycle.fifo, cycle.puds key = .dropped
  | walked pud, cycle => pud ∈ cycle.fifo ∧ cycle.puds pud = .dropped ∧
      ∀ key ∈ inFront pud cycle.fifo, cycle.puds key = .dropped
  | dropped, cycle => ∀ key ∈ cycle.fifo, cycle.puds key = .dropped
  | unframed, cycle => cycle.nframes = 0 ∧ ∀ key ∈ cycle.fifo, cycle.puds key = .dropped

/-- The stage is reached, and the callback runs inside only. -/
structure Holds (stage : Stage) (shared : Shared Number) : Prop where
  quiet : stage ≠ inside → shared.calling = false
  reached : stage.Reached shared.toCycle

end Stage

/-- Ports without buffers have been inserted, no port has got a buffer, and the process
callback is not marked again. -/
structure Grown (before after : Cycle) : Prop where
  notMarked : after.marks.get Marks.processCallbackBit = true →
    before.marks.get Marks.processCallbackBit = true
  nframes : after.nframes = before.nframes
  fifo : ∃ more, after.fifo = before.fifo ++ more ∧
    ∀ key ∈ more, after.puds key = .dropped
  puds : ∀ key, before.puds key = .dropped → after.puds key = .dropped

namespace Grown

variable {before after : Cycle}

/-- The ports stay as they are. -/
theorem of_marks {marks : Marks} {bufferSize : BitVec 32}
    (notMarked : marks.get Marks.processCallbackBit = true →
      before.marks.get Marks.processCallbackBit = true) :
    Grown before { before with marks, bufferSize } where
  notMarked := notMarked
  nframes := rfl
  fifo := ⟨[], (List.append_nil _).symm, fun _ member => nomatch member⟩
  puds := fun _ => id

/-- A port without a buffer is inserted. -/
theorem of_insertTail (pud : Addr) : Grown before { before with
    fifo := before.fifo ++ [pud], puds := Function.update before.puds pud .dropped } where
  notMarked := id
  nframes := rfl
  fifo := by
    refine ⟨[pud], rfl, ?_⟩
    intro key member
    rw [List.mem_singleton.mp member]
    exact Function.update_self ..
  puds := by
    intro key isDropped
    rcases eq_or_ne key pud with rfl | different
    · exact Function.update_self ..
    · exact (Function.update_of_ne different _ _).trans isDropped

/-- When all ports have lost their buffers, this stays so. -/
theorem dropped (grown : Grown before after)
    (dropped : ∀ key ∈ before.fifo, before.puds key = .dropped) :
    ∀ key ∈ after.fifo, after.puds key = .dropped := by
  rcases grown.fifo with ⟨more, isFifo, areDropped⟩
  intro key member
  rw [isFifo] at member
  rcases List.mem_append.mp member with earlier | inserted
  · exact grown.puds key (dropped key earlier)
  · exact areDropped key inserted

theorem inFront (grown : Grown before after) {pud : Addr} (member : pud ∈ before.fifo)
    (dropped : ∀ key ∈ Profiling.inFront pud before.fifo, before.puds key = .dropped) :
    pud ∈ after.fifo ∧ ∀ key ∈ Profiling.inFront pud after.fifo, after.puds key =
      .dropped := by
  rcases grown.fifo with ⟨more, isFifo, _⟩
  rw [isFifo, inFront_append member]
  exact ⟨List.mem_append_left more member, fun key front =>
    grown.puds key (dropped key front)⟩

/-- What is the case at a stage stays so. -/
theorem reached (grown : Grown before after)
    {stage : Stage} (reached : stage.Reached before) :
    stage.Reached after := by
  cases stage with
  | outside =>
      refine ⟨?_, grown.nframes.trans reached.nframes, grown.dropped reached.ports⟩
      apply Bool.eq_false_of_not_eq_true
      intro marked
      have stillMarked := grown.notMarked marked
      rw [reached.notMarked] at stillMarked
      cases stillMarked
  | inside | returned => trivial
  | walking pud => exact grown.inFront reached.1 reached.2
  | walked pud =>
      have front := grown.inFront reached.1 reached.2.2
      exact ⟨front.1, grown.puds pud reached.2.1, front.2⟩
  | dropped => exact grown.dropped reached
  | unframed => exact ⟨grown.nframes.trans reached.1, grown.dropped reached.2⟩

end Grown

/-! ## What the programs do -/

/-- An access that does not take a call of `Process` or `CProcess` to another stage. -/
def Passive : ProfileOp Number → Prop
  | .setMarks bit _ => bit ≠ Marks.processCallbackBit
  | .setNframes _ | .drop _ | .setPort .callback _ _ => False
  | .enter kind | .pcall kind | .ccall kind => kind ≠ .process
  | _ => True

section Programs

variable [Zero Number] [Add Number] [Sub Number]
  [Mul Number] [Div Number] [NatCast Number]
variable [LT Number] [DecidableLT Number]
variable {op : ProfileOp Number} {answer : op.Answer} {before after : Shared Number}

/-- An access changes the ports that other threads have in use, or what has happened
before is still the case. -/
theorem grown_of_passive (passive : Passive op)
    (undisturbed : Undisturbed op before answer)
    (performed : ProfileOp.meaning op before answer after) :
    (before.calling = true ∨ Grown before.toCycle after.toCycle) ∧
      after.calling = before.calling := by
  rcases performed with ⟨_, outside, isAnswer⟩
  have isAfter : after = (op.exec outside before).2 := congrArg Prod.snd isAnswer
  subst isAfter
  cases op with
  | setMarks bit marks => exact ⟨.inr (.of_marks (undisturbed passive)), rfl⟩
  | setBufferSize nframes => exact ⟨.inr (.of_marks id), rfl⟩
  | insertTail pud => exact ⟨.inr (.of_insertTail pud), rfl⟩
  | setPort user pud port =>
      cases user with
      | callback => exact passive.elim
      | elsewhere => exact ⟨.inl undisturbed, rfl⟩
  | setNframes nframes => exact passive.elim
  | drop pud => exact passive.elim
  | enter kind | pcall kind | ccall kind =>
      have notProcess : kind ≠ .process := passive
      refine ⟨.inr (.of_marks id), ?_⟩
      simp [ProfileOp.exec, notProcess]
  | _ => exact ⟨.inr (.of_marks id), rfl⟩

/-- Such an access leaves a call at its stage. -/
theorem Stage.Holds.passive {stage : Stage}
    (holds : stage.Holds before) (passive : Passive op)
    (undisturbed : Undisturbed op before answer)
    (performed : ProfileOp.meaning op before answer after) : stage.Holds after := by
  rcases grown_of_passive passive undisturbed performed with ⟨grown, same⟩
  refine ⟨fun notInside => same.trans (holds.quiet notInside), ?_⟩
  by_cases isInside : stage = .inside
  · rw [isInside]
    trivial
  · rcases grown with calling | grown
    · rw [holds.quiet isInside] at calling
      cases calling
    · exact grown.reached holds.reached

variable [DecidableEq ι] [DecidableEq Number]
  {α β : Type} {realTime : ι} {thread : Thread ι}
variable {post : α → Stage → Prop} {stage : Stage}

/-- The thread in which JACK calls the wrappers knows how far its call has got. -/
def cycleDiscipline (Number : Type) (realTime : ι) :
    Discipline (Thread ι) (ProfileOp Number)
    ProfileOp.Answer (Event Number) (Shared Number) where
  Ghost := fun _ => Stage
  idle := fun _ => .outside
  settled := fun _ _ => True
  invariant := fun ghosts shared _ => (ghosts (.jack realTime)).Holds shared

variable (realTime) in
/-- A program goes from one stage to another. -/
abbrev CycleKeeps (thread : Thread ι) (post : α → Stage → Prop) (stage : Stage)
    (program : ProfileProgram Number α) : Prop :=
  (cycleDiscipline Number realTime).Keeps
    (undisturbed ι Number realTime).meaning thread post stage
    program

/-- An access that does not concern the stage. -/
theorem keeps_passive {op : ProfileOp Number} {rest : op.Answer → ProfileProgram Number α}
    (passive : Passive op)
    (continues : ∀ answer, CycleKeeps realTime thread post stage (rest answer)) :
    CycleKeeps realTime thread post stage (profileOp op >>= rest) := by
  refine ⟨trivial, ?_⟩
  intro ghosts before log answer after turn performed
  refine ⟨stage, ?_, continues answer⟩
  rw [← turn.isGhost, Function.update_eq_self]
  exact turn.holds.passive passive performed.1 performed.2

/-- An access of the thread in which JACK calls the wrappers. -/
theorem keeps_step {op : ProfileOp Number} {rest : op.Answer → ProfileProgram Number α}
    (step : ∀ before answer after, stage.Holds before → Undisturbed op before answer →
      ProfileOp.meaning op before answer after → ∃ stage' : Stage, stage'.Holds after ∧
        CycleKeeps realTime (.jack realTime) post stage' (rest answer)) :
    CycleKeeps realTime (.jack realTime) post stage (profileOp op >>= rest) := by
  refine ⟨trivial, ?_⟩
  intro ghosts before log answer after turn performed
  have holds : stage.Holds before := turn.isGhost ▸ turn.holds
  rcases step before answer after holds performed.1 performed.2 with
    ⟨stage', holds', continues⟩
  have isStage : Function.update ghosts (.jack realTime) stage'
      (.jack realTime) = stage' :=
    Function.update_self ..
  have holdsNow := congrArg (fun now : Stage => now.Holds after) isStage
  exact ⟨stage', holdsNow.mpr holds', continues⟩

variable (realTime) in
/-- A call of a wrapper ends outside of the process callback. -/
abbrev Leaves (stage : Stage) (program : ProfileProgram Number α) : Prop :=
  CycleKeeps realTime (.jack realTime) (fun _ after => after = .outside) stage program

/-- What a function does that a wrapper runs inside of the process callback. -/
theorem leaves_uses_inside {uses : List (Addr × Port)} {next : ProfileProgram Number α}
    (continues : Leaves realTime .inside next) :
    Leaves realTime .inside (useBuffers .callback uses >>= fun _ => next) := by
  induction uses with
  | nil => exact continues
  | cons use uses ih =>
      refine keeps_passive trivial fun isProcessCallback => ?_
      cases isProcessCallback with
      | true =>
          apply keeps_step
          intro before answer after _ _ _
          exact ⟨.inside, ⟨fun notInside => absurd rfl notInside, trivial⟩, ih⟩
      | false => exact ih

/-- Outside of the process callback it does nothing. -/
theorem leaves_uses_outside {uses : List (Addr × Port)} {next : ProfileProgram Number α}
    (continues : Leaves realTime .outside next) :
    Leaves realTime .outside (useBuffers .callback uses >>= fun _ => next) := by
  induction uses with
  | nil => exact continues
  | cons use uses ih =>
      apply keeps_step
      intro before isProcessCallback after holds _ performed
      rcases performed with ⟨_, _, isAnswer⟩
      cases isAnswer
      refine ⟨.outside, holds, ?_⟩
      have notMarked : before.marks.get Marks.processCallbackBit = false :=
        holds.reached.notMarked
      rw [notMarked]
      exact ih

/-- The process callback is marked. -/
theorem leaves_markSet {next : ProfileProgram Number α}
    (continues : Leaves realTime .inside next) :
    Leaves realTime .outside (markSet Marks.processCallbackBit >>= fun _ => next) := by
  refine keeps_passive trivial fun marks => ?_
  apply keeps_step
  intro before answer after _ _ _
  exact ⟨.inside, ⟨fun notInside => absurd rfl notInside, trivial⟩, continues⟩

/-- The mark is cancelled after everything else. -/
theorem leaves_markReset {next : ProfileProgram Number α}
    (continues : Leaves realTime .outside next) :
    Leaves realTime .unframed (markReset Marks.processCallbackBit >>= fun _ => next) := by
  refine keeps_passive trivial fun marks => ?_
  apply keeps_step
  intro before answer after holds _ performed
  rcases performed with ⟨_, _, isAnswer⟩
  cases isAnswer
  have isReached : Outside { before.toCycle with
      marks := marks.reset Marks.processCallbackBit } :=
    ⟨Marks.get_reset marks (by decide), holds.reached.1, holds.reached.2⟩
  exact ⟨.outside, ⟨fun _ => holds.quiet nofun, isReached⟩, continues⟩

theorem leaves_setNframes {nframes : BitVec 32} {next : ProfileProgram Number α}
    (continues : Leaves realTime .inside next) :
    Leaves realTime .inside (profileOp (.setNframes nframes) >>= fun _ => next) := by
  apply keeps_step
  intro before answer after _ _ _
  exact ⟨.inside, ⟨fun notInside => absurd rfl notInside, trivial⟩, continues⟩

theorem leaves_unframe {next : ProfileProgram Number α}
    (continues : Leaves realTime .unframed next) :
    Leaves realTime .dropped (profileOp (.setNframes 0) >>= fun _ => next) := by
  apply keeps_step
  intro before answer after holds _ performed
  rcases performed with ⟨_, _, isAnswer⟩
  cases isAnswer
  exact ⟨.unframed, ⟨fun _ => holds.quiet nofun, rfl, holds.reached⟩, continues⟩

/-- The walk through the queue drops the buffers of all ports. -/
theorem leaves_dropFrom {rounds : Nat} {pud : Addr} {next : ProfileProgram Number α}
    (continues : Leaves realTime .dropped next) :
    Leaves realTime (.walking pud) (dropFrom rounds (some pud) >>= fun _ => next) := by
  induction rounds generalizing pud with
  | zero =>
      apply keeps_step
      intro before answer after _ _ performed
      exact performed.1.elim
  | succ rounds ih =>
      apply keeps_step
      intro before answer after holds _ performed
      rcases performed with ⟨_, _, isAnswer⟩
      cases isAnswer
      have front : ∀ key ∈ inFront pud before.fifo,
          Function.update before.puds pud .dropped key = .dropped := by
        intro key member
        rcases eq_or_ne key pud with rfl | different
        · exact Function.update_self ..
        · exact (Function.update_of_ne different _ _).trans (holds.reached.2 key member)
      refine ⟨.walked pud,
        ⟨fun _ => holds.quiet nofun, holds.reached.1, Function.update_self .., front⟩, ?_⟩
      apply keeps_step
      intro before answer after holds _ performed
      rcases performed with ⟨_, _, isAnswer⟩
      cases isAnswer
      rcases holds.reached with ⟨inQueue, isDropped, areDropped⟩
      show ∃ stage' : Stage, stage'.Holds before ∧ Leaves realTime stage'
        (dropFrom rounds (ProfileOp.behind pud before.fifo) >>= fun _ => next)
      cases isNext : ProfileOp.behind pud before.fifo with
      | none =>
          refine ⟨.dropped, ⟨fun _ => holds.quiet nofun, ?_⟩, ?_⟩
          · intro key member
            rcases mem_of_behind_none isNext inQueue member with rfl | front
            · exact isDropped
            · exact areDropped key front
          · cases rounds <;> exact continues
      | some port =>
          refine ⟨.walking port,
            ⟨fun _ => holds.quiet nofun, mem_of_behind isNext, ?_⟩, ih⟩
          intro key front
          rcases mem_of_inFront_behind isNext front with rfl | front
          · exact isDropped
          · exact areDropped key front

theorem leaves_bufferDropAll {rounds : Nat} {next : ProfileProgram Number α}
    (continues : Leaves realTime .dropped next) :
    Leaves realTime .returned (bufferDropAll rounds >>= fun _ => next) := by
  apply keeps_step
  intro before answer after holds _ performed
  rcases performed with ⟨_, _, isAnswer⟩
  cases isAnswer
  show ∃ stage' : Stage, stage'.Holds before ∧ Leaves realTime stage'
    (dropFrom rounds before.fifo.head? >>= fun _ => next)
  cases isFirst : before.fifo.head? with
  | none =>
      refine ⟨.dropped, ⟨fun _ => holds.quiet nofun, ?_⟩, ?_⟩
      · intro key member
        rw [List.head?_eq_none_iff.mp isFirst] at member
        cases member
      · cases rounds <;> exact continues
  | some pud =>
      refine ⟨.walking pud,
        ⟨fun _ => holds.quiet nofun, List.mem_of_mem_head? isFirst, ?_⟩,
        leaves_dropFrom continues⟩
      intro key front
      rw [inFront_of_head isFirst] at front
      cases front

theorem leaves_luajackError :
    Leaves realTime .outside (luajackError : ProfileProgram Number Int) :=
  keeps_passive trivial fun _ => rfl

theorem leaves_begin {rest : Number → ProfileProgram Number Int}
    (continues : ∀ ts, Leaves realTime .outside (rest ts)) :
    Leaves realTime .outside (begin rest) := by
  have enters (ts : Number) : Leaves realTime .outside (do
      if ← profileOp .exiting then return 0
      else if !(← profileOp .isCudValid) then return 0
      else rest ts) := by
    refine keeps_passive trivial fun isExiting => ?_
    cases isExiting with
    | true => exact rfl
    | false =>
        refine keeps_passive trivial fun isValid => ?_
        cases isValid with
        | false => exact rfl
        | true => exact continues ts
  refine keeps_passive trivial fun isProfile => ?_
  cases isProfile with
  | true => exact keeps_passive trivial enters
  | false => exact enters 0

theorem leaves_luaBegin {cb : ProcessKind} {rest : Number → ProfileProgram Number Int}
    (continues : ∀ ts, Leaves realTime .outside (rest ts)) :
    Leaves realTime .outside (luaBegin cb rest) := by
  apply leaves_begin
  intro ts
  refine keeps_passive trivial fun isFunction => ?_
  cases isFunction with
  | true => exact continues ts
  | false => exact leaves_luajackError

/-- The process callback succeeds. -/
theorem leaves_exec_process {uses : List (Addr × Port)} {rest : ProfileProgram Number Int}
    (continues : Leaves realTime .returned rest) :
    Leaves realTime .inside (exec .process uses rest) := by
  apply keeps_step
  intro _ _ _ _ _ _
  refine ⟨.inside, ⟨fun notInside => absurd rfl notInside, trivial⟩,
    leaves_uses_inside ?_⟩
  apply keeps_step
  intro before succeeds after _ undisturbed performed
  rcases performed with ⟨_, outside, isAnswer⟩
  have isAfter := congrArg Prod.snd isAnswer
  cases isAfter
  have isTrue : succeeds = true := undisturbed
  subst isTrue
  exact ⟨.returned, ⟨fun _ => rfl, trivial⟩, continues⟩

/-- Another callback of Lua may fail. -/
theorem leaves_exec {cb : ProcessKind} {uses : List (Addr × Port)}
    {rest : ProfileProgram Number Int} (notProcess : cb ≠ .process)
    (continues : Leaves realTime .outside rest) :
    Leaves realTime .outside (exec cb uses rest) := by
  refine keeps_passive notProcess fun _ => leaves_uses_outside ?_
  refine keeps_passive notProcess fun succeeds => ?_
  cases succeeds with
  | true => exact continues
  | false => exact leaves_luajackError

theorem leaves_ccall_process {uses : List (Addr × Port)}
    {next : Int → ProfileProgram Number α}
    (continues : Leaves realTime .returned (next 0)) :
    Leaves realTime .inside (ccall .process uses >>= next) := by
  unfold ccall
  rw [Program.bind_bind]
  apply keeps_step
  intro _ _ _ _ _ _
  refine ⟨.inside, ⟨fun notInside => absurd rfl notInside, trivial⟩, ?_⟩
  rw [Program.bind_bind]
  apply leaves_uses_inside
  apply keeps_step
  intro before rc after _ undisturbed performed
  rcases performed with ⟨_, outside, isAnswer⟩
  have isAfter := congrArg Prod.snd isAnswer
  cases isAfter
  have isZero : rc = 0 := undisturbed
  subst isZero
  exact ⟨.returned, ⟨fun _ => rfl, trivial⟩, continues⟩

theorem leaves_ccall {cb : ProcessKind} {uses : List (Addr × Port)}
    {next : Int → ProfileProgram Number α} (notProcess : cb ≠ .process)
    (continues : ∀ rc, Leaves realTime .outside (next rc)) :
    Leaves realTime .outside (ccall cb uses >>= next) := by
  unfold ccall
  rw [Program.bind_bind]
  refine keeps_passive notProcess fun _ => ?_
  rw [Program.bind_bind]
  exact leaves_uses_outside (keeps_passive notProcess continues)

theorem leaves_since {ts : Number} {rc : Int} :
    Leaves realTime .outside (do since ts; return rc) :=
  keeps_passive trivial fun _ => keeps_passive trivial fun _ => rfl

theorem leaves_luaEnd {finalizers : List (Addr × Port)} {ts : Number} {rc : Int} :
    Leaves realTime .outside (luaEnd finalizers ts rc) := by
  apply leaves_uses_outside
  split
  next => exact leaves_since
  next => exact rfl

theorem leaves_cEnd {ts : Number} {rc : Int} : Leaves realTime .outside (cEnd ts rc) := by
  refine keeps_passive trivial fun isProfile => ?_
  cases isProfile with
  | true => exact leaves_since
  | false => exact rfl

theorem leaves_process (occasion : Occasion) :
    Leaves realTime .outside (process occasion : ProfileProgram Number Int) := by
  apply leaves_luaBegin
  intro ts
  apply leaves_markSet
  apply leaves_setNframes
  refine keeps_passive trivial fun _ => ?_
  apply leaves_exec_process
  apply leaves_bufferDropAll
  apply leaves_unframe
  exact leaves_markReset leaves_luaEnd

theorem leaves_cprocess (occasion : Occasion) :
    Leaves realTime .outside (cprocess occasion : ProfileProgram Number Int) := by
  apply leaves_begin
  intro ts
  apply leaves_markSet
  apply leaves_setNframes
  refine keeps_passive trivial fun _ => ?_
  apply leaves_ccall_process
  apply leaves_bufferDropAll
  apply leaves_unframe
  exact leaves_markReset leaves_cEnd

/-- All wrappers. -/
theorem leaves_wrapper (language : Language) (kind : ProcessKind) (occasion : Occasion) :
    Leaves realTime .outside
      (wrapper language kind occasion : ProfileProgram Number Int) := by
  cases language with
  | lua =>
      cases kind with
      | process => exact leaves_process occasion
      | bufferSize =>
          apply leaves_luaBegin
          intro ts
          exact keeps_passive trivial fun _ => leaves_exec nofun leaves_luaEnd
      | sync =>
          apply leaves_luaBegin
          intro ts
          exact leaves_exec nofun (keeps_passive trivial fun _ => leaves_luaEnd)
      | timebase => exact leaves_luaBegin fun _ => leaves_exec nofun leaves_luaEnd
  | c =>
      cases kind with
      | process => exact leaves_cprocess occasion
      | bufferSize =>
          apply leaves_begin
          intro ts
          refine keeps_passive trivial fun _ => leaves_ccall nofun fun rc => ?_
          split
          next => exact leaves_luajackError
          next => exact leaves_cEnd
      | sync => exact leaves_begin fun _ => leaves_ccall nofun fun _ => leaves_cEnd
      | timebase => exact leaves_begin fun _ => leaves_ccall nofun fun _ => leaves_cEnd

/-- Another mark is set. -/
theorem keeps_markSet {bit : Nat} {next : ProfileProgram Number α}
    (notBit : bit ≠ Marks.processCallbackBit)
    (continues : CycleKeeps realTime thread post stage next) :
    CycleKeeps realTime thread post stage (markSet bit >>= fun _ => next) :=
  keeps_passive trivial fun _ => keeps_passive notBit fun _ => continues

theorem keeps_markReset {bit : Nat} {next : ProfileProgram Number α}
    (notBit : bit ≠ Marks.processCallbackBit)
    (continues : CycleKeeps realTime thread post stage next) :
    CycleKeeps realTime thread post stage (markReset bit >>= fun _ => next) :=
  keeps_passive trivial fun _ => keeps_passive notBit fun _ => continues

theorem keeps_useBuffers {uses : List (Addr × Port)} {next : ProfileProgram Number α}
    (continues : CycleKeeps realTime thread post stage next) :
    CycleKeeps realTime thread post stage
      (useBuffers .elsewhere uses >>= fun _ => next) := by
  induction uses with
  | nil => exact continues
  | cons use uses ih =>
      refine keeps_passive trivial fun isProcessCallback => ?_
      cases isProcessCallback with
      | true => exact keeps_passive trivial fun _ => ih
      | false => exact ih

theorem keeps_profile (what : LuaValue) :
    CycleKeeps realTime thread (fun (_ : Profiled Number) after => after = stage) stage
      (profile what) := by
  have isProfile : Marks.profileBit ≠ Marks.processCallbackBit := by decide
  unfold profile
  split
  next => exact keeps_passive trivial fun _ => rfl
  next =>
    split
    next => exact rfl
    next =>
      split
      next => exact keeps_passive trivial fun _ => keeps_markSet isProfile rfl
      next =>
        split
        next => exact keeps_markSet isProfile rfl
        next =>
          split
          next => exact keeps_markReset isProfile rfl
          next => exact rfl

/-! ## Runs -/

omit [Zero Number] [Add Number] [Sub Number] [Mul Number] [Div Number] [NatCast Number]
  [LT Number] [DecidableLT Number] [DecidableEq Number] in
/-- A call returns in the state in which its thread waits. -/
theorem returns_outside (thread : Thread ι) (event : Event Number) :
    (cycleDiscipline Number realTime).Returns thread event .outside := by
  intro ghosts shared log turn
  have isIdle : Function.update ghosts thread Stage.outside = ghosts := by
    rw [← turn.isGhost, Function.update_eq_self]
  have isStage := congrFun isIdle (.jack realTime)
  exact (congrArg (fun now : Stage => now.Holds shared) isStage).mpr turn.holds

/-- Every call keeps to the stages. -/
theorem keeps_calls {program : ProfileProgram Number (Event Number)}
    (offered : (undisturbed ι Number realTime).calls thread program) :
    (cycleDiscipline Number realTime).Keeps (undisturbed ι Number realTime).meaning thread
      ((cycleDiscipline Number realTime).Returns thread) .outside program := by
  have ends : CycleKeeps realTime thread
      (fun _ after => after = .outside) .outside program := by
    rcases offered with ⟨offered, isRealTime⟩
    cases thread with
    | main =>
        rcases offered with ⟨what, rfl⟩ | rfl | ⟨pud, rfl⟩ | ⟨uses, rfl⟩
        · exact (keeps_profile what).bind fun _ _ same => same
        · exact keeps_markReset (by decide) rfl
        · exact keeps_passive trivial fun _ => rfl
        · exact keeps_useBuffers rfl
    | jack index =>
        rcases offered with ⟨language, kind, occasion, rfl⟩
        cases isRealTime index rfl
        exact (leaves_wrapper language kind occasion).bind fun _ _ same => same
    | other index =>
        rcases offered with rfl | ⟨uses, rfl⟩
        · exact keeps_passive trivial fun _ => rfl
        · exact keeps_useBuffers rfl
  apply ends.imp
  rintro event _ rfl
  exact returns_outside thread event

/-- In an undisturbed run the client is outside of the process callback whenever JACK's
thread is not in a wrapper. -/
theorem outside_of_undisturbed {shared : Shared Number}
    {config : Config (Thread ι) (ProfileOp Number) ProfileOp.Answer
      (Event Number) (Shared Number)}
    (start : Outside shared.toCycle) (quiet : shared.calling = false)
    (run : (undisturbed ι Number realTime).Reaches shared config)
    (returned : config.running (.jack realTime) = none) :
    Outside config.shared.toCycle := by
  have begins : (cycleDiscipline Number realTime).invariant
      (cycleDiscipline Number realTime).idle shared [] := ⟨fun _ => quiet, start⟩
  rcases Discipline.justified_of_reaches begins
    (fun _ => trivial) (fun _ _ => keeps_calls) run with
    ⟨ghosts, justified⟩
  have holds : Stage.Holds (ghosts (.jack realTime)) config.shared := justified.holds
  rw [justified.outside _ returned] at holds
  exact holds.reached

end Programs

/-! ## The process callback -/

/-- In every undisturbed run the client is outside of its process callback whenever
JACK's thread is not in a wrapper. A call without other threads leaves it exactly if the
Lua function raises no error, or the C function returns 0, whatever else the function
does. -/
theorem outside_iff (ι Number : Type) [DecidableEq ι]
    [Zero Number] [Add Number] [Sub Number]
    [Mul Number] [Div Number] [NatCast Number] [LT Number] [DecidableLT Number]
    [DecidableEq Number] :
    (∀ (realTime : ι) (shared : Shared Number)
      (config : Config (Thread ι) (ProfileOp Number) ProfileOp.Answer (Event Number)
        (Shared Number)),
      Outside shared.toCycle → shared.calling = false →
        (undisturbed ι Number realTime).Reaches shared config →
          config.running (.jack realTime) = none → Outside config.shared.toCycle) ∧
    ∀ client : Client Number, client.surroundings.exiting = none →
      client.marks.get Marks.validBit = true → ∀ nframes,
        (∀ (callback : Callback Number) name,
          client.surroundings.registry (client.surroundings.refs .process) = some name →
            (Outside (RealTime.process callback nframes client).2.cycle ↔
              (callback name [.value (.integer (nframes.setWidth 64))]
                client.surroundings).1.isOk = true)) ∧
        ∀ callback : CCallback,
        Outside (RealTime.cprocess callback nframes client).2.cycle ↔
          (callback nframes client.surroundings).1 = 0 := by
  constructor
  · intro realTime shared config start quiet run returned
    exact outside_of_undisturbed start quiet run returned
  · intro client running valid nframes
    exact ⟨fun _ _ found => outside_process_iff running valid nframes found,
      fun _ => outside_cprocess_iff running valid nframes⟩

/-! ## Concrete runs of the process callback -/

/-- A valid client with one port. -/
def portShared : Shared Int where
  marks := 1
  nframes := 0
  bufferSize := 256
  fifo := [0x602010]
  puds := fun _ => .dropped
  calling := false
  stat := .reset
  exiting := false
  samples := []

/-- The Lua function retrieves the buffer of the port. -/
def retrieving : ProfileProgram Int (Event Int) := do
  return .returned .lua .process
    (← wrapper .lua .process ⟨256, [(0x602010, ⟨some 0x700000, 256, 0⟩)], [], 1⟩)

/-- The main thread turns the profiling on. -/
def starting : ProfileProgram Int (Event Int) := do
  return .profiled (← profile (.string (chars "start")))

/-- Code of another thread retrieves it. -/
def retrievingElsewhere : ProfileProgram Int (Event Int) := do
  useBuffers .elsewhere [(0x602010, ⟨some 0x700000, 256, 0⟩)]
  return .used

/-- Another thread begins while the function runs, and its last accesses may come after
the wrapper has returned. -/
def meanwhile (thread : Thread Unit) (program : ProfileProgram Int (Event Int))
    (early late : Nat) :
    List (System.Turn (Thread Unit) (ProfileOp Int) ProfileOp.Answer (Event Int)) :=
  .start (.jack ()) retrieving :: List.replicate 9 (.act (.jack ())) ++
    .start thread program :: List.replicate early (.act thread) ++
      List.replicate 9 (.act (.jack ())) ++ List.replicate late (.act thread)

theorem offered_meanwhile {other thread : Thread Unit}
    {program begun : ProfileProgram Int (Event Int)} {early late : Nat}
    (offered : (cycling Unit Int ()).calls other program)
    (member : .start thread begun ∈ meanwhile other program early late) :
    (cycling Unit Int ()).calls thread begun := by
  simp only [meanwhile, List.cons_append, List.append_assoc,
    List.mem_cons, List.mem_append,
    List.mem_replicate, System.Turn.start.injEq, reduceCtorEq, and_false, false_or,
    or_false] at member
  rcases member with ⟨rfl, rfl⟩ | ⟨rfl, rfl⟩
  · exact ⟨⟨.lua, .process, _, rfl⟩, fun _ _ => rfl⟩
  · exact offered

theorem offered_starting : (cycling Unit Int ()).calls .main starting :=
  ⟨.inl ⟨_, rfl⟩, fun _ isJack => nomatch isJack⟩

theorem offered_retrievingElsewhere :
    (cycling Unit Int ()).calls (.other ()) retrievingElsewhere :=
  ⟨.inr ⟨_, rfl⟩, fun _ isJack => nomatch isJack⟩

instance : (op : ProfileOp Number) → (shared : Shared Number) → (answer : op.Answer) →
    Decidable (Undisturbed op shared answer)
  | .pcall .process, _, succeeds => inferInstanceAs (Decidable (succeeds = true))
  | .ccall .process, _, rc => inferInstanceAs (Decidable ((rc : Int) = 0))
  | .setMarks bit marks, shared, _ =>
      inferInstanceAs (Decidable (bit ≠ Marks.processCallbackBit →
        marks.get Marks.processCallbackBit = true →
          shared.marks.get Marks.processCallbackBit = true))
  | .setPort .elsewhere _ _, shared, _ =>
      inferInstanceAs (Decidable (shared.calling = true))
  | .pcall .bufferSize, _, _ | .pcall .sync,
  _, _ | .pcall .timebase, _, _ => .isTrue trivial
  | .ccall .bufferSize, _, _ | .ccall .sync,
  _, _ | .ccall .timebase, _, _ => .isTrue trivial
  | .setPort .callback _ _, _, _ | .setNframes _,
  _, _ | .setBufferSize _, _, _ => .isTrue trivial
  | .isCudProfile _, _, _ | .isCudValid, _,
  _ | .isProcessCallback, _, _ => .isTrue trivial
  | .getMarks, _, _ | .getStat, _, _ | .first, _, _ | .next _, _, _ => .isTrue trivial
  | .drop _, _, _ | .more, _, _ | .insertTail _, _, _ | .exiting, _, _ => .isTrue trivial
  | .luajackError, _, _ | .luajackNow _, _, _ | .statReset, _, _ => .isTrue trivial
  | .statUpdate _, _, _ | .rawgeti _, _, _ | .enter _,
  _, _ | .toboolean, _, _ => .isTrue trivial

/-- An undisturbed access, if it is possible. -/
def attemptUndisturbed (op : ProfileOp Int) (shared : Shared Int) :
    Option (op.Answer × Shared Int) :=
  (attempt op shared).filter fun result => Undisturbed op shared result.1

theorem meaning_of_attemptUndisturbed {op : ProfileOp Int} {before after : Shared Int}
    {answer : op.Answer}
    (performed : attemptUndisturbed op before = some (answer, after)) :
    (undisturbed Unit Int ()).meaning op before answer after := by
  rcases Option.filter_eq_some_iff.mp performed with ⟨performed, isUndisturbed⟩
  exact ⟨of_decide_eq_true isUndisturbed, meaning_of_attempt performed⟩

theorem outside_iff_starting :
    ∃ config, (undisturbed Unit Int ()).Reaches portShared config ∧
    config.log.length = 2 ∧ Outside config.shared.toCycle := by
  have reached : ∃ config, System.schedule attemptUndisturbed (.initial portShared)
      (meanwhile .main starting 3 0) = some config ∧ config.running (.jack ()) = none ∧
        config.log.length = 2 := ⟨_, rfl, rfl, rfl⟩
  rcases reached with ⟨config, reached, returned, isLog⟩
  have run : (undisturbed Unit Int ()).Reaches portShared config := by
    apply System.steps_of_schedule
      (fun _ _ _ _ => meaning_of_attemptUndisturbed) _ reached
    exact fun _ _ => offered_meanwhile offered_starting
  have start : Outside portShared.toCycle := ⟨by decide, rfl, fun _ _ => rfl⟩
  exact ⟨config, run, isLog, (outside_iff Unit Int).1
    () portShared config start rfl run returned⟩

/-- A client with a port and a function for the process callback. -/
def portClient : Client Nat where
  surroundings :=
    { exiting := none
      refs := fun kind => if kind = .process then 1 else noRef
      registry := fun ref => if ref = 1 then some 5 else none
      fifo := [0x602010]
      puds := fun _ => .dropped }
  marks := 1
  nframes := 0
  bufferSize := 256
  stack := []

/-- What is left when the buffer of the port has been retrieved. -/
def retrieved (surroundings : Surroundings) : Surroundings :=
  { surroundings with puds := fun _ => ⟨some 0x700000, 256, 0⟩ }

/-- The function retrieves the buffer of the port and raises an error. -/
theorem buffer_kept : ¬ Outside (RealTime.process
    (fun _ _ surroundings => (.error .nil, retrieved surroundings))
      256 portClient).2.cycle := by
  intro outside
  have isDropped := outside.ports 0x602010 (List.mem_singleton.mpr rfl)
  exact absurd isDropped (by decide)

/-- The function succeeds, but the main thread brings back the mark when it turns the
profiling on. -/
theorem mark_brought_back : ∃ config, (cycling Unit Int ()).Reaches portShared config ∧
    config.Quiet ∧ ¬ Outside config.shared.toCycle := by
  have reached : ∃ config, System.schedule attempt (.initial portShared)
      (meanwhile .main starting 2 1) = some config ∧
        (∀ thread, config.running thread = none) ∧
        config.shared.marks = 7 := ⟨_, rfl, fun thread => by cases thread <;> rfl, rfl⟩
  rcases reached with ⟨config, reached, quiet, isMarks⟩
  refine ⟨config, ?_, quiet, ?_⟩
  · exact System.steps_of_schedule (fun _ _ _ _ => meaning_of_attempt)
      (fun _ _ => offered_meanwhile offered_starting) reached
  · intro outside
    have notMarked := outside.notMarked
    rw [isMarks] at notMarked
    exact absurd notMarked (by decide)

/-- The function succeeds, but another thread, which has found the mark, retrieves the
buffer after it. -/
theorem buffer_retrieved_late :
    ∃ config, (cycling Unit Int ()).Reaches portShared config ∧
    config.Quiet ∧ ¬ Outside config.shared.toCycle := by
  have reached : ∃ config, System.schedule attempt (.initial portShared)
      (meanwhile (.other ()) retrievingElsewhere 1 1) = some config ∧
        (∀ thread, config.running thread = none) ∧ config.shared.fifo = [0x602010] ∧
          config.shared.puds 0x602010 = ⟨some 0x700000, 256, 0⟩ :=
    ⟨_, rfl, fun thread => by cases thread <;> rfl, rfl, rfl⟩
  rcases reached with ⟨config, reached, quiet, isFifo, isPort⟩
  refine ⟨config, ?_, quiet, ?_⟩
  · exact System.steps_of_schedule (fun _ _ _ _ => meaning_of_attempt)
      (fun _ _ => offered_meanwhile offered_retrievingElsewhere) reached
  · intro outside
    have isDropped := outside.ports 0x602010 (isFifo ▸ List.mem_singleton_self _)
    rw [isPort] at isDropped
    exact absurd isDropped (by decide)

end LuaJack.Profiling
