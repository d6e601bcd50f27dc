import LuaJack.RealTime.Cleanup
import LuaJack.RealTime.Profile

/-!
# A wrapper alone

When no other thread interferes, the programs of `Process` and `CProcess` over single
accesses do what the wrappers do in one piece. -/

namespace LuaJack.Profiling

open Atomic RealTime

variable {Number α : Type}

/-- The entries of ports after a function has used their buffers. -/
def used : List (Addr × Port) → (Addr → Port) → Addr → Port
  | [], puds => puds
  | (pud, port) :: uses, puds => used uses (Function.update puds pud port)

/-- What the threads share is as the wrappers find it. -/
structure Shows (shared : Shared Number) (client : Client Number) : Prop where
  cycle : shared.toCycle = client.cycle
  exiting : shared.exiting = client.surroundings.exiting.isSome

/-- The surroundings after a function has used buffers. -/
def usedIn (uses : List (Addr × Port)) (surroundings : Surroundings) : Surroundings :=
  { surroundings with puds := used uses surroundings.puds }

/-- What a called function leaves. -/
def called (shared : Shared Number) (uses : List (Addr × Port)) : Shared Number :=
  { shared with puds := used uses shared.puds, calling := false }

/-- What a call leaves that fails. -/
def failed (shared : Shared Number) (nframes : BitVec 32) (uses : List (Addr × Port)) :
    Shared Number :=
  { shared with
    marks := shared.marks.set Marks.processCallbackBit
    nframes
    bufferSize := nframes
    puds := used uses shared.puds
    calling := false
    exiting := true }

/-- What a call leaves that succeeds, before its end is profiled. -/
def cleaned (shared : Shared Number) (nframes : BitVec 32) (uses : List (Addr × Port)) :
    Shared Number :=
  { shared with
    marks := (shared.marks.set Marks.processCallbackBit).reset Marks.processCallbackBit
    nframes := 0
    bufferSize := nframes
    puds := dropAll shared.fifo (used uses shared.puds)
    calling := false }

section Shows

variable {client : Client Number} {shared : Shared Number} {uses : List (Addr × Port)}
variable (nframes : BitVec 32)

theorem shows_failed (shows : Shows shared client) (fmt : Option CString)
    (stack : List (Slot Number)) :
    Shows (failed shared nframes uses)
      (failedInside client nframes fmt (usedIn uses client.surroundings) stack) := by
  rcases shared with ⟨cycle, calling, stat, exiting, samples⟩
  have isCycle : cycle = client.cycle := shows.cycle
  subst isCycle
  exact ⟨rfl, rfl⟩

theorem cycle_cleaned (shows : Shows shared client) :
    (cleaned shared nframes uses).toCycle =
      (cleanup (inside client nframes (usedIn uses client.surroundings))).2.cycle := by
  rcases shared with ⟨cycle, calling, stat, exiting, samples⟩
  have isCycle : cycle = client.cycle := shows.cycle
  subst isCycle
  rfl

end Shows

theorem behind_append {pud : Addr} {front rest : List Addr} (notFront : pud ∉ front) :
    ProfileOp.behind pud (front ++ pud :: rest) = rest.head? := by
  induction front with
  | nil => exact if_pos rfl
  | cons head front ih =>
      have different : head ≠ pud := fun same => notFront (same ▸ List.mem_cons_self)
      rw [List.cons_append, ProfileOp.behind, if_neg different]
      exact ih fun member => notFront (List.mem_cons_of_mem head member)

section Programs

variable [Zero Number] [Add Number] [Sub Number]
  [Mul Number] [Div Number] [NatCast Number]
variable [LT Number] [DecidableLT Number]
variable {before after : Shared Number} {value : α} {next : ProfileProgram Number α}

/-- The program has a run without other threads. -/
def Alone (program : ProfileProgram Number α) (before : Shared Number) (value : α)
    (after : Shared Number) : Prop :=
  ∃ history, program.Runs ProfileOp.meaning before history value after

/-- One access. -/
theorem alone_op {op : ProfileOp Number} {next : op.Answer → ProfileProgram Number α}
    {answer : op.Answer} {middle : Shared Number}
    (performed : ProfileOp.meaning op before answer middle)
    (rest : Alone (next answer) middle value after) :
    Alone (profileOp op >>= next) before value after := by
  rcases rest with ⟨history, run⟩
  exact ⟨_, .act performed run⟩

/-- One access to something that tells the answer. -/
theorem alone_read {op : ProfileOp Number} {next : op.Answer → ProfileProgram Number α}
    {answer : op.Answer} (possible : op.Possible before)
    (reads : op.exec (answering 0 true 0) before = (answer, before))
    (rest : Alone (next answer) before value after) :
    Alone (profileOp op >>= next) before value after :=
  alone_op ⟨possible, answering 0 true 0, reads.symm⟩ rest

/-- One access that changes something. -/
theorem alone_write {op : ProfileOp Number} {next : op.Answer → ProfileProgram Number α}
    (possible : op.Possible before)
    (rest : Alone (next (op.exec (answering 0 true 0) before).1)
      (op.exec (answering 0 true 0) before).2 value after) :
    Alone (profileOp op >>= next) before value after :=
  alone_op ⟨possible, answering 0 true 0, rfl⟩ rest

theorem alone_markSet {bit : Nat}
    (rest : Alone next { before with marks := before.marks.set bit } value after) :
    Alone (markSet bit >>= fun _ => next) before value after := by
  refine alone_write trivial ?_
  exact alone_write trivial rest

theorem alone_markReset {bit : Nat}
    (rest : Alone next { before with marks := before.marks.reset bit } value after) :
    Alone (markReset bit >>= fun _ => next) before value after := by
  refine alone_write trivial ?_
  exact alone_write trivial rest

/-- Inside of the process callback a function can use buffers. -/
theorem alone_uses_inside {user : User} {uses : List (Addr × Port)}
    (marked : before.marks.get Marks.processCallbackBit = true)
    (rest : Alone next { before with puds := used uses before.puds } value after) :
    Alone (useBuffers user uses >>= fun _ => next) before value after := by
  induction uses generalizing before with
  | nil => exact rest
  | cons use uses ih =>
      refine alone_read trivial (Prod.ext marked rfl) ?_
      exact alone_write trivial (ih marked rest)

/-- Outside of it no buffer is used. -/
theorem alone_uses_outside {user : User} {uses : List (Addr × Port)}
    (notMarked : before.marks.get Marks.processCallbackBit = false)
    (rest : Alone next before value after) :
    Alone (useBuffers user uses >>= fun _ => next) before value after := by
  induction uses with
  | nil => exact rest
  | cons use uses ih => exact alone_read trivial (Prod.ext notMarked rfl) ih

/-- The walk through the rest of a queue. -/
theorem alone_dropFrom {front fifo : List Addr} (isFifo : before.fifo = front ++ fifo)
    (nodup : before.fifo.Nodup)
    (rest : Alone next { before with puds := dropAll fifo before.puds } value after) :
    Alone (dropFrom fifo.length fifo.head? >>= fun _ => next) before value after := by
  induction fifo generalizing before front with
  | nil => exact rest
  | cons pud fifo ih =>
      have notFront : pud ∉ front := by
        rw [isFifo] at nodup
        intro member
        exact (List.nodup_append.mp nodup).2.2 pud member pud List.mem_cons_self rfl
      have isNext : ProfileOp.behind pud before.fifo = fifo.head? := by
        rw [isFifo, behind_append notFront]
      have isRest : before.fifo = (front ++ [pud]) ++ fifo := by
        rw [isFifo, List.append_assoc, List.singleton_append]
      refine alone_write trivial ?_
      refine alone_read trivial (Prod.ext isNext rfl) ?_
      exact ih isRest nodup rest

theorem alone_bufferDropAll {rounds : Nat} (isRounds : rounds = before.fifo.length)
    (nodup : before.fifo.Nodup)
    (rest : Alone next { before with
      puds := dropAll before.fifo before.puds } value after) :
    Alone (bufferDropAll rounds >>= fun _ => next) before value after := by
  subst isRounds
  refine alone_read trivial rfl ?_
  exact alone_dropFrom (List.nil_append _).symm nodup rest

/-- A call begins, and the clock shows nothing. -/
theorem alone_begin {rest : Number → ProfileProgram Number Int} {value : Int}
    (running : before.exiting = false) (valid : before.marks.get Marks.validBit = true)
    (continues : Alone (rest 0) before value after) :
    Alone (begin rest) before value after := by
  have enters : Alone (do
      if ← profileOp .exiting then return 0
      else if !(← profileOp .isCudValid) then return 0
      else rest 0) before value after := by
    refine alone_read trivial (Prod.ext running rfl) ?_
    exact alone_read trivial (Prod.ext valid rfl) continues
  cases isProfile : before.marks.get Marks.profileBit with
  | true =>
      refine alone_read trivial (Prod.ext isProfile rfl) ?_
      exact alone_read trivial rfl enters
  | false => exact alone_read trivial (Prod.ext isProfile rfl) enters

/-- An empty history. -/
theorem alone_done (value : α) (shared : Shared Number) :
    Alone (pure value : ProfileProgram Number α) shared value shared :=
  ⟨[], .done value shared⟩

/-! ## The process callback -/

/-- The end of a wrapper of a C function, which may be profiled. -/
theorem alone_cEnd (shared : Shared Number) : ∃ after, Alone (cEnd 0 0) shared 0 after ∧
    after.toCycle = shared.toCycle ∧ after.exiting = shared.exiting := by
  cases isProfile : shared.marks.get Marks.profileBit with
  | true =>
      refine ⟨{ shared with
          stat := shared.stat.update (0 - 0)
          samples := shared.samples ++ [0 - 0] },
        ?_, rfl, rfl⟩
      refine alone_read trivial (Prod.ext isProfile rfl) ?_
      refine alone_read trivial rfl ?_
      exact alone_write trivial (alone_done 0 _)
  | false =>
      exact ⟨shared, alone_read trivial (Prod.ext isProfile rfl)
        (alone_done 0 _), rfl, rfl⟩

/-- The Lua function returns, or raises an error. -/
theorem alone_exec {uses : List (Addr × Port)}
    {rest : ProfileProgram Number Int} {value : Int}
    (succeeds : Bool) (marked : before.marks.get Marks.processCallbackBit = true)
    (continues : Alone (if !succeeds then luajackError else rest)
      (called before uses) value
      after) :
    Alone (exec .process uses rest) before value after := by
  refine alone_write trivial ?_
  refine alone_uses_inside marked ?_
  exact alone_op ⟨trivial, answering 0 succeeds 0, rfl⟩ continues

/-- The C function returns. -/
theorem alone_ccall {uses : List (Addr × Port)} {next : Int → ProfileProgram Number α}
    (rc : Int) (marked : before.marks.get Marks.processCallbackBit = true)
    (continues : Alone (next rc) (called before uses) value after) :
    Alone (ccall .process uses >>= next) before value after := by
  unfold ccall
  rw [Program.bind_bind]
  refine alone_write trivial ?_
  rw [Program.bind_bind]
  refine alone_uses_inside marked ?_
  exact alone_op ⟨trivial, answering 0 true rc, rfl⟩ continues

section Process

variable {shared : Shared Number} {uses : List (Addr × Port)}
variable (running : shared.exiting = false)
  (valid : shared.marks.get Marks.validBit = true)
variable (nodup : shared.fifo.Nodup) (nframes : BitVec 32)
  (finalizers : List (Addr × Port))
include running valid

theorem alone_process_failed [DecidableEq Number] (rounds : Nat) :
    Alone (process ⟨nframes, uses, finalizers, rounds⟩) shared 0
      (failed shared nframes uses) := by
  refine alone_begin running valid ?_
  refine alone_read trivial rfl ?_
  refine alone_markSet ?_
  refine alone_write trivial ?_
  refine alone_write trivial ?_
  refine alone_exec false (Marks.get_set _) ?_
  exact alone_write trivial (alone_done 0 _)

theorem alone_cprocess_failed {rc : Int} (nonzero : rc ≠ 0) (rounds : Nat) :
    Alone (cprocess ⟨nframes, uses, finalizers, rounds⟩) shared 0
      (failed shared nframes uses) := by
  refine alone_begin running valid ?_
  refine alone_markSet ?_
  refine alone_write trivial ?_
  refine alone_write trivial ?_
  refine alone_ccall rc (Marks.get_set _) ?_
  rw [if_pos nonzero]
  exact alone_write trivial (alone_done 0 _)

include nodup

theorem alone_process_cleaned [DecidableEq Number] :
    Alone (process ⟨nframes, uses, finalizers, shared.fifo.length⟩) shared 0
      (cleaned shared nframes uses) := by
  refine alone_begin running valid ?_
  refine alone_read trivial rfl ?_
  refine alone_markSet ?_
  refine alone_write trivial ?_
  refine alone_write trivial ?_
  refine alone_exec true (Marks.get_set _) ?_
  refine alone_bufferDropAll rfl nodup ?_
  refine alone_write trivial ?_
  refine alone_markReset ?_
  refine alone_uses_outside (Marks.get_reset _ (by decide)) ?_
  rw [if_neg (not_not.mpr rfl)]
  exact alone_done 0 _

theorem alone_cprocess_cleaned : ∃ after,
    Alone (cprocess ⟨nframes, uses, finalizers, shared.fifo.length⟩) shared 0 after ∧
      after.toCycle = (cleaned shared nframes uses).toCycle ∧ after.exiting = false := by
  rcases alone_cEnd (cleaned shared nframes uses) with ⟨after, ends, isCycle, isExiting⟩
  refine ⟨after, ?_, isCycle, isExiting.trans running⟩
  refine alone_begin running valid ?_
  refine alone_markSet ?_
  refine alone_write trivial ?_
  refine alone_write trivial ?_
  refine alone_ccall 0 (Marks.get_set _) ?_
  refine alone_bufferDropAll rfl nodup ?_
  refine alone_write trivial ?_
  exact alone_markReset ends

end Process

/-! ## The wrappers in one piece -/

section Shows

variable {client : Client Number} {shared : Shared Number} {uses : List (Addr × Port)}
variable (nframes : BitVec 32)

variable (shows : Shows shared client) (running : client.surroundings.exiting = none)
variable (valid : client.marks.get Marks.validBit = true)
variable (nodup : client.surroundings.fifo.Nodup) (finalizers : List (Addr × Port))
include shows running valid nodup

/-- `Process` leaves what its program leaves. -/
theorem alone_process [DecidableEq Number]
    {callback : Callback Number} {name : LuaFunction}
    (found : client.surroundings.registry (client.surroundings.refs .process) = some name)
    (isUse : (callback name [.value (.integer (nframes.setWidth 64))]
      client.surroundings).2 =
      usedIn uses client.surroundings) :
    ∃ after, Alone (process ⟨nframes, uses, finalizers, shared.fifo.length⟩)
      shared 0 after ∧
      Shows after (RealTime.process callback nframes client).2 := by
  have notExiting : client.surroundings.exiting.isSome = false :=
    congrArg Option.isSome running
  have isMarks : shared.marks = client.marks := congrArg Cycle.marks shows.cycle
  have isFifo : shared.fifo = client.surroundings.fifo := congrArg Cycle.fifo shows.cycle
  rw [← isMarks] at valid
  rw [← isFifo] at nodup
  cases result : callback name [.value (.integer (nframes.setWidth 64))]
    client.surroundings with
  | mk answer surroundings =>
      rw [result] at isUse
      cases isUse
      cases answer with
      | ok results =>
          rw [process_of_ok running (isMarks ▸ valid) nframes found result]
          refine ⟨_, alone_process_cleaned (shows.exiting.trans notExiting)
            valid nodup nframes
            finalizers, cycle_cleaned nframes shows, ?_⟩
          exact shows.exiting
      | error value =>
          rw [process_of_error running (isMarks ▸ valid) nframes found result]
          exact
            ⟨_, alone_process_failed (shows.exiting.trans notExiting)
              valid nframes finalizers _,
            shows_failed nframes shows _ _⟩

/-- `CProcess` leaves what its program leaves. -/
theorem alone_cprocess {callback : CCallback}
    (isUse : (callback nframes client.surroundings).2 = usedIn uses client.surroundings) :
    ∃ after, Alone (cprocess ⟨nframes, uses, finalizers, shared.fifo.length⟩)
      shared 0 after ∧
      Shows after (RealTime.cprocess callback nframes client).2 := by
  have notExiting : client.surroundings.exiting.isSome = false :=
    congrArg Option.isSome running
  have isMarks : shared.marks = client.marks := congrArg Cycle.marks shows.cycle
  have isFifo : shared.fifo = client.surroundings.fifo := congrArg Cycle.fifo shows.cycle
  rw [← isMarks] at valid
  rw [← isFifo] at nodup
  cases result : callback nframes client.surroundings with
  | mk rc surroundings =>
      rw [result] at isUse
      cases isUse
      by_cases isZero : rc = 0
      · rw [isZero] at result
        rw [cprocess_of_zero running (isMarks ▸ valid) nframes result]
        rcases alone_cprocess_cleaned (shows.exiting.trans notExiting) valid nodup nframes
          finalizers with ⟨after, ends, isCycle, isExiting⟩
        exact ⟨after, ends, isCycle.trans (cycle_cleaned nframes shows),
          isExiting.trans notExiting.symm⟩
      · rw [cprocess_of_nonzero running (isMarks ▸ valid) nframes isZero result]
        exact ⟨_, alone_cprocess_failed (shows.exiting.trans notExiting)
          valid nframes finalizers
          isZero _, shows_failed nframes shows _ _⟩

end Shows

/-- A client with a port and a function for the process callback. -/
def loneClient : Client Int where
  surroundings :=
    { exiting := none
      refs := fun kind => if kind = .process then 1 else noRef
      registry := fun ref => if ref = 1 then some 5 else none
      fifo := [0x602010]
      puds := fun _ => .dropped }
  marks := 1
  nframes := 0
  bufferSize := 256
  stack := []

/-- What the threads share of this client. -/
def loneShared : Shared Int where
  toCycle := loneClient.cycle
  calling := false
  stat := .reset
  exiting := false
  samples := []

/-- The buffer of the port. -/
def loneUses : List (Addr × Port) := [(0x602010, ⟨some 0x700000, 256, 0⟩)]

theorem alone_process_retrieving :
    ∃ after, Alone (process ⟨256, loneUses, [], 1⟩) loneShared 0 after ∧
      Shows after (RealTime.process
        (fun _ _ surroundings => (.ok [], usedIn loneUses surroundings))
          256 loneClient).2 := by
  have shows : Shows loneShared loneClient := ⟨rfl, rfl⟩
  exact alone_process 256 shows rfl (by decide) (by decide) [] rfl rfl

theorem alone_cprocess_failing :
    ∃ after, Alone (cprocess ⟨256, loneUses, [], 1⟩) loneShared 0 after ∧
      Shows after (RealTime.cprocess
        (fun _ surroundings => (-1, usedIn loneUses surroundings)) 256 loneClient).2 := by
  have shows : Shows loneShared loneClient := ⟨rfl, rfl⟩
  exact alone_cprocess 256 shows rfl (by decide) (by decide) [] rfl

end Programs

end LuaJack.Profiling
