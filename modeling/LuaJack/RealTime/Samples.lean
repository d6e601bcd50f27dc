import LuaJack.RealTime.Profile

/-!
# What the samples measure

A call of a wrapper that finds the profiling on reads the clock, and passes the time to
the statistics at its end.  A wrapper of a C function also does so when the profiling
has been turned on in the meantime, and then it has not read the clock before. -/

namespace LuaJack.Profiling

open Atomic Program

variable {ι Number : Type}

/-! ## Measurements -/

/-- What a call has found out about the flag and the clock, and what it has passed to the
statistics. -/
structure Measurement (Number : Type) where
  entered : Option Bool
  start : Option Number
  left : Option Bool
  stop : Option Number
  samples : List Number
  deriving DecidableEq

namespace Measurement

/-- Nothing has been found out. -/
def empty : Measurement Number where
  entered := none
  start := none
  left := none
  stop := none
  samples := []

/-- The measurement after one more access. -/
def note (measurement : Measurement Number) : (op : ProfileOp Number) → op.Answer →
    Measurement Number
  | .isCudProfile .entry, answer => { measurement with entered := some answer }
  | .isCudProfile .exit, answer => { measurement with left := some answer }
  | .luajackNow .entry, time => { measurement with start := some time }
  | .luajackNow .exit, time => { measurement with stop := some time }
  | .statUpdate sample, _ =>
      { measurement with samples := measurement.samples ++ [sample] }
  | _, _ => measurement

/-- Every sample is the time between the two readings of the clock, both of which the
call has made. -/
def Own [Sub Number] (measurement : Measurement Number) : Prop :=
  ∀ sample ∈ measurement.samples, ∃ start stop,
    measurement.start = some start ∧ measurement.stop = some stop ∧ sample = stop - start

/-- The flag was clear at the begin of the call and is set at its end. -/
def Late (measurement : Measurement Number) : Prop :=
  measurement.entered = some false ∧ measurement.left = some true

end Measurement

/-- The accesses of a call, with their answers. -/
abbrev History (Number : Type) := List (Occurrence (ProfileOp Number) ProfileOp.Answer)

/-- What the accesses of a call add up to. -/
def measure (history : History Number) : Measurement Number :=
  history.foldl (fun measurement occurrence =>
    measurement.note occurrence.op occurrence.answer)
    .empty

/-- A state of the system, with the history of every call in the log. -/
abbrev Recording (ι Number : Type) :=
  Config (Thread ι) (ProfileOp Number) ProfileOp.Answer (History Number × Event Number)
    (Shared Number)

/-- The log accounts for all samples, and each is the time that its own call has taken. -/
structure Accounted [Sub Number] (config : Recording ι Number) : Prop where
  all : config.shared.samples = config.log.flatMap fun entry =>
    (measure entry.2.1).samples
  own : ∀ entry ∈ config.log, (measure entry.2.1).Own

/-! ## What the programs do -/

/-- After a sample nothing more is done. -/
def step (measurement : Measurement Number) (op : ProfileOp Number) (answer : op.Answer) :
    Option (Measurement Number) :=
  if measurement.samples = [] then some (measurement.note op answer) else none

theorem step_iff {measurement after : Measurement Number} {op : ProfileOp Number}
    {answer : op.Answer} : step measurement op answer = some after ↔
      measurement.samples = [] ∧ measurement.note op answer = after := by
  unfold step
  split
  next quiet => simp only [quiet, Option.some.injEq, true_and]
  next given => simp only [given, reduceCtorEq, false_and]

/-- A history that keeps to the protocol adds up to its last state. -/
theorem measure_of_play {history : History Number} {final : Measurement Number}
    (played : play step .empty history = some final) :
    measure history = final := by
  apply foldl_of_play _ played
  intro measurement op answer after stepped
  exact (step_iff.mp stepped).2

/-- The call has begun, and has the time of its begin if it has read the clock. -/
structure Begun [Zero Number] (ts : Number)
    (measurement : Measurement Number) : Prop where
  quiet : measurement.samples = []
  inside : measurement.left = none
  time : (measurement.entered = some true ∧ measurement.start = some ts) ∨
    (measurement.entered = some false ∧ measurement.start = none ∧ ts = 0)

section Programs

variable [Sub Number] {α β : Type} {language : Language}
  {measurement : Measurement Number}
variable {ts : Number} {rc : Int}

/-- What holds when a call returns. The wrappers of Lua functions do not look at the
flag at their end. -/
structure Fit (language : Language) (final : Measurement Number) : Prop where
  own : final.Own ↔ ¬ final.Late
  lua : language = .lua → final.left = none

/-- The program passes its own times to the statistics, if it is not too late for this. -/
abbrev Fitting (language : Language) (measurement : Measurement Number)
    (program : ProfileProgram Number α) : Prop :=
  Follows step (fun _ => Fit language) measurement program

omit [Sub Number] in
theorem not_late_of_inside (inside : measurement.left = none) : ¬ measurement.Late := by
  intro late
  cases inside.symm.trans late.2

theorem own_of_quiet (quiet : measurement.samples = []) : measurement.Own := by
  intro sample member
  rw [quiet] at member
  cases member

/-- One access. -/
theorem fitting_op {op : ProfileOp Number} {next : op.Answer → ProfileProgram Number β}
    (quiet : measurement.samples = [])
    (rest : ∀ answer, Fitting language (measurement.note op answer) (next answer)) :
    Fitting language measurement (profileOp op >>= next) := by
  apply Follows.perform
  intro answer
  exact ⟨_, step_iff.mpr ⟨quiet, rfl⟩, rest answer⟩

/-- The call may return early. -/
theorem fitting_return (quiet : measurement.samples = [])
    (inside : measurement.left = none)
    (value : α) : Fitting language measurement (pure value) where
  own := iff_of_true (own_of_quiet quiet) (not_late_of_inside inside)
  lua := fun _ => inside

/-- A call that has nothing to do with the clock. -/
theorem fitting_empty (value : α) :
    Fitting language (.empty : Measurement Number) (pure value) :=
  fitting_return rfl rfl value

theorem fitting_markSet {bit : Nat} {next : ProfileProgram Number β}
    (quiet : measurement.samples = []) (rest : Fitting language measurement next) :
    Fitting language measurement (markSet bit >>= fun _ => next) :=
  fitting_op quiet fun _ => fitting_op quiet fun _ => rest

theorem fitting_markReset {bit : Nat} {next : ProfileProgram Number β}
    (quiet : measurement.samples = []) (rest : Fitting language measurement next) :
    Fitting language measurement (markReset bit >>= fun _ => next) :=
  fitting_op quiet fun _ => fitting_op quiet fun _ => rest

/-- Using buffers has nothing to do with the clock either. -/
theorem fitting_useBuffers {user : User} {uses : List (Addr × RealTime.Port)}
    {next : ProfileProgram Number β} (quiet : measurement.samples = [])
    (rest : Fitting language measurement next) :
    Fitting language measurement (useBuffers user uses >>= fun _ => next) := by
  induction uses with
  | nil => exact rest
  | cons use uses ih =>
      apply fitting_op quiet
      intro isProcessCallback
      cases isProcessCallback with
      | true => exact fitting_op quiet fun _ => ih
      | false => exact ih

theorem fitting_dropFrom {rounds : Nat} {pud : Option Addr}
    {next : ProfileProgram Number β}
    (quiet : measurement.samples = []) (rest : Fitting language measurement next) :
    Fitting language measurement (dropFrom rounds pud >>= fun _ => next) := by
  induction rounds generalizing pud with
  | zero =>
      cases pud with
      | none => exact rest
      | some pud => exact fitting_op quiet fun _ => rest
  | succ rounds ih =>
      cases pud with
      | none => exact rest
      | some pud => exact fitting_op quiet fun _ => fitting_op quiet fun _ => ih

theorem fitting_bufferDropAll {rounds : Nat} {next : ProfileProgram Number β}
    (quiet : measurement.samples = []) (rest : Fitting language measurement next) :
    Fitting language measurement (bufferDropAll rounds >>= fun _ => next) :=
  fitting_op quiet fun _ => fitting_dropFrom quiet rest

theorem fitting_luajackError (quiet : measurement.samples = [])
    (inside : measurement.left = none) : Fitting language measurement luajackError :=
  fitting_op quiet fun _ => fitting_return quiet inside 0

theorem fitting_begin [Zero Number] {rest : Number → ProfileProgram Number Int}
    (continues : ∀ ts measurement, Begun ts measurement →
      Fitting language measurement (rest ts)) :
    Fitting language .empty (begin rest) := by
  have enters (ts : Number) (entered : Measurement Number) (begun : Begun ts entered) :
      Fitting language entered (do
        if ← profileOp .exiting then return 0
        else if !(← profileOp .isCudValid) then return 0
        else rest ts) := by
    apply fitting_op begun.quiet
    intro isExiting
    cases isExiting with
    | true => exact fitting_return begun.quiet begun.inside 0
    | false =>
        apply fitting_op begun.quiet
        intro isValid
        cases isValid with
        | false => exact fitting_return begun.quiet begun.inside 0
        | true => exact continues ts entered begun
  apply fitting_op rfl
  intro isProfile
  cases isProfile with
  | true =>
      apply fitting_op rfl
      intro time
      exact enters time _ ⟨rfl, rfl, .inl ⟨rfl, rfl⟩⟩
  | false =>
      exact enters 0 (Measurement.empty.note (.isCudProfile .entry) false)
        ⟨rfl, rfl, .inr ⟨rfl, rfl, rfl⟩⟩

theorem fitting_luaBegin [Zero Number] {cb : ProcessKind}
    {rest : Number → ProfileProgram Number Int}
    (continues : ∀ ts measurement, Begun ts measurement →
      Fitting language measurement (rest ts)) :
    Fitting language .empty (luaBegin cb rest) := by
  apply fitting_begin
  intro ts measurement begun
  apply fitting_op begun.quiet
  intro isFunction
  cases isFunction with
  | true => exact continues ts measurement begun
  | false => exact fitting_luajackError begun.quiet begun.inside

theorem fitting_exec [Zero Number] {cb : ProcessKind} {uses : List (Addr × RealTime.Port)}
    {rest : ProfileProgram Number Int} (begun : Begun ts measurement)
    (continues : Fitting language measurement rest) :
    Fitting language measurement (exec cb uses rest) := by
  apply fitting_op begun.quiet
  intro _
  apply fitting_useBuffers begun.quiet
  apply fitting_op begun.quiet
  intro succeeds
  cases succeeds with
  | true => exact continues
  | false => exact fitting_luajackError begun.quiet begun.inside

theorem fitting_ccall [Zero Number] {cb : ProcessKind}
    {uses : List (Addr × RealTime.Port)}
    {next : Int → ProfileProgram Number β} (begun : Begun ts measurement)
    (continues : ∀ rc, Fitting language measurement (next rc)) :
    Fitting language measurement (ccall cb uses >>= next) := by
  unfold ccall
  rw [Program.bind_bind]
  apply fitting_op begun.quiet
  intro _
  rw [Program.bind_bind]
  apply fitting_useBuffers begun.quiet
  exact fitting_op begun.quiet continues

/-- A call passes its own time to the statistics if it has read the clock at its begin. -/
theorem fitting_since (quiet : measurement.samples = [])
    (isOwn : measurement.start = some ts ↔ ¬ measurement.Late)
    (isNone : measurement.start = some ts ∨ measurement.start = none)
    (lua : language = .lua → measurement.left = none) :
    Fitting language measurement (do since ts; return rc) := by
  apply fitting_op quiet
  intro now
  refine fun _ => ⟨_, step_iff.mpr ⟨quiet, rfl⟩, Iff.trans ?_ isOwn, lua⟩
  constructor
  · intro own
    rcases own (now - ts) (List.mem_append_right _ (List.mem_singleton_self _)) with
      ⟨start, stop, isStart, _⟩
    rcases isNone with isTime | isNone
    · exact isTime
    · cases isNone.symm.trans isStart
  · intro isStart sample member
    rcases List.mem_append.mp member with earlier | last
    · have member : sample ∈ measurement.samples := earlier
      rw [quiet] at member
      cases member
    · exact ⟨ts, now, isStart, rfl, List.mem_singleton.mp last⟩

theorem fitting_luaEnd [Zero Number] [DecidableEq Number]
    {finalizers : List (Addr × RealTime.Port)} (begun : Begun ts measurement) :
    Fitting language measurement (luaEnd finalizers ts rc) := by
  apply fitting_useBuffers begun.quiet
  split
  next taken =>
    rcases begun.time with ⟨_, isStart⟩ | ⟨_, _, isZero⟩
    · have isOwn := iff_of_true isStart (not_late_of_inside begun.inside)
      exact fitting_since begun.quiet isOwn (.inl isStart) fun _ => begun.inside
    · exact absurd isZero taken
  next => exact fitting_return begun.quiet begun.inside rc

theorem fitting_cEnd [Zero Number] (begun : Begun ts measurement) :
    Fitting .c measurement (cEnd ts rc) := by
  apply fitting_op begun.quiet
  intro isProfile
  cases isProfile with
  | true =>
      have quiet : (measurement.note (.isCudProfile .exit) true).samples =
          [] := begun.quiet
      rcases begun.time with ⟨entered, isStart⟩ | ⟨entered, isNone, _⟩
      · refine fitting_since quiet (iff_of_true isStart ?_) (.inl isStart) nofun
        intro late
        cases entered.symm.trans late.1
      · refine fitting_since quiet
          (iff_of_false ?_ (not_not_intro ⟨entered, rfl⟩)) (.inr isNone)
          nofun
        intro isStart
        cases isNone.symm.trans isStart
  | false =>
      have quiet : (measurement.note (.isCudProfile .exit) false).samples =
          [] := begun.quiet
      refine ⟨iff_of_true (own_of_quiet quiet) ?_, nofun⟩
      intro late
      cases late.2

theorem fitting_process [Zero Number] [DecidableEq Number] (occasion : Occasion) :
    Fitting language .empty (process occasion : ProfileProgram Number Int) := by
  apply fitting_luaBegin
  intro ts measurement begun
  apply fitting_markSet begun.quiet
  apply fitting_op begun.quiet
  intro _
  apply fitting_op begun.quiet
  intro _
  apply fitting_exec begun
  apply fitting_bufferDropAll begun.quiet
  apply fitting_op begun.quiet
  intro _
  exact fitting_markReset begun.quiet (fitting_luaEnd begun)

theorem fitting_cprocess [Zero Number] (occasion : Occasion) :
    Fitting .c .empty (cprocess occasion : ProfileProgram Number Int) := by
  apply fitting_begin
  intro ts measurement begun
  apply fitting_markSet begun.quiet
  apply fitting_op begun.quiet
  intro _
  apply fitting_op begun.quiet
  intro _
  apply fitting_ccall begun
  intro rc
  split
  next => exact fitting_luajackError begun.quiet begun.inside
  next =>
    apply fitting_bufferDropAll begun.quiet
    apply fitting_op begun.quiet
    intro _
    exact fitting_markReset begun.quiet (fitting_cEnd begun)

/-- All wrappers. -/
theorem fitting_wrapper [Zero Number] [DecidableEq Number] (language : Language)
    (kind : ProcessKind) (occasion : Occasion) :
    Fitting language .empty
      (wrapper language kind occasion : ProfileProgram Number Int) := by
  cases language with
  | lua =>
      cases kind with
      | process => exact fitting_process occasion
      | bufferSize =>
          apply fitting_luaBegin
          intro ts measurement begun
          exact fitting_op begun.quiet fun _ => fitting_exec begun (fitting_luaEnd begun)
      | sync =>
          apply fitting_luaBegin
          intro ts measurement begun
          exact fitting_exec begun (fitting_op begun.quiet fun _ => fitting_luaEnd begun)
      | timebase =>
          exact fitting_luaBegin fun _ _ begun =>
            fitting_exec begun (fitting_luaEnd begun)
  | c =>
      cases kind with
      | process => exact fitting_cprocess occasion
      | bufferSize =>
          apply fitting_begin
          intro ts measurement begun
          apply fitting_op begun.quiet
          intro _
          apply fitting_ccall begun
          intro rc
          split
          next => exact fitting_luajackError begun.quiet begun.inside
          next => exact fitting_cEnd begun
      | sync =>
          exact fitting_begin fun _ _ begun => fitting_ccall begun fun _ =>
            fitting_cEnd begun
      | timebase =>
          exact fitting_begin fun _ _ begun => fitting_ccall begun fun _ =>
            fitting_cEnd begun

theorem fitting_profile [Zero Number] [Div Number] [NatCast Number] (what : LuaValue) :
    Fitting language .empty (profile what : ProfileProgram Number (Profiled Number)) := by
  unfold profile
  split
  next => exact fitting_op rfl fun _ => fitting_empty _
  next =>
    split
    next => exact fitting_empty _
    next =>
      split
      next => exact fitting_op rfl fun _ => fitting_markSet rfl (fitting_empty _)
      next =>
        split
        next => exact fitting_markSet rfl (fitting_empty _)
        next =>
          split
          next => exact fitting_markReset rfl (fitting_empty _)
          next => exact fitting_empty _

end Programs

/-! ## Runs -/

theorem nonempty_answer [Zero Number] (op : ProfileOp Number) : Nonempty op.Answer := by
  cases op with
  | isCudProfile _ | isCudValid | isProcessCallback | exiting => exact ⟨false⟩
  | rawgeti _ | pcall _ | toboolean => exact ⟨false⟩
  | getMarks => exact ⟨0#32⟩
  | first | next _ => exact ⟨none⟩
  | luajackNow _ => exact ⟨(0 : Number)⟩
  | getStat => exact ⟨⟨0, 0, 0, 0, 0⟩⟩
  | ccall _ => exact ⟨(0 : Int)⟩
  | _ => exact ⟨()⟩

/-- An access is only possible before a sample. -/
theorem quiet_of_possible [Zero Number] {measurement : Measurement Number}
    {op : ProfileOp Number}
    (possible : ∀ answer, ∃ after, step measurement op answer = some after) :
    measurement.samples = [] := by
  rcases nonempty_answer op with ⟨answer⟩
  rcases possible answer with ⟨after, stepped⟩
  exact (step_iff.mp stepped).1

/-- An access adds to the samples what the call passes to the statistics. -/
theorem samples_of_meaning [Zero Number] [Add Number]
    [Sub Number] [Mul Number] [Div Number]
    [NatCast Number] [LT Number] [DecidableLT Number]
    {measurement after' : Measurement Number}
    {op : ProfileOp Number} {answer : op.Answer} {before after : Shared Number}
    (stepped : step measurement op answer = some after')
    (performed : ProfileOp.meaning op before answer after) :
    after.samples = before.samples ++ after'.samples := by
  rcases step_iff.mp stepped with ⟨quiet, rfl⟩
  rcases performed with ⟨_, outside, isAnswer⟩
  have isAfter : after = (op.exec outside before).2 := congrArg Prod.snd isAnswer
  rw [isAfter]
  cases op with
  | statUpdate sample =>
      simp only [ProfileOp.exec, Measurement.note, quiet, List.nil_append]
  | isCudProfile moment =>
      cases moment <;> simp only [ProfileOp.exec,
        Measurement.note, quiet, List.append_nil]
  | luajackNow moment =>
      cases moment <;> simp only [ProfileOp.exec,
        Measurement.note, quiet, List.append_nil]
  | _ => simp only [ProfileOp.exec, Measurement.note, quiet, List.append_nil]

section Runs

variable [Zero Number] [Add Number] [Sub Number]
  [Mul Number] [Div Number] [NatCast Number]
variable [LT Number] [DecidableLT Number] [DecidableEq Number]

/-- The language of the callback. Other calls do not look at the flag either. -/
def Event.language : Event Number → Language
  | .returned language _ _ => language
  | _ => .lua

omit [Zero Number] [Add Number] [Mul Number] [Div Number] [NatCast Number] [LT Number]
  [DecidableLT Number] [DecidableEq Number] in
/-- A call that does not look at the flag at its end. -/
theorem follows_of_fitting {program : ProfileProgram Number (Event Number)}
    (fitting : Fitting .lua .empty program) :
    Follows step (fun event => Fit event.language) .empty program := by
  apply fitting.imp
  intro event final fit
  exact ⟨fit.own, fun _ => fit.lua rfl⟩

theorem follows_calls {thread : Thread ι} {program : ProfileProgram Number (Event Number)}
    (offered : (profiling ι Number).calls thread program) :
    Follows step (fun event => Fit event.language) .empty program := by
  cases thread with
  | main =>
      apply follows_of_fitting
      rcases offered with ⟨what, rfl⟩ | rfl | ⟨pud, rfl⟩ | ⟨uses, rfl⟩
      · exact Follows.bind (fitting_profile what) fun _ _ fits => fits
      · exact fitting_markReset rfl (fitting_empty _)
      · exact fitting_op rfl fun _ => fitting_empty _
      · exact fitting_useBuffers rfl (fitting_empty _)
  | jack index =>
      rcases offered with ⟨language, kind, occasion, rfl⟩
      exact Follows.bind (fitting_wrapper language kind occasion) fun _ _ fits => fits
  | other index =>
      apply follows_of_fitting
      rcases offered with rfl | ⟨uses, rfl⟩
      · exact fitting_op rfl fun _ => fitting_empty _
      · exact fitting_useBuffers rfl (fitting_empty _)

/-- What holds of all calls that have returned. -/
theorem fit_of_reaches [DecidableEq ι] {shared : Shared Number}
    {config : Recording ι Number}
    (reached : (profiling ι Number).recorded.Reaches shared config) :
    ∀ entry ∈ config.log, Fit entry.2.2.language (measure entry.2.1) := by
  intro entry member
  have protocol := Protocol.of_reaches (fun _ _ => follows_calls) reached
  rcases protocol.returned entry member with ⟨final, played, fit⟩
  rw [measure_of_play played]
  exact fit

/-- Only the wrappers of C functions can find out at their end that the profiling is
on. -/
theorem lua_not_late [DecidableEq ι] {shared : Shared Number}
    {config : Recording ι Number}
    (reached : (profiling ι Number).recorded.Reaches shared config) :
    ∀ entry ∈ config.log, entry.2.2.language = .lua → ¬ (measure entry.2.1).Late :=
  fun entry member isLua => not_late_of_inside
    ((fit_of_reaches reached entry member).lua isLua)

/-- Every sample is the time that its own call has taken, exactly as long as no wrapper
finds at its end that the profiling is on, which it has found off at its begin. -/
theorem samples_own_iff [DecidableEq ι] {shared : Shared Number}
    {config : Recording ι Number} (empty : shared.samples = [])
    (reached : (profiling ι Number).recorded.Reaches shared config) :
    Accounted config ↔ ∀ entry ∈ config.log, ¬ (measure entry.2.1).Late := by
  have fits := fit_of_reaches reached
  constructor
  · intro accounted entry member
    exact (fits entry member).own.mp (accounted.own entry member)
  · intro notLate
    refine ⟨?_, fun entry member => (fits entry member).own.mpr (notLate entry member)⟩
    rw [Protocol.record_of_reaches (fun _ _ => follows_calls)
      (fun _ _ => quiet_of_possible)
      (fun _ _ _ _ _ _ => samples_of_meaning) rfl empty reached]
    apply List.flatMap_congr
    intro entry member
    have protocol := Protocol.of_reaches (fun _ _ => follows_calls) reached
    rcases protocol.returned entry member with ⟨final, played, _⟩
    rw [played, measure_of_play played]
    rfl

end Runs

/-! ## Calls of a wrapper -/

/-- A valid client without ports, with the given marks. -/
def portless (marks : Marks) : Shared Int where
  marks
  nframes := 0
  bufferSize := 256
  fifo := []
  puds := fun _ => .dropped
  calling := false
  stat := .reset
  exiting := false
  samples := []

/-- JACK calls the wrapper of a C function. -/
def invocation : ProfileProgram Int (Event Int) := do
  return .returned .c .process (← wrapper .c .process ⟨256, [], [], 0⟩)

theorem offered_invocation :
    (profiling Unit Int).recorded.calls (.jack ()) (invocation.recorded []) :=
  ⟨_, ⟨.c, .process, ⟨256, [], [], 0⟩, rfl⟩, rfl⟩

/-- The wrapper is called while the profiling is on. -/
theorem samples_own_iff_profiled : ∃ config : Recording Unit Int,
    (profiling Unit Int).recorded.Reaches (portless 5) config ∧
      config.shared.samples = [0] ∧ Accounted config := by
  have reached : ∃ config : Recording Unit Int,
      System.schedule attempt (.initial (portless 5))
      (.start (.jack ()) (invocation.recorded []) ::
        List.replicate 17 (.act (.jack ()))) =
        some config ∧ config.shared.samples = [0] ∧
      config.log.map (fun entry => measure entry.2.1) =
        [⟨some true, some 105, some true, some 105, [0]⟩] := ⟨_, rfl, rfl, rfl⟩
  rcases reached with ⟨config, reached, isSample, isLog⟩
  have run : (profiling Unit Int).recorded.Reaches (portless 5) config := by
    apply System.steps_of_schedule (fun _ _ _ _ => meaning_of_attempt) _ reached
    intro thread program member
    rcases List.mem_cons.mp member with isStart | isAct
    · cases isStart
      exact offered_invocation
    · cases List.eq_of_mem_replicate isAct
  refine ⟨config, run, isSample, (samples_own_iff rfl run).mpr ?_⟩
  intro entry member late
  have isMeasure : measure entry.2.1 ∈ config.log.map fun entry => measure entry.2.1 :=
    List.mem_map_of_mem member
  rw [isLog, List.mem_singleton] at isMeasure
  rw [isMeasure] at late
  cases late.1

/-- The wrapper is called, and the main thread starts the profiling before the function
is. -/
def lateStart : List (System.Turn (Thread Unit) (ProfileOp Int) ProfileOp.Answer
    (History Int × Event Int)) :=
  let start : ProfileProgram Int (Event Int) := do
    return .profiled (← profile (.string (chars "start")))
  [.start (.jack ()) (invocation.recorded []),
    .act (.jack ()), .start .main (start.recorded []),
    .act .main, .act .main, .act .main] ++ List.replicate 15 (.act (.jack ()))

theorem reaches_lateStart :
    ∃ config, (profiling Unit Int).recorded.Reaches (portless 1) config ∧
    config.log.map (fun entry => measure entry.2.1) =
      [.empty, ⟨some false, none, some true, some 105, [105]⟩] := by
  have reached : ∃ config, System.schedule attempt
      (.initial (portless 1)) lateStart = some config ∧
      config.log.map (fun entry => measure entry.2.1) =
        [.empty, ⟨some false, none, some true, some 105, [105]⟩] := ⟨_, rfl, rfl⟩
  rcases reached with ⟨config, reached, isLog⟩
  refine ⟨config, ?_, isLog⟩
  apply System.steps_of_schedule (fun _ _ _ _ => meaning_of_attempt) _ reached
  intro thread program member
  simp only [lateStart, List.cons_append, List.nil_append, List.mem_cons,
    System.Turn.start.injEq, reduceCtorEq, false_or, List.mem_replicate, and_false,
    or_false] at member
  rcases member with ⟨rfl, rfl⟩ | ⟨rfl, rfl⟩
  · exact offered_invocation
  · exact ⟨_, .inl ⟨.string (chars "start"), rfl⟩, rfl⟩

/-- The sample is the time that the clock shows. -/
theorem not_samples_own : ¬ ∀ config,
    (profiling Unit Int).recorded.Reaches (portless 1) config → Accounted config := by
  intro claimed
  rcases reaches_lateStart with ⟨config, reached, isLog⟩
  have late : (⟨some false, none, some true, some 105, [105]⟩ : Measurement Int) ∈
      config.log.map fun entry => measure entry.2.1 := by
    rw [isLog]
    exact List.mem_cons_of_mem _ (List.mem_singleton_self _)
  rcases List.mem_map.mp late with ⟨entry, member, isMeasure⟩
  have own := (claimed config reached).own entry member
  rw [isMeasure] at own
  rcases own 105 (List.mem_singleton_self _) with ⟨start, stop, isStart, _⟩
  cases isStart

end LuaJack.Profiling
