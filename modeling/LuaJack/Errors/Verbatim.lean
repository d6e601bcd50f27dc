import LuaJack.Errors.Message
import LuaJack.RealTime.Wrappers
import LuaJack.Thread.ThreadFunc
import Mathlib.Data.List.TakeWhile

/-!
# Messages as formats

When a callback or the script of a thread fails, `EXEC` and `ThreadFunc` pass its
message to `luajack_error` as the format, and no arguments with it.  The main thread
raises what `vsnprintf` has made of this format. -/

namespace LuaJack.Errors

open Atomic Fallible

/-! ## Formats without arguments -/

/-- The percent sign. -/
def percent : UInt8 := 37

/-- What a format stands for if no arguments are passed: characters stand for
themselves, and two percent signs for one. The behaviour is not defined if there is any
other directive. -/
def expand : CString → Option CString
  | [] => some []
  | [char] => if char = percent then none else some [char]
  | char :: next :: format =>
      if char = percent then
        if next = percent then (expand format).map (percent :: ·) else none
      else
        (expand (next :: format)).map (char :: ·)

/-- What `vsnprintf` may make of a format without arguments: anything, if the behaviour
is not defined. -/
def Formats (format : CString) (formatted : Formatted) : Prop :=
  ∀ text, expand format = some text → formatted = ⟨text, false⟩

section Formats

variable {format text : CString}

theorem expand_of_not_mem (absent : percent ∉ format) : expand format = some format := by
  fun_induction expand format with
  | case1 => rfl
  | case2 => exact absurd List.mem_cons_self absent
  | case3 char notPercent => rfl
  | case4 => exact absurd List.mem_cons_self absent
  | case5 => exact absurd List.mem_cons_self absent
  | case6 char next format notPercent ih =>
      rw [ih (List.not_mem_of_not_mem_cons absent)]
      rfl

/-- Each directive stands for less than its own characters. -/
theorem expand_shorter (expands : expand format = some text) :
    text.length ≤ format.length ∧ (percent ∈ format → text.length < format.length) := by
  fun_induction expand format generalizing text with
  | case1 =>
      cases expands
      exact ⟨Nat.le_refl _, fun member => nomatch member⟩
  | case2 => cases expands
  | case3 char notPercent =>
      cases expands
      refine ⟨Nat.le_refl _, fun member => ?_⟩
      exact absurd (List.mem_singleton.mp member).symm notPercent
  | case4 format ih =>
      rcases Option.map_eq_some_iff.mp expands with ⟨rest, isRest, rfl⟩
      have shorter := (ih isRest).1
      simp only [List.length_cons]
      omega
  | case5 => cases expands
  | case6 char next format notPercent ih =>
      rcases Option.map_eq_some_iff.mp expands with ⟨rest, isRest, rfl⟩
      have shorter := ih isRest
      constructor
      · exact Nat.succ_le_succ shorter.1
      · intro member
        rcases List.mem_cons.mp member with isPercent | member
        · exact absurd isPercent.symm notPercent
        · exact Nat.succ_lt_succ (shorter.2 member)

/-- All characters come from the format. -/
theorem expand_subset (expands : expand format = some text) : text ⊆ format := by
  fun_induction expand format generalizing text with
  | case1 =>
      cases expands
      exact List.Subset.refl _
  | case2 => cases expands
  | case3 =>
      cases expands
      exact List.Subset.refl _
  | case4 format ih =>
      rcases Option.map_eq_some_iff.mp expands with ⟨rest, isRest, rfl⟩
      exact List.cons_subset_cons _ (List.subset_cons_of_subset _ (ih isRest))
  | case5 => cases expands
  | case6 char next format notPercent ih =>
      rcases Option.map_eq_some_iff.mp expands with ⟨rest, isRest, rfl⟩
      exact List.cons_subset_cons _ (ih isRest)

/-- A format with a percent sign may become another text. -/
theorem exists_formats_ne (isText : 0 ∉ format) (member : percent ∈ format) :
    ∃ text, Formats format ⟨text, false⟩ ∧ text ≠ format ∧ 0 ∉ text ∧
      text.length ≤ format.length := by
  cases expands : expand format with
  | none =>
      refine ⟨[], ?_, ?_, List.not_mem_nil, Nat.zero_le _⟩
      · intro text isText
        cases expands.symm.trans isText
      · intro isNil
        rw [← isNil] at member
        cases member
  | some text =>
      have shorter := expand_shorter expands
      refine ⟨text, ?_, ?_, fun zero => isText (expand_subset expands zero), shorter.1⟩
      · intro other isOther
        cases expands.symm.trans isOther
        rfl
      · intro same
        have less := shorter.2 member
        rw [same] at less
        exact Nat.lt_irrefl _ less

end Formats

/-! ## What calls `luajack_error` -/

/-- What `luajack_error` is called with as the format when a callback or the script of a
thread fails with a message, and no error has been registered before. -/
inductive Passed (message fmt : CString) : Prop where
  /-- By `EXEC`, after the function and its arguments have been pushed. -/
  | exec {Number : Type} {callback : RealTime.Callback Number} {nargs nres : Nat}
      {client failed : RealTime.Client Number} {name : LuaFunction}
      {args stack : List (RealTime.Slot Number)} {value : LuaValue}
      {surroundings : RealTime.Surroundings}
      (isArgs : args.length = nargs)
      (isStack : client.stack = args.reverse ++ .function name :: stack)
      (fails : callback name args client.surroundings = (.error value, surroundings))
      (isMessage : value.toString? = some message) (running : surroundings.exiting = none)
      (returns : RealTime.exec callback nargs nres client = (.error .failed, failed))
      (isFmt : failed.surroundings.exiting = some (some fmt))
  /-- By `ThreadFunc`, while the script runs. -/
  | threadFunc {call : ThreadCreate} {now after : Life} {key : Addr}
      (inside : now.func = some (key, .script)) (running : now.world.exiting = none)
      (performed : (threadLife call).run [.raises message.message, .step, .step] now =
        some after)
      (isFmt : after.world.exiting = some fmt.message)

/-- Different texts have different characters. -/
theorem message_injective {first second : CString}
    (same : first.message = second.message) :
    first = second := by
  apply List.map_injective_iff.mpr _ (String.ofList_injective same)
  intro char other isChar
  have validChar (byte : UInt8) : (Char.ofNat byte.toNat).toNat = byte.toNat := by
    have valid : byte.toNat.isValidChar := .inl (Nat.lt_trans byte.toNat_lt (by decide))
    rw [Char.ofNat, dif_pos valid]
    rfl
  have isNat := congrArg Char.toNat isChar
  rw [validChar, validChar] at isNat
  exact UInt8.toNat_inj.mp isNat

/-- The message is the format. -/
theorem Passed.eq {message fmt : CString} (passed : Passed message fmt) :
    fmt = message := by
  cases passed with
  | exec isArgs isStack fails isMessage running returns isFmt =>
      rw [RealTime.exec_of_error isArgs isStack fails] at returns
      cases returns
      rw [running, isMessage] at isFmt
      exact (Option.some.inj (Option.some.inj isFmt)).symm
  | threadFunc inside running performed isFmt =>
      rcases state_of_run_raises inside performed with ⟨opened, tud, state, found, holds⟩
      cases (run_raises found holds opened inside message.message).symm.trans performed
      rw [World.exiting_threadEnd, running] at isFmt
      exact (message_injective (Option.some.inj isFmt)).symm

/-- A function that raises an error with this message. -/
theorem passed_self {message : CString} (isText : 0 ∉ message) :
    Passed message message := by
  let surroundings : RealTime.Surroundings :=
    { exiting := none
      refs := fun _ => noRef
      registry := fun _ => none
      fifo := []
      puds := fun _ => .dropped }
  let client : RealTime.Client Unit := ⟨surroundings, 1, 0, 256, [.function 5]⟩
  have isString : (LuaValue.string message).toString? = some message := by
    have nonzero : ∀ char ∈ message, (decide (char ≠ 0)) = true := by
      intro char member
      rw [decide_eq_true_eq]
      exact fun isZero => isText (isZero ▸ member)
    exact congrArg some (List.takeWhile_eq_self_iff.mpr nonzero)
  let callback : RealTime.Callback Unit :=
    fun _ _ surroundings => (.error (.string message), surroundings)
  have fails : callback 5 [] client.surroundings =
      (.error (.string message), surroundings) := rfl
  have isStack : client.stack = [].reverse ++ .function 5 :: [] := rfl
  have returns : RealTime.exec callback 0 0 client = _ :=
    RealTime.exec_of_error rfl isStack fails
  refine .exec rfl isStack fails isString rfl returns ?_
  rw [isString]
  rfl

/-- A call is the first one whose error has been recorded. -/
def FirstRecorded (call : Call) (register : Register) : Prop :=
  ∃ ticket, register.setters.head? = some ticket ∧ register.holders[ticket]? = some call

/-- When a callback or a script has failed with a message and this is recorded first,
the main thread raises an error with this message and a newline. -/
def CarriedVerbatim (message : CString) : Prop :=
  ∀ fmt, Passed message fmt → ∀ formatted, Formats fmt formatted →
    ∀ (ι : Type) [DecidableEq ι] (capacity : Nat)
      (config : Config (Thread ι) ErrorOp ErrorOp.Answer Event Register),
      (errors ι).Reaches (.new capacity) config →
      FirstRecorded ⟨true, some formatted⟩ config.shared →
      ∀ outcome, (.main, .checked (some outcome)) ∈ config.log →
        outcome = .error (message ++ [10])

/-! ## What the main thread raises -/

section Runs

variable {ι : Type} [DecidableEq ι]
variable {config : Config (Thread ι) ErrorOp ErrorOp.Answer Event Register}

theorem outcome_of_short {text : CString} (isText : 0 ∉ text)
    (short : text.length < errmsgLen - 2) :
    Call.outcome ⟨true, some ⟨text, false⟩⟩ = .error (text ++ [10]) := by
  have notHuge : ¬ (false || decide (2 ^ 31 ≤ text.length)) = true := by
    rw [Bool.false_or, decide_eq_true_eq]
    have isLen : errmsgLen = 256 := rfl
    omega
  have isMessage : Call.message ⟨true, some ⟨text, false⟩⟩ = text ++ [10] := by
    simp only [Call.message]
    rw [if_neg notHuge, if_pos short]
  have nonzero : ∀ char ∈ text ++ [10], (decide (char ≠ 0)) = true := by
    intro char member
    rw [decide_eq_true_eq]
    intro isZero
    rcases List.mem_append.mp member with inText | isLast
    · exact isText (isZero ▸ inText)
    · rw [isZero] at isLast
      exact absurd isLast (by decide)
  unfold Call.outcome
  rw [isMessage, List.takeWhile_eq_self_iff.mpr nonzero]
  rfl

/-- The main thread raises what has been recorded first. -/
theorem checked_of_first {capacity : Nat} {call : Call} {outcome : Outcome}
    (run : (errors ι).Reaches (.new capacity) config)
    (first : FirstRecorded call config.shared)
    (checked : (.main, .checked (some outcome)) ∈ config.log) :
    outcome = call.outcome := by
  rcases justified_of_reaches run with ⟨ghosts, justified⟩
  have sound : Sound ghosts config.shared config.log := justified.holds
  have situation := situation_of_reaches run
  rcases sound.checked outcome checked with ⟨ticket, other, settled, rfl⟩
  have recorded := situation.recorded_of_settled settled
  rcases first with ⟨firstTicket, isFirst, isCall⟩
  rw [recorded.setters] at isFirst
  cases isFirst
  cases recorded.holder.symm.trans isCall
  rfl

theorem run_load {α : Type} (index : Nat)
    (next : UInt8 → ErrorProgram α) (register : Register) :
    (errorOp (.load index) >>= next).run ErrorOp.exec register =
      (next (register.errmsg index)).run ErrorOp.exec register := rfl

theorem run_getStatus {α : Type} (next : BitVec 32 → ErrorProgram α)
    (register : Register) :
    (errorOp .getStatus >>= next).run ErrorOp.exec register =
      (next register.status).run ErrorOp.exec register := rfl

theorem run_pushstring (register : Register) (remaining index : Nat) :
    ∃ text, (pushstring remaining index).run ErrorOp.exec register =
      (text, register) := by
  induction remaining generalizing index with
  | zero => exact ⟨[], rfl⟩
  | succ remaining ih =>
      rcases ih (index + 1) with ⟨text, isText⟩
      rw [pushstring, run_load]
      by_cases isEnd : register.errmsg index = 0
      · rw [if_pos isEnd]
        exact ⟨[], rfl⟩
      · rw [if_neg isEnd, Program.run_bind, isText]
        exact ⟨_, rfl⟩

/-- A registered error is found. -/
theorem run_luajackCheckerror {register : Register}
    (isExiting : exiting register.status = true) :
    ∃ outcome, luajackCheckerror.run ErrorOp.exec register =
      (some outcome, register) := by
  rw [luajackCheckerror, run_getStatus, if_pos isExiting, run_getStatus]
  by_cases hasMessage : register.status &&& errmsgFlag ≠ 0
  · rcases run_pushstring register errmsgLen 0 with ⟨text, isText⟩
    rw [if_pos hasMessage, Program.run_bind, isText]
    exact ⟨_, rfl⟩
  · rw [if_neg hasMessage]
    exact ⟨_, rfl⟩

/-- A call registers an error alone, and then the main thread finds it. -/
theorem exists_found {call : Call} {registered : Register}
    (offered : (errors Unit).calls (.caller ())
      (do luajackErrorv_ call; return .returned))
    (registers : (luajackErrorv_ call).run ErrorOp.exec (.new 1) = ((), registered))
    (isExiting : exiting registered.status = true) :
    ∃ config outcome, (errors Unit).Reaches (.new 1) config ∧ config.shared = registered ∧
      (.main, .checked (some outcome)) ∈ config.log := by
  rcases run_luajackCheckerror isExiting with ⟨outcome, finds⟩
  have isExec : (errors Unit).meaning =
      fun op before answer after => (answer, after) = ErrorOp.exec op before := rfl
  have fails : (errors Unit).Steps (.initial (.new 1))
      ⟨registered, fun _ => none, [(.caller (), .returned)]⟩ := by
    apply System.steps_of_exec isExec rfl offered
    rw [Program.run_bind, Config.initial, registers]
    rfl
  have checks : (errors Unit).Steps ⟨registered, fun _ => none, [(.caller (), .returned)]⟩
      ⟨registered, fun _ => none,
        [(.caller (), .returned), (.main, .checked (some outcome))]⟩ := by
    have offered : (errors Unit).calls .main
        (do return .checked (← luajackCheckerror)) := rfl
    apply System.steps_of_exec isExec rfl offered
    rw [Program.run_bind, finds]
    rfl
  exact ⟨_, outcome, fails.trans checks, rfl, .tail _ (List.mem_singleton_self _)⟩

/-- A call records its error, and then the main thread finds it. -/
theorem exists_checked (formatted : Formatted) :
    ∃ config, (errors Unit).Reaches (.new 1) config ∧
      FirstRecorded ⟨true, some formatted⟩ config.shared ∧
      (.main, .checked (some (Call.outcome ⟨true, some formatted⟩))) ∈ config.log := by
  have offered : (errors Unit).calls (.caller ())
      (do luajackErrorv_ ⟨true, some formatted⟩; return .returned) :=
    ⟨_, rfl, .inl ⟨some formatted, .inl rfl⟩⟩
  have registers := run_luajackErrorv_ (.new 1) true formatted rfl rfl
  rcases exists_found offered registers (exiting_status ⟨true, some formatted⟩) with
    ⟨config, outcome, run, isRegistered, checked⟩
  have first : FirstRecorded ⟨true, some formatted⟩ config.shared := by
    rw [isRegistered]
    exact ⟨0, rfl, rfl⟩
  have isOutcome := checked_of_first run first checked
  rw [isOutcome] at checked
  exact ⟨config, run, first, checked⟩

end Runs

/-- A message is carried verbatim exactly if there is no percent sign in it. -/
theorem message_carried_iff (message : CString) (isText : 0 ∉ message)
    (short : message.length ≤ 200) : CarriedVerbatim message ↔ percent ∉ message := by
  have fits : message.length < errmsgLen - 2 := Nat.lt_of_le_of_lt short (by decide)
  constructor
  · intro carried member
    rcases exists_formats_ne isText member with
      ⟨text, formats, different, isOther, shorter⟩
    rcases exists_checked ⟨text, false⟩ with ⟨config, run, first, checked⟩
    have isOutcome :=
      carried _ (passed_self isText) _ formats Unit 1 config run first _ checked
    rw [outcome_of_short isOther (Nat.lt_of_le_of_lt shorter fits), Outcome.error.injEq]
      at isOutcome
    exact different (List.append_cancel_right isOutcome)
  · intro absent fmt passed formatted formats
      ι _ capacity config run first outcome checked
    rw [passed.eq] at formats
    have isFormatted := formats message (expand_of_not_mem absent)
    rw [checked_of_first run first checked, isFormatted, outcome_of_short isText fits]

theorem message_carried_iff_noSpace : CarriedVerbatim (chars "no space") :=
  (message_carried_iff (chars "no space") (by decide) (by decide)).mpr (by decide)

/-- A percent sign gets lost. -/
theorem not_message_carried : ¬ CarriedVerbatim (chars "100%%") := by
  intro carried
  rcases exists_checked ⟨chars "100%", false⟩ with ⟨config, run, first, checked⟩
  have formats : Formats (chars "100%%") ⟨chars "100%", false⟩ := by
    intro text expands
    cases expands
    rfl
  have isOutcome :=
    carried _ (passed_self (by decide)) _ formats Unit 1 config run first _ checked
  exact absurd isOutcome (by decide)

end LuaJack.Errors
