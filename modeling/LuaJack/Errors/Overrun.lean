import LuaJack.Atomic.Simulation
import LuaJack.Errors.Message

/-!
# What is behind the message

The zero that follows a long text is stored behind the array.  Where the variables are
placed is up to the compiler, so it may free the lock before the status is set, and two
calls register their errors.  No such store is made when the texts are short, and then
errors are registered once. -/

namespace LuaJack.Errors

open Atomic Program

/-- Where the variables are, counted from the first character of the message. One that
is placed before the message counts as one that is too far behind to be reached. Nothing
else that may be there has a part in the registration of errors. -/
structure Layout where
  /-- The byte of `luajack_errlock` that is zero while the lock is free. -/
  errlock : Nat
  /-- The first byte of `luajack_exit_status`. -/
  status : Nat
  lockOutside : errmsgLen ≤ errlock
  statusOutside : errmsgLen ≤ status
  apart : errlock < status ∨ status + 4 ≤ errlock

/-- A status of which a byte is overwritten. -/
def overwrite (status : BitVec 32) (byte : Nat) (char : UInt8) : BitVec 32 :=
  (status &&& ~~~(0xff#32 <<< (8 * byte))) ||| (char.toBitVec.setWidth 32 <<< (8 * byte))

namespace Layout

variable (layout : Layout)

/-- What a store changes besides the message. -/
def overrun (index : Nat) (char : UInt8) (register : Register) : Register :=
  { register with
    locked := if index = layout.errlock then char ≠ 0 else register.locked
    status :=
      if layout.status ≤ index ∧ index < layout.status + 4 then
        overwrite register.status (index - layout.status) char
      else
        register.status }

/-- The effect of each access. -/
def exec : (op : ErrorOp) → Register → op.Answer × Register
  | .store ticket index char, register =>
      ((), layout.overrun index char ((ErrorOp.store ticket index char).exec register).2)
  | op, register => op.exec register

/-- The meaning of each access. -/
def meaning : Meaning ErrorOp ErrorOp.Answer Register := fun op before answer after =>
  (answer, after) = layout.exec op before

/-- A store inside the message changes nothing else. -/
theorem exec_of_inside {op : ErrorOp}
    (inside : ∀ ticket index char, op = .store ticket index char → index < errmsgLen) :
    layout.exec op = op.exec := by
  funext register
  cases op with
  | store ticket index char =>
      have less := inside ticket index char rfl
      have notLock : index ≠ layout.errlock :=
        Nat.ne_of_lt (Nat.lt_of_lt_of_le less layout.lockOutside)
      have notStatus : ¬ (layout.status ≤ index ∧ index < layout.status + 4) :=
        fun within =>
        absurd (Nat.lt_of_lt_of_le less layout.statusOutside) (Nat.not_lt.mpr within.1)
      simp only [exec, overrun, if_neg notLock, if_neg notStatus]
  | _ => rfl

end Layout

/-- The threads, where stores behind the message change what is there. -/
def errorsIn (layout : Layout) (ι : Type) :
    System (Thread ι) ErrorOp ErrorOp.Answer Event Register where
  meaning := layout.meaning
  calls := (errors ι).calls

/-- The text and what follows it are inside the array. -/
def Formatted.Fits (formatted : Formatted) : Prop :=
  formatted.fails = true ∨ formatted.text.length < errmsgLen - 1 ∨
    2 ^ 31 ≤ formatted.text.length

/-- The message of a call that gets the lock, while no error has been registered, is one
of these texts. -/
def FirstAmong (texts : Formatted → Prop) : ErrorOp → Register → Prop
  | .trylock call, register => register.locked = false → exiting register.status = false →
      ∀ formatted, call.fmt = some formatted → texts formatted
  | _, _ => True

/-! ## Short texts -/

/-- A call has no message, or one that fits. -/
def Call.Fits (call : Call) : Prop :=
  ∀ formatted, call.fmt = some formatted → formatted.Fits

/-- Where a thread is between its operations. -/
inductive Grip where
  | outside
  /-- The call has got the lock. -/
  | holding (call : Call)
  /-- The call has found that no error has been registered. -/
  | storing (call : Call)

namespace Grip

open Classical in
/-- Only a call that registers its error stores characters, and inside the array if its
message fits. -/
noncomputable def step : Grip → (op : ErrorOp) → op.Answer → Option Grip
  | _, .trylock call, some _ => some (.holding call)
  | _, .trylock _, none => some .outside
  | .holding call, .getStatus, status =>
      if exiting status then some .outside else some (.storing call)
  | .storing call, .store _ index _, _ =>
      if call.Fits → index < errmsgLen then some (.storing call) else none
  | _, .store _ _ _, _ => none
  | grip, _, _ => some grip

/-- What a call relies on: when its message does not fit, an error has been registered. -/
def Suits : Grip → Register → Prop
  | outside, _ => True
  | holding call, register => exiting register.status = true ∨ call.Fits
  | storing call, _ => call.Fits

end Grip

/-- A program keeps to what its thread may do. -/
abbrev Follows {α : Type} (grip : Grip) (program : ErrorProgram α) : Prop :=
  Program.Follows Grip.step (fun _ _ => True) grip program

section Protocol

variable {α : Type} {call : Call} {ticket : Nat}

theorem follows_store {index : Nat} {char : UInt8} {rest : Unit → ErrorProgram α}
    (inside : call.Fits → index < errmsgLen)
    (continues : Follows (.storing call) (rest ())) :
    Follows (.storing call) (errorOp (.store ticket index char) >>= rest) := by
  apply Program.Follows.perform
  intro answer
  exact ⟨.storing call, if_pos inside, continues⟩

theorem follows_storeFrom {index : Nat} {text : CString} {rest : Unit → ErrorProgram α}
    (inside : index + text.length ≤ errmsgLen)
    (continues : Follows (.storing call) (rest ())) :
    Follows (.storing call) (storeFrom ticket index text >>= rest) := by
  induction text generalizing index with
  | nil => exact continues
  | cons char text ih =>
      rw [List.length_cons] at inside
      rw [storeFrom, bind_assoc]
      apply follows_store
      · exact fun _ => Nat.lt_of_lt_of_le
          (Nat.lt_add_of_pos_right (Nat.succ_pos _)) inside
      · apply ih
        rw [Nat.add_right_comm, Nat.add_assoc]
        exact inside

theorem follows_storeMessage {rest : Unit → ErrorProgram α}
    (continues : Follows (.storing call) (rest ())) :
    Follows (.storing call) (storeMessage ticket call.fmt >>= rest) := by
  have isLen : errmsgLen = 256 := rfl
  cases isFmt : call.fmt with
  | none => exact follows_store (fun _ => Nat.zero_lt_succ _) continues
  | some formatted =>
      simp only [storeMessage, vsnprintf, bind_assoc]
      apply follows_storeFrom
      · rw [List.length_take]
        omega
      split
      next => exact follows_store (fun _ => Nat.zero_lt_succ _) continues
      next notNegative =>
        have short (fits : call.Fits) : formatted.text.length < errmsgLen - 1 := by
          rw [Bool.or_eq_true, not_or, decide_eq_true_eq] at notNegative
          exact ((fits formatted isFmt).resolve_left notNegative.1).resolve_right
            notNegative.2
        have positive : ¬(formatted.text.length : Int) < 0 := by omega
        simp only [bind_assoc, pure_bind]
        apply follows_store
        · omega
        rw [if_neg positive, Int.toNat_natCast, bind_assoc]
        apply follows_store fun fits => Nat.lt_of_lt_pred (short fits)
        exact follows_store (fun fits => Nat.add_lt_of_lt_sub (short fits)) continues

theorem follows_luajackErrorv_ (call : Call) :
    Follows .outside (do luajackErrorv_ call; return Event.returned) := by
  rw [luajackErrorv_, bind_assoc]
  apply Program.Follows.perform
  intro answer
  cases answer with
  | none => exact ⟨.outside, rfl, trivial⟩
  | some ticket =>
      refine ⟨.holding call, rfl, ?_⟩
      simp only [bind_assoc]
      apply Program.Follows.perform
      intro status
      cases isExiting : exiting status with
      | true => exact ⟨.outside, if_pos isExiting, fun _ => ⟨.outside, rfl, trivial⟩⟩
      | false =>
          refine ⟨.storing call, if_neg (Bool.eq_false_iff.mp isExiting), ?_⟩
          simp only [Bool.false_eq_true, if_false, bind_assoc]
          apply follows_storeMessage
          intro _
          refine ⟨.storing call, rfl, fun _ => ⟨.storing call, rfl, fun _ => ?_⟩⟩
          exact ⟨.storing call, rfl, trivial⟩

/-- The main thread only reads. -/
theorem follows_pushstring (remaining index : Nat) {rest : CString → ErrorProgram α}
    (continues : ∀ text, Follows .outside (rest text)) :
    Follows .outside (pushstring remaining index >>= rest) := by
  induction remaining generalizing index rest with
  | zero => exact continues []
  | succ remaining ih =>
      rw [pushstring, bind_assoc]
      apply Program.Follows.perform
      intro char
      refine ⟨.outside, rfl, ?_⟩
      split
      · exact continues []
      · rw [bind_assoc]
        exact ih (index + 1) fun text => continues (char :: text)

theorem follows_luajackCheckerror :
    Follows .outside (do return Event.checked (← luajackCheckerror)) := by
  rw [luajackCheckerror, bind_assoc]
  apply Program.Follows.perform
  intro status
  refine ⟨.outside, rfl, ?_⟩
  split
  · rw [bind_assoc]
    apply Program.Follows.perform
    intro status
    refine ⟨.outside, rfl, ?_⟩
    split
    · rw [bind_assoc]
      exact follows_pushstring _ _ fun _ => trivial
    · exact fun _ => ⟨.outside, rfl, trivial⟩
  · trivial

end Protocol

theorem follows_calls {ι : Type} (thread : Thread ι) (program : ErrorProgram Event)
    (offered : (errors ι).calls thread program) : Follows .outside program := by
  cases thread with
  | main =>
      have isProgram : program = do return .checked (← luajackCheckerror) := offered
      rw [isProgram]
      exact follows_luajackCheckerror
  | caller index =>
      rcases offered with ⟨program, rfl, offered⟩
      rcases offered with ⟨fmt, rfl | rfl⟩ | ⟨code, rfl⟩
      · cases fmt <;> exact follows_luajackErrorv_ _
      · exact follows_luajackErrorv_ _
      · exact follows_luajackErrorv_ _

section Runs

variable {ι : Type} [DecidableEq ι] {layout : Layout}
  {texts : Formatted → Prop} {capacity : Nat}

/-- An error stays registered. -/
theorem exiting_of_step
    {config later : Config (Thread ι) ErrorOp ErrorOp.Answer Event Register}
    (reached : (errors ι).Reaches (.new capacity) config)
    (step : (errors ι).Step config later)
    (isExiting : exiting config.shared.status = true) :
    exiting later.shared.status = true := by
  rcases (registeredOnce_of_reaches reached).complete isExiting with
    ⟨ticket, call, _, kept⟩
  rw [(kept later (.single step)).status]
  exact exiting_status call

omit [DecidableEq ι] in
/-- What a call relies on after an operation. -/
theorem Grip.suits_of_step {grip grip' : Grip} {op : ErrorOp} {before after : Register}
    {answer : op.Answer} (fits : ∀ formatted, texts formatted → formatted.Fits)
    (among : FirstAmong texts op before) (suited : grip.Suits before)
    (performed : ErrorOp.meaning op before answer after)
    (keeps : exiting before.status = true → exiting after.status = true)
    (allowed : grip.step op answer = some grip') : grip'.Suits after := by
  have unchanged (isGrip : some grip = some grip') : grip'.Suits after := by
    cases isGrip
    cases grip with
    | outside => trivial
    | holding call => exact suited.imp_left keeps
    | storing call => exact suited
  cases op with
  | trylock call =>
      cases answer with
      | none =>
          cases grip <;>
            · cases allowed
              trivial
      | some ticket =>
          have isFree : before.locked = false := by
            cases isLocked : before.locked with
            | false => rfl
            | true =>
                rw [ErrorOp.meaning, ErrorOp.exec, if_pos isLocked] at performed
                cases performed
          have holds : exiting after.status = true ∨ call.Fits := by
            cases isExiting : exiting before.status with
            | true => exact .inl (keeps isExiting)
            | false =>
                right
                intro formatted isFmt
                exact fits formatted (among isFree isExiting formatted isFmt)
          cases grip <;>
            · cases allowed
              exact holds
  | getStatus =>
      cases grip with
      | outside => exact unchanged allowed
      | storing call => exact unchanged allowed
      | holding call =>
          have isAnswer : answer = before.status := congrArg Prod.fst performed
          rw [Grip.step, isAnswer] at allowed
          split at allowed
          next =>
            cases allowed
            trivial
          next notExiting =>
            cases allowed
            exact suited.resolve_left notExiting
  | store ticket index char =>
      cases grip with
      | outside => cases allowed
      | holding call => cases allowed
      | storing call =>
          rw [Grip.step] at allowed
          split at allowed
          next =>
            cases allowed
            exact suited
          next => cases allowed
  | unlock => cases grip <;> exact unchanged allowed
  | setStatus ticket status => cases grip <;> exact unchanged allowed
  | load index => cases grip <;> exact unchanged allowed
  | pipeWrite => cases grip <;> exact unchanged allowed

/-- While the texts fit, the accesses have the same effect as if nothing were behind the
message. -/
theorem simulates_errors (fits : ∀ formatted, texts formatted → formatted.Fits) :
    Tracked.Simulates Grip.step Grip.Suits
      ((errorsIn layout ι).restrict (FirstAmong texts))
      (errors ι) (.new capacity) := by
  intro config thread op next state reached inside
    suited answer after state' allowed permitted
  rcases permitted with ⟨among, performed⟩
  have inArray : ∀ ticket index char, op = .store ticket index char →
      index < errmsgLen := by
    rintro ticket index char rfl
    cases state with
    | storing call =>
        by_contra outside
        rw [Grip.step, if_neg fun less => outside (less suited)] at allowed
        cases allowed
    | outside => cases allowed
    | holding call => cases allowed
  have same : ErrorOp.meaning op config.shared answer after := by
    have performed : (answer, after) = layout.exec op config.shared := performed
    rw [layout.exec_of_inside inArray] at performed
    exact performed
  have step : (errors ι).Step config (config.settle thread after (next answer)) :=
    .act inside same
  have keeps : exiting config.shared.status = true → exiting after.status = true := by
    intro isExiting
    have still := exiting_of_step reached step isExiting
    rw [Config.settle_shared] at still
    exact still
  refine ⟨same, Grip.suits_of_step fits among suited same keeps allowed, ?_⟩
  intro earlier suited
  cases earlier with
  | outside => trivial
  | holding call => exact suited.imp_left keeps
  | storing call => exact suited

/-- While the texts fit, errors are registered once. -/
theorem registeredOnce_of_fits (fits : ∀ formatted, texts formatted → formatted.Fits)
    {config : Config (Thread ι) ErrorOp ErrorOp.Answer Event Register}
    (run : ((errorsIn layout ι).restrict (FirstAmong texts)).Reaches
      (.new capacity) config) :
    RegisteredOnce ((errorsIn layout ι).restrict (FirstAmong texts)) config := by
  have offered (thread : Thread ι) (program : ErrorProgram Event)
      (isCall : ((errorsIn layout ι).restrict (FirstAmong texts)).calls thread program) :
      (errors ι).calls thread program ∧
        ∃ first : Grip, (∀ register, first.Suits register) ∧ Follows first program :=
    ⟨isCall, .outside, fun _ => trivial, follows_calls thread program isCall⟩
  have simulates : Tracked.Simulates Grip.step Grip.Suits
      ((errorsIn layout ι).restrict (FirstAmong texts)) (errors ι) (.new capacity) :=
    simulates_errors fits
  rcases Tracked.steps_of_steps simulates offered .initial .refl run with
    ⟨reached, tracked⟩
  have once := registeredOnce_of_reaches reached
  refine ⟨once.once, ?_, once.kept, once.reported⟩
  intro isExiting
  rcases once.complete isExiting with ⟨ticket, call, recorded, kept⟩
  refine ⟨ticket, call, recorded, ?_⟩
  intro later steps
  exact kept later (Tracked.steps_of_steps simulates offered tracked reached steps).1

end Runs

/-! ## Long texts -/

/-- The lock directly behind the newline, and the status behind the lock. -/
def Formatted.layout (formatted : Formatted)
    (long : errmsgLen - 1 ≤ formatted.text.length) :
    Layout where
  errlock := formatted.text.length + 1
  status := formatted.text.length + 2
  lockOutside := Nat.le_add_of_sub_le long
  statusOutside := Nat.le_succ_of_le (Nat.le_add_of_sub_le long)
  apart := .inl (Nat.lt_succ_self _)

section Twice

variable {texts : Formatted → Prop} {layout : Layout}

/-- The first caller and the second one. -/
abbrev Two := Config (Thread Bool) ErrorOp ErrorOp.Answer Event Register

/-- Two callers, whose messages are some of these texts. -/
abbrev two (layout : Layout) (texts : Formatted → Prop) :
    System (Thread Bool) ErrorOp ErrorOp.Answer Event Register :=
  (errorsIn layout Bool).restrict (FirstAmong texts)

variable {config : Two} {thread : Thread Bool} {register : Register} {ticket : Nat}

theorem steps_store {index : Nat} {char : UInt8} {rest : Unit → ErrorProgram Event}
    (notLock : index ≠ layout.errlock) (below : index < layout.status) :
    (two layout texts).Steps
      (config.settle thread register (errorOp (.store ticket index char) >>= rest))
      (config.settle thread (register.storing [⟨ticket, index, char⟩]) (rest ())) := by
  apply System.steps_of_act
  refine ⟨trivial, ?_⟩
  have notStatus : ¬ (layout.status ≤ index ∧ index < layout.status + 4) :=
    fun within => absurd below (Nat.not_lt.mpr within.1)
  show ((), register.storing [⟨ticket, index, char⟩]) = _
  simp only [Layout.exec, Layout.overrun, if_neg notLock, if_neg notStatus]
  rfl

theorem steps_storeFrom {index : Nat} {text : CString} {rest : Unit → ErrorProgram Event}
    (beforeLock : index + text.length ≤ layout.errlock)
    (beforeStatus : index + text.length ≤ layout.status) :
    (two layout texts).Steps
      (config.settle thread register (storeFrom ticket index text >>= rest))
      (config.settle thread (register.storing (storesFrom ticket index text))
        (rest ())) := by
  induction text generalizing index register with
  | nil =>
      rw [storesFrom, Register.storing, List.append_nil]
      exact .refl
  | cons char text ih =>
      rw [List.length_cons] at beforeLock beforeStatus
      rw [storeFrom, bind_assoc]
      have first : (two layout texts).Steps
          (config.settle thread register (errorOp (.store ticket index char) >>=
            fun _ => storeFrom ticket (index + 1) text >>= rest)) _ :=
        steps_store (by omega) (by omega)
      have later := @ih (register.storing [⟨ticket, index, char⟩])
          (index + 1) (by omega) (by omega)
      rw [Register.storing_append] at later
      exact first.trans later

/-- The zero behind a long text frees the lock. -/
theorem steps_storeMessage {formatted : Formatted} (returns : formatted.fails = false)
    (long : errmsgLen - 1 ≤ formatted.text.length)
    (notHuge : formatted.text.length < 2 ^ 31) {rest : Unit → ErrorProgram Event} :
    (two (formatted.layout long) texts).Steps
      (config.settle thread register (storeMessage ticket (some formatted) >>= rest))
      (config.settle thread { register.storing (messageStores ticket formatted) with
        locked := false } (rest ())) := by
  have isLen : errmsgLen = 256 := rfl
  have isLock : (formatted.layout long).errlock = formatted.text.length + 1 := rfl
  have isStatus : (formatted.layout long).status = formatted.text.length + 2 := rfl
  have noError : ¬ (formatted.fails || decide (2 ^ 31 ≤ formatted.text.length)) =
      true := by
    rw [returns, Bool.false_or, decide_eq_true_eq]
    omega
  have positive : ¬(formatted.text.length : Int) < 0 := by omega
  simp only [storeMessage, vsnprintf, messageStores,
    if_neg noError, bind_assoc, pure_bind, if_neg positive, Int.toNat_natCast]
  have text : (formatted.text.take (errmsgLen - 2 - 1)).length ≤ 253 := by
    rw [List.length_take]
    omega
  refine (steps_storeFrom (by omega) (by omega)).trans ?_
  refine (steps_store (by omega) (by omega)).trans ?_
  refine (steps_store (by omega) (by omega)).trans ?_
  apply System.steps_of_act
  refine ⟨trivial, ?_⟩
  have notStatus : ¬ ((formatted.layout long).status ≤ formatted.text.length + 1 ∧
      formatted.text.length + 1 < (formatted.layout long).status + 4) := by omega
  show ((), _) = _
  simp only [Layout.exec, Layout.overrun, ErrorOp.exec, isLock, if_true, if_neg notStatus,
    Register.storing_append]
  simp only [Register.storing, errmsgAfter, List.foldl_append, List.append_assoc]
  rfl

/-- What a call does after it has stored its message. -/
def finish (ticket : Nat) (call : Call) : ErrorProgram Event := do
  errorOp (.setStatus ticket call.status)
  errorOp .pipeWrite
  errorOp .unlock
  return .returned

/-- A call that finds the lock free and no error registered stores its message. -/
theorem steps_enter (index : Bool) (call : Call)
    (outside : config.running (.caller index) = none)
    (offered : (errors Bool).calls (.caller index)
      (do luajackErrorv_ call; return .returned))
    (among : ∀ formatted, call.fmt = some formatted → texts formatted)
    (isShared : config.shared = register) (free : register.locked = false)
    (quiet : exiting register.status = false) :
    (two layout texts).Steps config
      (config.settle (.caller index)
        { register with locked := true, holders := register.holders ++ [call] }
        (storeMessage register.holders.length call.fmt >>= fun _ =>
          finish register.holders.length call)) := by
  have locks : (ErrorOp.trylock call).exec register = (some register.holders.length,
      { register with locked := true, holders := register.holders ++ [call] }) := by
    rw [ErrorOp.exec, free]
    rfl
  have starts : (two layout texts).Step config _ := .start outside offered
  rw [isShared] at starts
  refine .head starts (.trans (System.steps_of_act ⟨fun _ _ => among, locks.symm⟩) ?_)
  refine .trans (System.steps_of_act ⟨trivial, rfl⟩) ?_
  show (two layout texts).Steps (config.settle (.caller index) _
    ((if exiting register.status then errorOp .unlock else do
      storeMessage register.holders.length call.fmt
      errorOp (.setStatus register.holders.length call.status)
      errorOp .pipeWrite
      errorOp .unlock) >>= fun _ => return .returned)) _
  rw [quiet]
  simp only [Bool.false_eq_true, if_false, bind_assoc]
  exact .refl

/-- The variables when the first caller has stored its message, but not yet set the
status. -/
def Register.unlocked (first : Call) (formatted : Formatted) : Register :=
  { Register.storing { Register.new 1 with locked := true, holders := [first] }
      (messageStores 0 formatted) with locked := false }

/-- The second caller stores its message before the first one has set the status. -/
theorem registered_twice {formatted : Formatted} (returns : formatted.fails = false)
    (long : errmsgLen - 1 ≤ formatted.text.length)
    (notHuge : formatted.text.length < 2 ^ 31) (permitted : texts formatted) :
    ∃ config, (two (formatted.layout long) texts).Reaches (.new 1) config ∧
      ∀ system, ¬ RegisteredOnce system config := by
  let first : Call := ⟨true, some formatted⟩
  let second : Call := ⟨true, none⟩
  let unlocked : Two :=
    Config.settle (.initial (.new 1)) (.caller false)
      (.unlocked first formatted) (finish 0 first)
  let draft := unlocked.settle (.caller true)
    { Register.unlocked first formatted with locked := true, holders := [first, second] }
    (storeMessage 1 none >>= fun _ => finish 1 second)
  let stored := unlocked.settle (.caller true)
    (Register.storing { Register.unlocked first formatted with
      locked := true, holders := [first, second] } [⟨1, 0, 0⟩]) (finish 1 second)
  have firstStores : (two (formatted.layout long) texts).Steps
      (.initial (.new 1)) unlocked := by
    have offered : (errors Bool).calls (.caller false)
        (do luajackErrorv_ first; return .returned) :=
      ⟨luajackError (some formatted), rfl, .inl ⟨_, .inl rfl⟩⟩
    refine .trans (steps_enter false first rfl offered ?_ rfl rfl rfl)
      (steps_storeMessage returns long notHuge)
    rintro _ ⟨⟩
    exact permitted
  have secondEnters : (two (formatted.layout long) texts).Steps unlocked draft := by
    have offered : (errors Bool).calls (.caller true)
        (do luajackErrorv_ second; return .returned) :=
      ⟨osExit true, rfl, .inr ⟨_, rfl⟩⟩
    have isZero : (Register.unlocked first formatted).status = 0 := rfl
    have quiet : exiting (Register.unlocked first formatted).status = false := by
      rw [isZero]
      rfl
    apply steps_enter true second rfl offered _ rfl rfl quiet
    rintro _ ⟨⟩
  have secondStores : (two (formatted.layout long) texts).Steps draft stored :=
    steps_store (Nat.succ_ne_zero _).symm (Nat.succ_pos _)
  refine ⟨stored, (firstStores.trans secondEnters).trans secondStores, ?_⟩
  intro system once
  rcases once.once with ⟨ticket, isTicket, _⟩
  have byFirst : ⟨0, formatted.text.length + 1, 0⟩ ∈ messageStores 0 formatted := by
    have noError : ¬ (formatted.fails || decide (2 ^ 31 ≤ formatted.text.length)) =
        true := by
      rw [returns, Bool.false_or, decide_eq_true_eq]
      exact Nat.not_le.mpr notHuge
    rw [messageStores, if_neg noError]
    exact List.mem_append_right _ (.tail _ (.tail _ (.head _)))
  have isFirst : 0 = ticket := isTicket _ (List.mem_append_left [⟨1, 0, 0⟩] byFirst)
  have isSecond : 1 = ticket :=
    isTicket ⟨1, 0, 0⟩ (List.mem_append_right (messageStores 0 formatted) (.head _))
  rw [← isFirst] at isSecond
  cases isSecond

end Twice

/-- Errors are registered once, wherever the variables are placed and however the
accesses are interleaved, exactly if the text of every call that gets the lock first is
short enough for its array. -/
theorem error_registered_once_iff (texts : Formatted → Prop) :
    (∀ (layout : Layout) (ι : Type) [DecidableEq ι] (capacity : Nat)
        (config : Config (Thread ι) ErrorOp ErrorOp.Answer Event Register),
        ((errorsIn layout ι).restrict (FirstAmong texts)).Reaches (.new capacity) config →
          RegisteredOnce ((errorsIn layout ι).restrict (FirstAmong texts)) config) ↔
      ∀ formatted, texts formatted → formatted.Fits := by
  constructor
  · intro once formatted permitted
    by_contra notFits
    rw [Formatted.Fits, not_or, not_or, Bool.not_eq_true, not_lt, not_le] at notFits
    rcases notFits with ⟨returns, long, notHuge⟩
    rcases registered_twice returns long notHuge permitted with ⟨config, run, twice⟩
    exact twice _ (once _ Bool 1 config run)
  · intro fits layout ι _ capacity config run
    exact registeredOnce_of_fits fits run

/-- A text of 255 characters. -/
def longText : Formatted := ⟨List.replicate 255 120, false⟩

/-- The zero behind a text of 255 characters frees the lock, and a second call registers
its error too. -/
theorem error_registered_twice :
    ¬ ∀ (layout : Layout) (ι : Type) [DecidableEq ι] (capacity : Nat)
        (config : Config (Thread ι) ErrorOp ErrorOp.Answer Event Register),
        (errorsIn layout ι).Reaches (.new capacity) config →
          RegisteredOnce (errorsIn layout ι) config := by
  intro once
  have long : errmsgLen - 1 ≤ longText.text.length := by
    rw [longText, List.length_replicate]
    decide
  have notHuge : longText.text.length < 2 ^ 31 := by
    rw [longText, List.length_replicate]
    decide
  rcases @registered_twice (fun _ => True) longText rfl long notHuge trivial with
    ⟨config, run, twice⟩
  exact twice _ (once (longText.layout long) Bool 1 config (System.steps_of_restrict run))

end LuaJack.Errors
