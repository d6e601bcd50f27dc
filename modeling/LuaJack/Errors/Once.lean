import LuaJack.Atomic.Lock
import LuaJack.Errors.Register

/-!
# Only one error is registered

The first call that gets the lock registers its error, and no other call assigns to the
status or to the message from then on.  The status is set after the message is complete,
so the main thread, which does not take the lock, reads both as that call left them.
-/

namespace LuaJack.Errors

open Atomic

/-! ## The message in memory -/

/-- The memory begins with these characters. -/
def Begins (memory : Nat → UInt8) (text : CString) : Prop :=
  ∀ index char, text[index]? = some char → memory index = char

namespace Begins

variable {memory : Nat → UInt8} {text : CString}

theorem nil (memory : Nat → UInt8) : Begins memory [] := fun _ _ isChar => by cases isChar

/-- A character is stored behind the others. -/
theorem append (begins : Begins memory text) (char : UInt8) :
    Begins (Function.update memory text.length char) (text ++ [char]) := by
  intro index other isChar
  by_cases isLast : index = text.length
  · rw [isLast, List.getElem?_concat_length] at isChar
    rw [isLast, Function.update_self]
    exact Option.some.inj isChar
  · rw [Function.update_of_ne isLast]
    apply begins index other
    by_cases inside : index < text.length
    · rw [← List.getElem?_append_left inside]
      exact isChar
    · rw [List.getElem?_eq_none] at isChar
      · cases isChar
      · simp only [List.length_append, List.length_singleton]
        omega

/-- A character is stored farther behind. -/
theorem store (begins : Begins memory text) {index : Nat} (behind : text.length ≤ index)
    (char : UInt8) : Begins (Function.update memory index char) text := by
  intro other otherChar isChar
  have inside := (List.getElem?_eq_some_iff.mp isChar).1
  rw [Function.update_of_ne (Nat.ne_of_lt (Nat.lt_of_lt_of_le inside behind))]
  exact begins other otherChar isChar

theorem of_append {rest : CString} (begins : Begins memory (text ++ rest)) :
    Begins memory text := by
  intro index char isChar
  apply begins index char
  rw [List.getElem?_append_left (List.getElem?_eq_some_iff.mp isChar).1]
  exact isChar

end Begins

/-- The message that a call leaves, without the terminating zero. The newline is behind it
if the text has been truncated. -/
def Call.message (call : Call) : CString :=
  match call.fmt with
  | none => []
  | some formatted =>
      if formatted.fails || 2 ^ 31 ≤ formatted.text.length then
        []
      else if formatted.text.length < errmsgLen - 2 then
        formatted.text ++ [10]
      else
        formatted.text.take (errmsgLen - 3)

/-- What the main thread does when it finds that a call has registered its error. -/
def Call.outcome (call : Call) : Outcome :=
  if call.fmt.isSome then
    .error (call.message.takeWhile (· ≠ 0))
  else
    .exit call.code

theorem Call.length_message (call : Call) : call.message.length < errmsgLen := by
  unfold message
  split
  · decide
  · split
    · decide
    · split
      · simp only [List.length_append, List.length_singleton, errmsgLen] at *
        omega
      · simp only [List.length_take, errmsgLen]
        omega

/-! ## The bits of the status -/

section Status

variable (call : Call)

theorem exiting_status : exiting call.status = true := by
  unfold Call.status
  generalize call.fmt.isSome = isSome
  generalize call.code = code
  cases isSome <;> cases code <;> decide

theorem errmsg_status : (call.status &&& errmsgFlag ≠ 0) ↔ call.fmt.isSome = true := by
  unfold Call.status
  generalize call.fmt.isSome = isSome
  generalize call.code = code
  cases isSome <;> cases code <;> decide

theorem code_status : (decide (call.status &&& codeFlag ≠ 0)) = call.code := by
  unfold Call.status
  generalize call.fmt.isSome = isSome
  generalize call.code = code
  cases isSome <;> cases code <;> decide

end Status

/-! ## What the calls do to the variables -/

/-- Who has assigned to the variables is only recorded, never forgotten. -/
structure Grows (before after : Register) : Prop where
  holders : before.holders <+: after.holders
  stores : before.stores <+: after.stores
  setters : before.setters <+: after.setters

namespace Grows

theorem refl (register : Register) : Grows register register where
  holders := List.prefix_refl _
  stores := List.prefix_refl _
  setters := List.prefix_refl _

theorem trans {first second third : Register} (one : Grows first second)
    (two : Grows second third) : Grows first third where
  holders := one.holders.trans two.holders
  stores := one.stores.trans two.stores
  setters := one.setters.trans two.setters

theorem exec (op : ErrorOp) (register : Register) :
    Grows register (op.exec register).2 := by
  cases op with
  | trylock call =>
      simp only [ErrorOp.exec]
      split
      · exact refl register
      · exact ⟨List.prefix_append _ _, List.prefix_refl _, List.prefix_refl _⟩
  | setStatus ticket status =>
      exact ⟨List.prefix_refl _, List.prefix_refl _, List.prefix_append _ _⟩
  | store ticket index char =>
      exact ⟨List.prefix_refl _, List.prefix_append _ _, List.prefix_refl _⟩
  | _ => exact ⟨List.prefix_refl _, List.prefix_refl _, List.prefix_refl _⟩

theorem of_meaning {op : ErrorOp} {before after : Register} {answer : op.Answer}
    (performed : ErrorOp.meaning op before answer after) : Grows before after := by
  have isAfter : after = (op.exec before).2 := congrArg Prod.snd performed
  rw [isAfter]
  exact exec op before

end Grows

/-- No error has been registered, and none is being registered. -/
structure Blank (register : Register) : Prop where
  stores : register.stores = []
  setters : register.setters = []
  status : register.status = 0

/-- A call is storing its message. -/
structure Drafting (ticket : Nat) (call : Call)
    (text : CString) (register : Register) : Prop where
  holder : register.holders[ticket]? = some call
  stores : ∀ store ∈ register.stores, store.ticket = ticket
  setters : register.setters = []
  status : register.status = 0
  errmsg : Begins register.errmsg text

/-- A call has registered its error: it alone has assigned to the variables, and the
status and the message are those of the call. -/
structure Recorded (ticket : Nat) (call : Call) (register : Register) : Prop where
  holder : register.holders[ticket]? = some call
  stores : ∀ store ∈ register.stores, store.ticket = ticket
  setters : register.setters = [ticket]
  status : register.status = call.status
  errmsg : Begins register.errmsg (call.message ++ [0])

/-- A call has set the status. -/
structure Settled (ticket : Nat) (call : Call) (register : Register) : Prop where
  holder : register.holders[ticket]? = some call
  setter : ticket ∈ register.setters

theorem Recorded.settled {ticket : Nat} {call : Call} {register : Register}
    (recorded : Recorded ticket call register) : Settled ticket call register where
  holder := recorded.holder
  setter := by
    rw [recorded.setters]
    exact List.mem_singleton_self ticket

namespace Recorded

variable {ticket : Nat} {call : Call} {register : Register}

/-- Another call gets the lock. -/
theorem enter (recorded : Recorded ticket call register) (other : Call) :
    Recorded ticket call
      { register with locked := true, holders := register.holders ++ [other] } where
  holder := by
    rw [List.getElem?_append_left (List.getElem?_eq_some_iff.mp recorded.holder).1]
    exact recorded.holder
  stores := recorded.stores
  setters := recorded.setters
  status := recorded.status
  errmsg := recorded.errmsg

/-- The lock is released. -/
theorem leave (recorded : Recorded ticket call register) :
    Recorded ticket call { register with locked := false } where
  holder := recorded.holder
  stores := recorded.stores
  setters := recorded.setters
  status := recorded.status
  errmsg := recorded.errmsg

end Recorded

/-- That a call has set the status remains so. -/
theorem Settled.grows {ticket : Nat} {call : Call} {before after : Register}
    (settled : Settled ticket call before) (grows : Grows before after) :
    Settled ticket call after where
  holder := by
    rcases List.getElem?_eq_some_iff.mp settled.holder with ⟨inside, isCall⟩
    rw [← isCall]
    exact List.prefix_iff_getElem?.mp grows.holders ticket inside
  setter := grows.setters.subset settled.setter

/-! ## The lock -/

/-- How far the holder of the lock is. -/
inductive Phase where
  | entered (ticket : Nat) (call : Call)
  | drafting (ticket : Nat) (call : Call) (text : CString)
  | recorded

/-- The lock of `main.c`. -/
def errlock : Lock Register Phase where
  locked := Register.locked
  free := fun register =>
    (Blank register ∧ register.holders = []) ∨
      ∃ ticket call, Recorded ticket call register
  held := fun phase register =>
    match phase with
    | .entered ticket call => register.holders[ticket]? = some call ∧
        (Blank register ∨ ∃ ticket call, Recorded ticket call register)
    | .drafting ticket call text => Drafting ticket call text register
    | .recorded => ∃ ticket call, Recorded ticket call register

/-- Only a call that has got the lock holds it. -/
theorem holders_of_held {phase : Phase} {register : Register}
    (held : errlock.held phase register) :
    register.holders ≠ [] := by
  have nonempty {ticket : Nat} {call : Call}
      (holder : register.holders[ticket]? = some call) :
      register.holders ≠ [] := by
    intro isEmpty
    rw [isEmpty] at holder
    cases holder
  cases phase with
  | entered ticket call => exact nonempty held.1
  | drafting ticket call text => exact nonempty held.holder
  | recorded =>
      rcases held with ⟨ticket, call, recorded⟩
      exact nonempty recorded.holder

/-- Somewhere between two calls, or inside one of them. -/
inductive Situation (register : Register) : Prop where
  | blank (blank : Blank register)
  | drafting {ticket : Nat} {call : Call} {text : CString}
      (drafting : Drafting ticket call text register)
  | recorded {ticket : Nat} {call : Call} (recorded : Recorded ticket call register)

namespace Situation

variable {register : Register} {ticket : Nat} {call : Call}

theorem of_guards {ι : Type} {phases : ι → Option Phase}
    (guards : errlock.Guards phases register) : Situation register := by
  rcases guards with ⟨_, free, _⟩ | ⟨_, phase, _, _, held, _⟩
  · rcases free with ⟨blank, _⟩ | ⟨ticket, call, recorded⟩
    · exact .blank blank
    · exact .recorded recorded
  · cases phase with
    | entered ticket call =>
        rcases held.2 with blank | ⟨ticket, call, recorded⟩
        · exact .blank blank
        · exact .recorded recorded
    | drafting ticket call text => exact .drafting held
    | recorded =>
        rcases held with ⟨ticket, call, recorded⟩
        exact .recorded recorded

/-- The main thread finds nothing, or what a call has registered. -/
theorem recorded_of_exiting (situation : Situation register)
    (isExiting : exiting register.status = true) :
    ∃ ticket call, Recorded ticket call register := by
  cases situation with
  | blank blank =>
      rw [blank.status] at isExiting
      cases isExiting
  | drafting drafting =>
      rw [drafting.status] at isExiting
      cases isExiting
  | recorded recorded => exact ⟨_, _, recorded⟩

theorem recorded_of_settled (situation : Situation register)
    (settled : Settled ticket call register) : Recorded ticket call register := by
  cases situation with
  | blank blank =>
      have member := settled.setter
      rw [blank.setters] at member
      cases member
  | drafting drafting =>
      have member := settled.setter
      rw [drafting.setters] at member
      cases member
  | @recorded other otherCall recorded =>
      have member := settled.setter
      rw [recorded.setters] at member
      have isOther := List.mem_singleton.mp member
      subst isOther
      cases recorded.holder.symm.trans settled.holder
      exact recorded

/-- At most one call has assigned to the variables. -/
theorem exclusive (situation : Situation register) :
    ∃ ticket, (∀ store ∈ register.stores, store.ticket = ticket) ∧
      (register.setters = [] ∨ register.setters = [ticket]) := by
  cases situation with
  | blank blank =>
      refine ⟨0, ?_, .inl blank.setters⟩
      intro store member
      rw [blank.stores] at member
      cases member
  | @drafting ticket call text drafting =>
      exact ⟨ticket, drafting.stores, .inl drafting.setters⟩
  | @recorded ticket call recorded =>
      exact ⟨ticket, recorded.stores, .inr recorded.setters⟩

end Situation

/-! ## The threads -/

/-- Where a call of `luajack_errorv_` is. -/
inductive Stage where
  | outside
  /-- The call has got the lock, or has found it taken. -/
  | tried
  | holding (phase : Phase)

/-- The phase of a call that holds the lock. -/
def Stage.phase : Stage → Option Phase
  | holding phase => some phase
  | _ => none

/-- The main thread remembers the call whose error it has found. -/
@[reducible] def Ghost {ι : Type} : Thread ι → Type
  | .main => Option (Nat × Call)
  | .caller _ => Stage

/-- What relates the threads and the variables to what has been reported. -/
structure Sound {ι : Type} (ghosts : (thread : Thread ι) → Ghost thread)
    (register : Register) (log : List (Thread ι × Event)) : Prop where
  guards : errlock.Guards (fun index => Stage.phase (ghosts (.caller index))) register
  known : ∀ ticket call, ghosts .main = some (ticket, call) → Settled ticket call register
  tried : ∀ index, ghosts (.caller index) = .tried → register.holders ≠ []
  returned : ∀ index, (.caller index, .returned) ∈ log → register.holders ≠ []
  checked : ∀ outcome, (.main, .checked (some outcome)) ∈ log →
    ∃ ticket call, Settled ticket call register ∧ outcome = call.outcome

/-- The ghost discipline of the threads. -/
def discipline (ι : Type) :
    Discipline (Thread ι) ErrorOp ErrorOp.Answer Event Register where
  Ghost := Ghost
  idle := fun thread =>
    match thread with
    | .main => none
    | .caller _ => .outside
  settled := fun _ _ => True
  invariant := Sound

section Rules

variable {ι α : Type} [DecidableEq ι]

/-- A thread keeps the discipline. -/
abbrev Keeps (thread : Thread ι) (post : α → Ghost thread → Prop) (ghost : Ghost thread)
    (program : ErrorProgram α) : Prop :=
  (discipline ι).Keeps ErrorOp.meaning thread post ghost program

variable {ghosts : (thread : Thread ι) → Ghost thread} {register after : Register}
variable {log : List (Thread ι × Event)} {index : ι}

/-- The ghost values of the calls after one of them has changed. -/
theorem phases_update (stage : Stage) :
    (fun other => Stage.phase
      (Function.update ghosts (.caller index) stage (.caller other))) =
      Function.update (fun other => Stage.phase (ghosts (.caller other)))
        index stage.phase := by
  funext other
  by_cases isIndex : other = index
  · subst isIndex
    rw [Function.update_self, Function.update_self]
  · have different : Thread.caller other ≠ .caller index := by
      intro same
      cases same
      exact isIndex rfl
    rw [Function.update_of_ne isIndex, Function.update_of_ne different]

/-- A call performs an operation. -/
theorem Sound.caller (sound : Sound ghosts register log) (grows : Grows register after)
    {stage : Stage}
    (guards : errlock.Guards
      (Function.update (fun other => Stage.phase (ghosts (.caller other)))
      index stage.phase) after)
    (tried : stage = .tried → after.holders ≠ []) :
    Sound (Function.update ghosts (.caller index) stage) after log where
  guards := by
    rw [phases_update]
    exact guards
  known := by
    intro ticket call isKnown
    rw [Function.update_of_ne (by intro same; cases same)] at isKnown
    exact (sound.known ticket call isKnown).grows grows
  tried := by
    intro other hasTried
    by_cases isIndex : other = index
    · subst isIndex
      rw [Function.update_self] at hasTried
      exact tried hasTried
    · have different : Thread.caller other ≠ .caller index := by
        intro same
        cases same
        exact isIndex rfl
      rw [Function.update_of_ne different] at hasTried
      exact grows.holders.ne_nil (sound.tried other hasTried)
  returned := fun other member => grows.holders.ne_nil (sound.returned other member)
  checked := by
    intro outcome member
    rcases sound.checked outcome member with ⟨ticket, call, settled, isOutcome⟩
    exact ⟨ticket, call, settled.grows grows, isOutcome⟩

variable {post : α → Ghost (Thread.caller index) → Prop} {op : ErrorOp}
variable {next : op.Answer → ErrorProgram α}

theorem keeps_caller {stage : Stage}
    (step : ∀ phases before, errlock.Guards phases before → phases index = stage.phase →
      ∃ stage' : Stage,
        errlock.Guards (Function.update phases index stage'.phase) (op.exec before).2 ∧
        (stage' = .tried → (op.exec before).2.holders ≠ []) ∧
        Keeps (.caller index) post stage' (next (op.exec before).1)) :
    Keeps (.caller index) post stage (.act op next) := by
  refine ⟨trivial, ?_⟩
  intro ghosts before log answer after turn performed
  have sound : Sound ghosts before log := turn.holds
  have isStage : ghosts (.caller index) = stage := turn.isGhost
  rcases step _ before sound.guards (congrArg Stage.phase isStage) with
    ⟨stage', guards, tried, continues⟩
  have grows := Grows.of_meaning performed
  rw [← performed] at guards tried continues
  exact ⟨stage', sound.caller grows guards tried, continues⟩

/-- A call tries to get the lock. -/
theorem keeps_trylock (call : Call) {rest : Option Nat → ErrorProgram α}
    (fails : Keeps (.caller index) post Stage.tried (rest none))
    (succeeds : ∀ ticket,
      Keeps (.caller index) post (Stage.holding (.entered ticket call))
        (rest (some ticket))) :
    Keeps (.caller index) post Stage.outside (errorOp (.trylock call) >>= rest) := by
  apply keeps_caller
  intro phases before guards isPhase
  simp only [ErrorOp.exec]
  cases isLocked : before.locked with
  | true =>
      refine ⟨.tried, ?_, ?_, fails⟩
      · have same := Function.update_eq_self index phases
        rw [isPhase] at same
        exact same.symm ▸ guards
      · rcases guards with ⟨unlocked, _⟩ | ⟨_, phase, _, _, held, _⟩
        · cases isLocked.symm.trans unlocked
        · exact fun _ => holders_of_held held
  | false =>
      refine ⟨.holding (.entered before.holders.length call), ?_, ?_, succeeds _⟩
      · apply guards.acquire isLocked rfl
        intro free
        refine ⟨by simp, ?_⟩
        rcases free with ⟨blank, _⟩ | ⟨ticket, other, recorded⟩
        · exact .inl ⟨blank.stores, blank.setters, blank.status⟩
        · exact .inr ⟨ticket, other, recorded.enter call⟩
      · intro hasTried
        cases hasTried

/-- An operation of the call that holds the lock. -/
theorem keeps_inside {phase : Phase}
    (step : ∀ before, errlock.held phase before → ∃ phase',
      (op.exec before).2.locked = before.locked ∧ errlock.held phase' (op.exec before).2 ∧
        Keeps (.caller index) post (Stage.holding phase') (next (op.exec before).1)) :
    Keeps (.caller index) post (Stage.holding phase) (.act op next) := by
  apply keeps_caller
  intro phases before guards isPhase
  rcases guards.holder isPhase with ⟨locked, held, others⟩
  rcases step before held with ⟨phase', same, held', continues⟩
  refine ⟨.holding phase', Lock.Guards.update (same.trans locked) held' others,
    ?_, continues⟩
  · intro hasTried
    cases hasTried

/-- The error has been registered, by this call or before. -/
theorem keeps_unlock {rest : Unit → ErrorProgram α}
    (continues : Keeps (.caller index) post Stage.tried (rest ())) :
    Keeps (.caller index) post (Stage.holding .recorded) (errorOp .unlock >>= rest) := by
  apply keeps_caller
  intro phases before guards isPhase
  rcases guards.holder isPhase with ⟨_, held, _⟩
  have hasHolder : before.holders ≠ [] := holders_of_held held
  refine ⟨.tried, guards.release isPhase rfl ?_, fun _ => hasHolder, continues⟩
  rcases held with ⟨ticket, call, recorded⟩
  exact .inr ⟨ticket, call, recorded.leave⟩

/-! ## Registering an error -/

variable {ticket : Nat} {call : Call} {text : CString}

/-- A call stores a character. -/
theorem keeps_store {position : Nat} {char : UInt8} {text' : CString}
    {rest : Unit → ErrorProgram α}
    (begins : ∀ memory, Begins memory text →
      Begins (Function.update memory position char) text')
    (continues : Keeps (.caller index) post (Stage.holding (.drafting ticket call text'))
        (rest ())) :
    Keeps (.caller index) post (Stage.holding (.drafting ticket call text))
      (errorOp (.store ticket position char) >>= rest) := by
  apply keeps_inside
  intro before drafting
  have drafting : Drafting ticket call text before := drafting
  refine ⟨.drafting ticket call text', rfl, ?_, continues⟩
  constructor
  · exact drafting.holder
  · intro store member
    rcases List.mem_append.mp member with old | isNew
    · exact drafting.stores store old
    · rw [List.mem_singleton.mp isNew]
  · exact drafting.setters
  · exact drafting.status
  · exact begins before.errmsg drafting.errmsg

theorem keeps_storeFrom (more : CString) {rest : Unit → ErrorProgram α}
    (continues : Keeps (.caller index) post
      (Stage.holding (.drafting ticket call (text ++ more))) (rest ())) :
    Keeps (.caller index) post (Stage.holding (.drafting ticket call text))
      (storeFrom ticket text.length more >>= rest) := by
  induction more generalizing text with
  | nil =>
      rw [List.append_nil] at continues
      exact continues
  | cons char more ih =>
      have later := @ih (text ++ [char]) (by rw [List.append_assoc]; exact continues)
      rw [List.length_append, List.length_singleton] at later
      rw [storeFrom, bind_assoc]
      exact keeps_store (fun memory begins => begins.append char) later

theorem keeps_storeFromStart {more : CString} {rest : Unit → ErrorProgram α}
    (continues : Keeps (.caller index) post (Stage.holding (.drafting ticket call more))
        (rest ())) :
    Keeps (.caller index) post (Stage.holding (.drafting ticket call []))
      (storeFrom ticket 0 more >>= rest) := keeps_storeFrom more continues

/-- The text is followed by a newline and a zero, unless it has been truncated: then
both are stored behind the zero that ends it. -/
theorem keeps_newline {formatted : Formatted} {rest : Unit → ErrorProgram α}
    (continues : Keeps (.caller index) post (Stage.holding (.drafting ticket call
      ((if formatted.text.length < errmsgLen - 2 then formatted.text ++ [10]
        else formatted.text.take (errmsgLen - 3)) ++ [0]))) (rest ())) :
    Keeps (.caller index) post (Stage.holding (.drafting ticket call
      (formatted.text.take (errmsgLen - 3) ++ [0]))) (do
        errorOp (.store ticket formatted.text.length 10)
        errorOp (.store ticket (formatted.text.length + 1) 0)
        rest ()) := by
  split at continues
  next fits =>
    have whole : formatted.text.take (errmsgLen - 3) = formatted.text :=
      List.take_of_length_le (Nat.le_sub_one_of_lt fits)
    rw [whole]
    apply keeps_store fun memory begins => begins.of_append.append 10
    have length : formatted.text.length + 1 = (formatted.text ++ [10]).length := by
      rw [List.length_append, List.length_singleton]
    rw [length]
    exact keeps_store (fun memory begins => begins.append 0) continues
  next truncated =>
    have length : (formatted.text.take (errmsgLen - 3) ++ [0]).length ≤
        formatted.text.length := by
      simp only [List.length_append, List.length_take,
        List.length_singleton, errmsgLen] at *
      omega
    apply keeps_store fun memory begins => begins.store length 10
    exact keeps_store
      (fun memory begins => begins.store (Nat.le_succ_of_le length) 0) continues

theorem keeps_storeMessage {rest : Unit → ErrorProgram α}
    (continues : Keeps (.caller index) post
      (Stage.holding (.drafting ticket call (call.message ++ [0]))) (rest ())) :
    Keeps (.caller index) post (Stage.holding (.drafting ticket call []))
      (storeMessage ticket call.fmt >>= rest) := by
  cases isFmt : call.fmt with
  | none =>
      have message : call.message = [] := by simp only [Call.message, isFmt]
      rw [message] at continues
      exact keeps_store (fun memory begins => begins.append 0) continues
  | some formatted =>
      simp only [storeMessage, vsnprintf, bind_assoc]
      apply keeps_storeFromStart
      split
      next isNegative =>
        have message : call.message = [] := by
          simp only [Call.message, isFmt, isNegative, if_true]
        rw [message] at continues
        simp only [pure_bind]
        exact keeps_store (fun memory _ => (Begins.nil memory).append 0) continues
      next notNegative =>
        have message : call.message = if formatted.text.length < errmsgLen - 2 then
            formatted.text ++ [10] else formatted.text.take (errmsgLen - 3) := by
          simp only [Call.message, isFmt]
          rw [if_neg notNegative]
        rw [message] at continues
        have length : min formatted.text.length (errmsgLen - 2 - 1) =
            (formatted.text.take (errmsgLen - 2 - 1)).length := by
          rw [List.length_take, Nat.min_comm]
        rw [length]
        simp only [bind_assoc, pure_bind]
        apply keeps_store fun memory begins => begins.append 0
        have positive : ¬(formatted.text.length : Int) < 0 := by omega
        rw [if_neg positive, Int.toNat_natCast, bind_assoc]
        exact keeps_newline continues

/-- A call that has got the lock finds that an error has been registered, or that it can
go on. -/
theorem keeps_getStatus {rest : BitVec 32 → ErrorProgram α}
    (finds : ∀ status, exiting status = true →
      Keeps (.caller index) post (Stage.holding .recorded) (rest status))
    (continues : ∀ status, exiting status = false →
      Keeps (.caller index) post (Stage.holding (.drafting ticket call []))
        (rest status)) :
    Keeps (.caller index) post (Stage.holding (.entered ticket call))
      (errorOp .getStatus >>= rest) := by
  apply keeps_inside
  intro before held
  rcases held with ⟨holder, blank | recorded⟩
  · have notExiting : exiting before.status = false := by
      rw [blank.status]
      rfl
    refine ⟨.drafting ticket call [], rfl, ?_, continues before.status notExiting⟩
    refine ⟨holder, ?_, blank.setters, blank.status, .nil _⟩
    intro store member
    have none : store ∈ before.stores := member
    rw [blank.stores] at none
    cases none
  · have isExiting : exiting before.status = true := by
      rcases recorded with ⟨_, call, recorded⟩
      rw [recorded.status]
      exact exiting_status call
    exact ⟨.recorded, rfl, recorded, finds before.status isExiting⟩

/-- The status is set when the message is complete. -/
theorem keeps_setStatus {rest : Unit → ErrorProgram α}
    (continues : Keeps (.caller index) post (Stage.holding .recorded) (rest ())) :
    Keeps (.caller index) post
      (Stage.holding (.drafting ticket call (call.message ++ [0])))
      (errorOp (.setStatus ticket call.status) >>= rest) := by
  apply keeps_inside
  intro before drafting
  have drafting : Drafting ticket call (call.message ++ [0]) before := drafting
  refine ⟨.recorded, rfl, ⟨ticket, call, ?_⟩, continues⟩
  constructor
  · exact drafting.holder
  · exact drafting.stores
  · show before.setters ++ [ticket] = [ticket]
    rw [drafting.setters, List.nil_append]
  · rfl
  · exact drafting.errmsg

theorem keeps_pipeWrite {rest : Unit → ErrorProgram α}
    (continues : Keeps (.caller index) post (Stage.holding .recorded) (rest ())) :
    Keeps (.caller index) post (Stage.holding .recorded)
      (errorOp .pipeWrite >>= rest) := by
  apply keeps_inside
  intro before held
  refine ⟨.recorded, rfl, ?_, continues⟩
  rcases held with ⟨ticket, call, recorded⟩
  exact ⟨ticket, call, recorded.holder, recorded.stores,
    recorded.setters, recorded.status, recorded.errmsg⟩

theorem keeps_luajackErrorv_ (call : Call) {rest : Unit → ErrorProgram α}
    (continues : Keeps (.caller index) post Stage.tried (rest ())) :
    Keeps (.caller index) post Stage.outside (luajackErrorv_ call >>= rest) := by
  rw [luajackErrorv_, bind_assoc]
  apply keeps_trylock call
  · exact continues
  · intro ticket
    rw [bind_assoc]
    apply keeps_getStatus
    · intro status isExiting
      rw [if_pos isExiting]
      exact keeps_unlock continues
    · intro status notExiting
      rw [if_neg (Bool.eq_false_iff.mp notExiting)]
      simp only [bind_assoc]
      apply keeps_storeMessage
      apply keeps_setStatus
      apply keeps_pipeWrite
      exact keeps_unlock continues

end Rules

/-! ## Checking for an error -/

section Main

variable {ι α : Type} [DecidableEq ι] {ticket : Nat} {call : Call}
variable {post : α → Ghost (Thread.main : Thread ι) → Prop}

/-- The main thread remembers something else. -/
theorem Sound.main {ghosts : (thread : Thread ι) → Ghost thread} {register : Register}
    {log : List (Thread ι × Event)} (sound : Sound ghosts register log)
    {known : Option (Nat × Call)}
    (settled : ∀ ticket call, known = some (ticket, call) →
      Settled ticket call register) :
    Sound (Function.update ghosts .main known) register log := by
  have others (index : ι) : Function.update ghosts .main known (.caller index) =
      ghosts (.caller index) := Function.update_of_ne (by intro same; cases same) _ _
  constructor
  · simp only [others]
    exact sound.guards
  · intro ticket call isCall
    have isNow : Function.update ghosts .main known .main = known :=
      Function.update_self _ _ _
    exact settled ticket call (isNow.symm.trans isCall)
  · intro index
    rw [others]
    exact sound.tried index
  · exact sound.returned
  · exact sound.checked

/-- The main thread only reads. What it remembers it can rely on. -/
theorem keeps_main {known : Option (Nat × Call)} {op : ErrorOp}
    {rest : op.Answer → ErrorProgram α}
    (reads : ∀ register, (op.exec register).2 = register)
    (step : ∀ before, Situation before →
      (∀ ticket call, known = some (ticket, call) → Recorded ticket call before) →
      ∃ known', (∀ ticket call, known' = some (ticket, call) →
        Recorded ticket call before) ∧
        Keeps (.main : Thread ι) post known' (rest (op.exec before).1)) :
    Keeps (.main : Thread ι) post known (errorOp op >>= rest) := by
  rw [Program.perform_bind]
  refine ⟨trivial, ?_⟩
  intro ghosts before log answer after turn performed
  have sound : Sound ghosts before log := turn.holds
  have situation := Situation.of_guards sound.guards
  have isKnown : ghosts .main = known := turn.isGhost
  have remembers (ticket : Nat) (call : Call) (isCall : known = some (ticket, call)) :
      Recorded ticket call before :=
    situation.recorded_of_settled (sound.known ticket call (isKnown.trans isCall))
  rcases step before situation remembers with ⟨known', learned, continues⟩
  have isAnswer : answer = (op.exec before).1 := congrArg Prod.fst performed
  have isAfter : after = before := (congrArg Prod.snd performed).trans (reads before)
  rw [isAnswer, isAfter]
  have settled := fun ticket call isCall => (learned ticket call isCall).settled
  exact ⟨known', sound.main settled, continues⟩

section Found

/-- The main thread reads the status again after it has found an error. -/
theorem keeps_status {rest : BitVec 32 → ErrorProgram α}
    (continues : Keeps (.main : Thread ι) post (some (ticket, call)) (rest call.status)) :
    Keeps (.main : Thread ι) post (some (ticket, call))
      (errorOp .getStatus >>= rest) := by
  apply keeps_main fun _ => rfl
  intro before _ remembers
  have isStatus : before.status = call.status := (remembers ticket call rfl).status
  rw [← isStatus] at continues
  exact ⟨_, remembers, continues⟩

/-- The main thread reads a character of the message, or the zero behind it. -/
theorem keeps_load {index : Nat} {char : UInt8} {rest : UInt8 → ErrorProgram α}
    (isChar : (call.message ++ [0])[index]? = some char)
    (continues : Keeps (.main : Thread ι) post (some (ticket, call)) (rest char)) :
    Keeps (.main : Thread ι) post (some (ticket, call))
      (errorOp (.load index) >>= rest) := by
  apply keeps_main fun _ => rfl
  intro before _ remembers
  have isChar : before.errmsg index = char :=
    (remembers ticket call rfl).errmsg index char isChar
  rw [← isChar] at continues
  exact ⟨_, remembers, continues⟩

/-- The main thread reads the whole message. -/
theorem keeps_pushstring (remaining index : Nat) (inside : index ≤ call.message.length)
    (enough : call.message.length < index + remaining) {rest : CString → ErrorProgram α}
    (continues : Keeps (.main : Thread ι) post (some (ticket, call))
      (rest ((call.message.drop index).takeWhile (· ≠ 0)))) :
    Keeps (.main : Thread ι) post (some (ticket, call))
      (pushstring remaining index >>= rest) := by
  induction remaining generalizing index rest with
  | zero => exact absurd enough (Nat.not_lt.mpr inside)
  | succ remaining ih =>
      rw [pushstring, bind_assoc]
      by_cases isEnd : index = call.message.length
      · rw [isEnd, List.drop_length] at continues
        rw [isEnd]
        apply keeps_load List.getElem?_concat_length
        exact continues
      · have within : index < call.message.length := Nat.lt_of_le_of_ne inside isEnd
        have isChar : (call.message ++ [0])[index]? = some call.message[index] := by
          rw [List.getElem?_append_left within, List.getElem?_eq_getElem within]
        apply keeps_load isChar
        rw [List.drop_eq_getElem_cons within] at continues
        by_cases isZero : call.message[index] = 0
        · rw [List.takeWhile_cons_of_neg (by simpa using isZero)] at continues
          rw [if_pos isZero]
          exact continues
        · rw [List.takeWhile_cons_of_pos (by simpa using isZero)] at continues
          rw [if_neg isZero, bind_assoc]
          apply ih (index + 1) within
          · rw [Nat.add_right_comm, Nat.add_assoc]
            exact enough
          · exact continues

end Found

/-- What the main thread finds is what one call has registered. -/
theorem keeps_luajackCheckerror {rest : Option Outcome → ErrorProgram α}
    (nothing : Keeps (.main : Thread ι) post none (rest none))
    (found : ∀ ticket call,
      Keeps (.main : Thread ι) post (some (ticket, call)) (rest (some call.outcome))) :
    Keeps (.main : Thread ι) post none (luajackCheckerror >>= rest) := by
  rw [luajackCheckerror, bind_assoc]
  apply keeps_main fun _ => rfl
  intro before situation _
  cases isExiting : exiting before.status with
  | false =>
      refine ⟨none, fun _ _ isCall => (by cases isCall), ?_⟩
      have isFalse : exiting (ErrorOp.exec .getStatus before).1 = false := isExiting
      simp only [isFalse]
      exact nothing
  | true =>
      rcases situation.recorded_of_exiting isExiting with ⟨ticket, call, recorded⟩
      refine ⟨some (ticket, call), ?_, ?_⟩
      · intro _ _ isCall
        cases isCall
        exact recorded
      · have isTrue : exiting (ErrorOp.exec .getStatus before).1 = true := isExiting
        simp only [isTrue, if_true, bind_assoc]
        apply keeps_status
        have finds := found ticket call
        unfold Call.outcome at finds
        by_cases hasMessage : call.fmt.isSome
        · rw [if_pos ((errmsg_status call).mpr hasMessage), bind_assoc]
          rw [if_pos hasMessage] at finds
          apply keeps_pushstring errmsgLen 0 (Nat.zero_le _)
          · rw [Nat.zero_add]
            exact call.length_message
          · exact finds
        · rw [if_neg fun flag => hasMessage ((errmsg_status call).mp flag), bind_assoc]
          rw [if_neg hasMessage] at finds
          apply keeps_status
          rw [code_status]
          exact finds

end Main

/-! ## Runs -/

section Runs

variable {ι : Type} [DecidableEq ι]
variable {config later : Config (Thread ι) ErrorOp ErrorOp.Answer Event Register}

variable {ghosts : (thread : Thread ι) → Ghost thread} {register : Register}
variable {log : List (Thread ι × Event)}

omit [DecidableEq ι] in
/-- A call returns. -/
theorem Sound.report (sound : Sound ghosts register log)
    (thread : Thread ι) (event : Event)
    (returned : event = .returned → register.holders ≠ [])
    (checked : ∀ outcome, event = .checked (some outcome) →
      ∃ ticket call, Settled ticket call register ∧ outcome = call.outcome) :
    Sound ghosts register (log ++ [(thread, event)]) where
  guards := sound.guards
  known := sound.known
  tried := sound.tried
  returned := by
    intro index member
    rcases List.mem_append.mp member with old | isNew
    · exact sound.returned index old
    · exact returned (congrArg Prod.snd (List.mem_singleton.mp isNew)).symm
  checked := by
    intro outcome member
    rcases List.mem_append.mp member with old | isNew
    · exact sound.checked outcome old
    · exact checked outcome (congrArg Prod.snd (List.mem_singleton.mp isNew)).symm

theorem returns_nothing :
    (discipline ι).Returns .main (.checked none) (none : Option (Nat × Call)) := by
  intro ghosts register log turn
  have sound : Sound ghosts register log := turn.holds
  have forgot : Sound (Function.update ghosts .main none) register log :=
    sound.main fun _ _ isCall => by cases isCall
  exact forgot.report _ _ (fun isReturned => by cases isReturned)
    fun _ isChecked => by cases isChecked

theorem returns_found (ticket : Nat) (call : Call) :
    (discipline ι).Returns .main (.checked (some call.outcome))
      (some (ticket, call)) := by
  intro ghosts register log turn
  have sound : Sound ghosts register log := turn.holds
  have isGhost : ghosts .main = some (ticket, call) := turn.isGhost
  have forgot : Sound (Function.update ghosts .main none) register log :=
    sound.main fun _ _ isCall => by cases isCall
  apply forgot.report
  · exact fun isReturned => by cases isReturned
  · intro outcome isChecked
    cases isChecked
    exact ⟨ticket, call, sound.known ticket call isGhost, rfl⟩

theorem returns_tried (index : ι) :
    (discipline ι).Returns (.caller index) .returned Stage.tried := by
  intro ghosts register log turn
  have sound : Sound ghosts register log := turn.holds
  have isGhost : ghosts (.caller index) = .tried := turn.isGhost
  have left : Sound (Function.update ghosts (.caller index) Stage.outside)
      register log := by
    apply sound.caller (.refl register)
    · have same := Function.update_eq_self index fun other =>
          Stage.phase (ghosts (.caller other))
      rw [isGhost] at same
      exact same.symm ▸ sound.guards
    · exact fun hasTried => by cases hasTried
  apply left.report
  · exact fun _ => sound.tried index isGhost
  · exact fun _ isChecked => by cases isChecked

theorem keeps_calls (thread : Thread ι) (program : ErrorProgram Event)
    (offered : (errors ι).calls thread program) :
    Keeps thread ((discipline ι).Returns thread)
      ((discipline ι).idle thread) program := by
  cases thread with
  | main =>
      have isProgram : program = do return .checked (← luajackCheckerror) := offered
      rw [isProgram]
      apply keeps_luajackCheckerror
      · exact returns_nothing
      · exact returns_found
  | caller index =>
      rcases offered with ⟨program, rfl, offered⟩
      have isCall : ∃ call, program = luajackErrorv_ call := by
        rcases offered with ⟨fmt, isError | isErrorv⟩ | ⟨code, isExit⟩
        · cases fmt with
          | none => exact ⟨_, isError⟩
          | some formatted => exact ⟨_, isError⟩
        · exact ⟨_, isErrorv⟩
        · exact ⟨_, isExit⟩
      rcases isCall with ⟨call, rfl⟩
      apply keeps_luajackErrorv_
      exact returns_tried index

/-- What holds in every configuration that a run reaches. -/
theorem justified_of_reaches {capacity : Nat}
    (run : (errors ι).Reaches (.new capacity) config) :
    ∃ ghosts, (discipline ι).Justified (errors ι) config ghosts := by
  apply Discipline.justified_of_reaches _ (fun _ => trivial) keeps_calls run
  constructor
  · exact .inl ⟨rfl, .inl ⟨⟨rfl, rfl, rfl⟩, rfl⟩, fun _ => rfl⟩
  · exact fun _ _ isCall => by cases isCall
  · exact fun _ hasTried => by cases hasTried
  · exact fun _ member => by cases member
  · exact fun _ member => by cases member

theorem situation_of_reaches {capacity : Nat}
    (run : (errors ι).Reaches (.new capacity) config) : Situation config.shared := by
  rcases justified_of_reaches run with ⟨ghosts, justified⟩
  have sound : Sound ghosts config.shared config.log := justified.holds
  exact .of_guards sound.guards

/-- What a call has registered stays, whatever happens later. -/
theorem recorded_of_steps {capacity : Nat} {ticket : Nat} {call : Call}
    (run : (errors ι).Reaches (.new capacity) config)
    (steps : (errors ι).Steps config later)
    (recorded : Recorded ticket call config.shared) :
    Recorded ticket call later.shared := by
  have grows : Grows config.shared later.shared :=
    System.shared_of_steps Grows.refl Grows.trans (fun _ _ _ _ => Grows.of_meaning) steps
  exact (situation_of_reaches (run.trans steps)).recorded_of_settled
    (recorded.settled.grows grows)

/-- The status and the message are assigned to by at most one call. When the main thread
can observe that an error has been registered, both are those of this call, and stay so.
If a call has returned and none is in progress, an error has been registered.  What the
main thread reports is what has been registered. -/
structure RegisteredOnce
    (system : System (Thread ι) ErrorOp ErrorOp.Answer Event Register)
    (config : Config (Thread ι) ErrorOp ErrorOp.Answer Event Register) : Prop where
  once : ∃ ticket, (∀ store ∈ config.shared.stores, store.ticket = ticket) ∧
    (config.shared.setters = [] ∨ config.shared.setters = [ticket])
  complete : exiting config.shared.status = true → ∃ ticket call,
    Recorded ticket call config.shared ∧
      ∀ later, system.Steps config later → Recorded ticket call later.shared
  kept : (∃ index, (.caller index, .returned) ∈ config.log) →
    (∀ index, config.running (.caller index) = none) → exiting config.shared.status = true
  reported : ∀ outcome, (.main, .checked (some outcome)) ∈ config.log →
    ∃ ticket call, Recorded ticket call config.shared ∧ outcome = call.outcome

/-- As long as no store behind the message changes anything else, errors are registered
once. -/
theorem registeredOnce_of_reaches {capacity : Nat}
    (run : (errors ι).Reaches (.new capacity) config) :
    RegisteredOnce (errors ι) config := by
  have situation := situation_of_reaches run
  rcases justified_of_reaches run with ⟨ghosts, justified⟩
  have sound : Sound ghosts config.shared config.log := justified.holds
  refine ⟨situation.exclusive, ?_, ?_, ?_⟩
  · intro isExiting
    rcases situation.recorded_of_exiting isExiting with ⟨ticket, call, recorded⟩
    exact ⟨ticket, call, recorded, fun later steps =>
      recorded_of_steps run steps recorded⟩
  · rintro ⟨index, returned⟩ quiet
    have hasHolder := sound.returned index returned
    rcases sound.guards with ⟨_, free, _⟩ | ⟨holder, phase, _, isHolder, _⟩
    · rcases free with ⟨_, isEmpty⟩ | ⟨ticket, call, recorded⟩
      · exact absurd isEmpty hasHolder
      · rw [recorded.status]
        exact exiting_status call
    · have outside : ghosts (.caller holder) = .outside :=
        justified.outside (.caller holder) (quiet holder)
      have noPhase : Stage.phase (ghosts (.caller holder)) = none :=
        congrArg Stage.phase outside
      cases noPhase.symm.trans isHolder
  · intro outcome member
    rcases sound.checked outcome member with ⟨ticket, call, settled, isOutcome⟩
    exact ⟨ticket, call, situation.recorded_of_settled settled, isOutcome⟩

end Runs

end LuaJack.Errors
