import LuaJack.Callback.Handler

/-!
# Flushing the queue of events

`callback_flush` removes the pending events one after the other and has each of them
handled.  Every removed event must be freed once.  Both the handlers and the loop
free events, and this module says in exactly which cases they agree.
-/

namespace LuaJack

open Atomic

/-- An event that has been removed from the queue. The serial number tells apart events
that occupied the same memory one after the other. -/
structure Pending where
  serial : Nat
  evt : Evt
  deriving DecidableEq, Repr

/-- The accesses of `callback_flush`. -/
inductive FlushOp where
  | ismainthread
  | luajackError (message : String)
  | exiting
  | evtCount
  | evtRemove
  /-- An access of the code that handles a removed event. -/
  | handling (pending : Pending) (op : HandlerOp)
  /-- `lua_gc`. -/
  | collect

/-- What each access returns. -/
@[reducible] def FlushOp.Answer : FlushOp → Type
  | ismainthread => Bool
  | luajackError _ => Unit
  | exiting => Bool
  | evtCount => BitVec 32
  | evtRemove => Option Pending
  | handling _ op => op.Answer
  | collect => Unit

/-- Code that flushes the queue. -/
abbrev Flush := Program FlushOp FlushOp.Answer Outcome

/-- Perform one access. -/
abbrev flushOp (op : FlushOp) :
    Program FlushOp FlushOp.Answer op.Answer := Program.perform op

/-- Handle an event from within the flush. -/
def Handler.forEvent (pending : Pending) : Handler → Flush
  | .done outcome => .done outcome
  | .act op next =>
      .act (.handling pending op) fun answer => forEvent pending (next answer)

/-- The loop of `callback_flush`, with the number of events that it may still remove. -/
def flushLoop : Nat → Flush
  | 0 => do
      flushOp .collect
      return .returned
  | n + 1 => do
      match ← flushOp .evtRemove with
      | none =>
          flushOp .collect
          return .returned
      | some pending =>
          match ← (dispatch pending.evt).forEvent pending with
          | .returned => flushLoop n
          | outcome => return outcome

/-- `callback_flush`. -/
def callbackFlush : Flush := do
  if ← flushOp .ismainthread then
    if ← flushOp .exiting then
      return .returned
    else
      let n ← flushOp .evtCount
      flushLoop n.toNat
  else
    flushOp (.luajackError "function can be called only in main thread")
    return .returned

/-- The state counts the events that have been removed. Everything else that an access
returns is left open: other threads may insert events and register errors at any time,
and a Lua function may do anything, even flush the queue itself. -/
def flushMeaning : Meaning FlushOp FlushOp.Answer Nat
  | .evtRemove, before, answer, after =>
      match answer with
      | none => after = before
      | some pending => pending.serial = before ∧ after = before + 1
  | .handling _ (.pcall _), before, _, after => before ≤ after
  | _, before, _, after => after = before

/-! ## Events in a history -/

/-- The answers that the accesses of handlers have received. -/
abbrev HandlerHistory := List (Occurrence HandlerOp HandlerOp.Answer)

/-- The answers that the accesses of a flush have received. -/
abbrev FlushHistory := List (Occurrence FlushOp FlushOp.Answer)

/-- The access frees the event. -/
def isFree : Occurrence HandlerOp HandlerOp.Answer → Bool
  | ⟨.evtFree, _⟩ => true
  | _ => false

/-- How often the event that is handled has been passed to `evt_free`. -/
def HandlerHistory.frees (history : HandlerHistory) : Nat := history.countP isFree

/-- The events that have been removed from the queue. -/
def FlushHistory.removed (history : FlushHistory) : List Pending :=
  history.filterMap fun
    | ⟨.evtRemove, answer⟩ => answer
    | _ => none

/-- What has been done with one of the removed events. -/
def FlushHistory.part (history : FlushHistory) (pending : Pending) : HandlerHistory :=
  history.filterMap fun
    | ⟨.handling other op, answer⟩ => if other = pending then some ⟨op, answer⟩ else none
    | _ => none

/-! ## Handling one event -/

/-- The environment lets the handler and the loop agree on who frees the event: the
exiting flag is not set when the handler looks, all arguments can be encoded once there
is a function to call, and a session callback returns values of the right types. -/
structure Orderly (kind : CallbackKind) (evt : Evt)
    (history : HandlerHistory) : Prop where
  notExiting : ⟨.exiting, true⟩ ∉ history
  canGrow : ⟨.checkstack, false⟩ ∉ history
  isMode : kind = .latency → ∀ ref function, ⟨.rawgeti ref, some function⟩ ∈ history →
    (latencyPushmode evt.mode).isOk
  isType : kind = .session → ∀ ref function, ⟨.rawgeti ref, some function⟩ ∈ history →
    ∃ event, evt.sessionEvent = some event ∧ (sessionPushtype event.type).isOk
  isResult : kind = .session → ∀ call results, ⟨.pcall call, .ok results⟩ ∈ history →
    (sessionResults results).isOk

/-- A handler that returns leaves the event to the loop; any other has freed it. -/
def Balanced (outcome : Outcome) (history : HandlerHistory) : Prop :=
  HandlerHistory.frees history = if outcome = .returned then 0 else 1

variable {σ : Type} {meaning : Meaning HandlerOp HandlerOp.Answer σ} {before after : σ}
variable {history : HandlerHistory} {outcome : Outcome} {cud : Cud} {evt : Evt}
variable {kind slot : CallbackKind} {body : LuaFunction → Handler}

/-- The three ways through `BEGIN`. -/
theorem runs_beginHandler
    (run : (beginHandler cud slot body).Runs meaning before history outcome after) :
    history = [⟨.exiting, true⟩, ⟨.evtFree, ()⟩] ∧ outcome = .returned ∨
    history = [⟨.exiting, false⟩, ⟨.rawgeti (cud.refs slot), none⟩, ⟨.evtFree, ()⟩] ∧
      outcome = .error unexpectedError ∨
    ∃ function rest middle,
      history = ⟨.exiting, false⟩ :: ⟨.rawgeti (cud.refs slot), some function⟩ :: rest ∧
        (body function).Runs meaning middle rest outcome after := by
  unfold beginHandler at run
  rw [Program.perform_bind, Program.runs_act] at run
  rcases run with ⟨exiting, first, rest, rfl, _, run⟩
  cases exiting with
  | true =>
      simp only [if_true, Program.perform_bind, Program.runs_act, Program.pure_eq,
        Program.runs_done] at run
      rcases run with ⟨_, _, _, rfl, _, rfl, rfl, _⟩
      exact .inl ⟨rfl, rfl⟩
  | false =>
      simp only [Bool.false_eq_true, if_false, Program.perform_bind,
        Program.runs_act] at run
      rcases run with ⟨function, second, rest, rfl, _, run⟩
      cases function with
      | none =>
          simp only [Program.runs_act, Program.pure_eq, Program.runs_done] at run
          rcases run with ⟨_, _, _, rfl, _, rfl, rfl, _⟩
          exact .inr (.inl ⟨rfl, rfl⟩)
      | some function => exact .inr (.inr ⟨function, rest, second, rfl, run⟩)

/-- The two ways through `EXEC`. -/
theorem runs_exec {args : List LuaValue} {function : LuaFunction}
    (run : (exec evt args function).Runs meaning before history outcome after) :
    (∃ call results, history = [⟨.pcall call, .ok results⟩]) ∧ outcome = .returned ∨
    (∃ call value, history = [⟨.pcall call, .error value⟩, ⟨.evtFree, ()⟩] ∧
      outcome = .raised value) := by
  unfold exec at run
  rw [Program.perform_bind, Program.runs_act] at run
  rcases run with ⟨answer, first, rest, rfl, _, run⟩
  cases answer with
  | ok results =>
      simp only [Program.pure_eq, Program.runs_done] at run
      rcases run with ⟨rfl, rfl, _⟩
      exact .inl ⟨⟨_, results, rfl⟩, rfl⟩
  | error value =>
      simp only [Program.perform_bind, Program.runs_act,
        Program.pure_eq, Program.runs_done] at run
      rcases run with ⟨_, _, _, rfl, _, rfl, rfl, _⟩
      exact .inr ⟨_, value, rfl, rfl⟩

/-- Occurrences that matter to nobody. -/
def Harmless : Occurrence HandlerOp HandlerOp.Answer → Prop
  | ⟨.cudSearch _, _⟩ | ⟨.exiting, false⟩ | ⟨.evtFree, _⟩ => True
  | _ => False

theorem Orderly.mono {first second : HandlerHistory} (orderly : Orderly kind evt second)
    (subset : ∀ occurrence ∈ first, occurrence ∈ second ∨ Harmless occurrence) :
    Orderly kind evt first where
  notExiting := fun member => (subset _ member).elim orderly.notExiting id
  canGrow := fun member => (subset _ member).elim orderly.canGrow id
  isMode := fun isLatency _ _ member =>
    (subset _ member).elim (orderly.isMode isLatency _ _) False.elim
  isType := fun isSession _ _ member =>
    (subset _ member).elim (orderly.isType isSession _ _) False.elim
  isResult := fun isSession _ _ member =>
    (subset _ member).elim (orderly.isResult isSession _ _) False.elim

/-- Harmless occurrences may be added in front. -/
theorem orderly_cons {occurrence : Occurrence HandlerOp HandlerOp.Answer}
    (harmless : Harmless occurrence) :
    Orderly kind evt (occurrence :: history) ↔ Orderly kind evt history := by
  constructor
  · intro orderly
    exact orderly.mono fun _ member => .inl (.tail _ member)
  · intro orderly
    apply orderly.mono
    intro other member
    cases member with
    | head => exact .inr harmless
    | tail _ member => exact .inl member

/-- Harmless occurrences may be added at the end. -/
theorem orderly_concat {occurrence : Occurrence HandlerOp HandlerOp.Answer}
    (harmless : Harmless occurrence) :
    Orderly kind evt (history ++ [occurrence]) ↔ Orderly kind evt history := by
  constructor
  · intro orderly
    exact orderly.mono fun _ member => .inl (List.mem_append_left _ member)
  · intro orderly
    apply orderly.mono
    intro other member
    rcases List.mem_append.mp member with member | member
    · exact .inl member
    · rw [List.mem_singleton.mp member]
      exact .inr harmless

/-- What is left of a handler behind `BEGIN`. -/
theorem balanced_beginHandler
    (run : (beginHandler cud slot body).Runs meaning before history outcome after)
    (inner : ∀ function middle rest,
      (body function).Runs meaning middle rest outcome after → (Balanced outcome rest ↔
        Orderly kind evt (⟨.rawgeti (cud.refs slot), some function⟩ :: rest))) :
    Balanced outcome history ↔ Orderly kind evt history := by
  rcases runs_beginHandler run with
    ⟨rfl, rfl⟩ | ⟨rfl, rfl⟩ | ⟨function, rest, middle, rfl, bodyRun⟩
  · exact iff_of_false Nat.one_ne_zero fun orderly => orderly.notExiting (.head _)
  · exact iff_of_true rfl ⟨by simp, by simp, by simp, by simp, by simp⟩
  · have notSet : Harmless ⟨.exiting, false⟩ := trivial
    rw [orderly_cons notSet, ← inner function middle rest bodyRun]
    rfl

/-- `EXEC` is always balanced. -/
theorem balanced_exec {args : List LuaValue} {function : LuaFunction} {ref : Ref}
    (notSession : kind ≠ .session)
    (isMode : kind = .latency → (latencyPushmode evt.mode).isOk)
    (run : (exec evt args function).Runs meaning before history outcome after) :
    Balanced outcome history ↔
      Orderly kind evt (⟨.rawgeti ref, some function⟩ :: history) := by
  rcases runs_exec run with ⟨⟨call, results, rfl⟩, rfl⟩ | ⟨call, value, rfl, rfl⟩
  · exact iff_of_true rfl ⟨by simp, by simp, fun isLatency _ _ _ => isMode isLatency,
      fun isSession => absurd isSession notSession, fun isSession =>
        absurd isSession notSession⟩
  · exact iff_of_true rfl ⟨by simp, by simp, fun isLatency _ _ _ => isMode isLatency,
      fun isSession => absurd isSession notSession, fun isSession =>
        absurd isSession notSession⟩

theorem balanced_luaShutdown
    (run : (luaShutdown cud evt).Runs meaning before history outcome after) :
    Balanced outcome history ↔ Orderly .shutdown evt history := by
  apply balanced_beginHandler run
  intro function middle rest bodyRun
  rw [Program.perform_bind, Program.runs_act] at bodyRun
  rcases bodyRun with ⟨canGrow, _, rest, rfl, _, bodyRun⟩
  cases canGrow with
  | true =>
      rw [if_pos rfl] at bodyRun
      rcases runs_exec bodyRun with ⟨⟨call, results, rfl⟩, rfl⟩ | ⟨call, value, rfl, rfl⟩
      · exact iff_of_true rfl ⟨by simp, by simp, by simp, by simp, by simp⟩
      · exact iff_of_true rfl ⟨by simp, by simp, by simp, by simp, by simp⟩
  | false =>
      simp only [Bool.false_eq_true, if_false, Program.pure_eq,
        Program.runs_done] at bodyRun
      rcases bodyRun with ⟨rfl, rfl, _⟩
      exact iff_of_false Nat.zero_ne_one fun orderly =>
        orderly.canGrow (.tail _ (.head _))

theorem balanced_luaLatency
    (run : (luaLatency cud evt).Runs meaning before history outcome after) :
    Balanced outcome history ↔ Orderly .latency evt history := by
  apply balanced_beginHandler run
  intro function middle rest bodyRun
  cases isMode : latencyPushmode evt.mode with
  | ok mode =>
      simp only [isMode] at bodyRun
      apply balanced_exec (by decide) _ bodyRun
      intro _
      rw [isMode]
      rfl
  | error message =>
      simp only [isMode, Program.pure_eq, Program.runs_done] at bodyRun
      rcases bodyRun with ⟨rfl, rfl, _⟩
      apply iff_of_false Nat.zero_ne_one
      intro orderly
      have isOk := orderly.isMode rfl _ _ (.head _)
      rw [isMode] at isOk
      cases isOk

theorem balanced_luaSession
    (run : (luaSession cud evt).Runs meaning before history outcome after) :
    Balanced outcome history ↔ Orderly .session evt history := by
  apply balanced_beginHandler run
  intro function middle rest bodyRun
  cases isEvent : evt.sessionEvent with
  | none =>
      simp only [isEvent, Program.pure_eq, Program.runs_done] at bodyRun
      rcases bodyRun with ⟨rfl, rfl, _⟩
      apply iff_of_false Nat.zero_ne_one
      intro orderly
      rcases orderly.isType rfl _ _ (.head _) with ⟨event, found, _⟩
      rw [isEvent] at found
      cases found
  | some event =>
      cases isType : sessionPushtype event.type with
      | error message =>
          simp only [isEvent, isType, Program.pure_eq, Program.runs_done] at bodyRun
          rcases bodyRun with ⟨rfl, rfl, _⟩
          apply iff_of_false Nat.zero_ne_one
          intro orderly
          rcases orderly.isType rfl _ _ (.head _) with ⟨other, found, isOk⟩
          rw [isEvent, Option.some.injEq] at found
          rw [← found, isType] at isOk
          cases isOk
      | ok type =>
          have encodable : ∃ event, evt.sessionEvent = some event ∧
              (sessionPushtype event.type).isOk := ⟨event, isEvent, by rw [isType]; rfl⟩
          simp only [isEvent, isType, Program.perform_bind, Program.runs_act] at bodyRun
          rcases bodyRun with ⟨answer, _, rest, rfl, _, bodyRun⟩
          cases answer with
          | error value =>
              simp only [Program.runs_act, Program.pure_eq, Program.runs_done] at bodyRun
              rcases bodyRun with ⟨_, _, _, rfl, _, rfl, rfl, _⟩
              exact iff_of_true rfl
                ⟨by simp, by simp, by simp, fun _ _ _ _ => encodable, by simp⟩
          | ok results =>
              cases isResult : sessionResults results with
              | error message =>
                  simp only [isResult, Program.pure_eq, Program.runs_done] at bodyRun
                  rcases bodyRun with ⟨rfl, rfl, _⟩
                  apply iff_of_false Nat.zero_ne_one
                  intro orderly
                  have isOk := orderly.isResult rfl _ results (.tail _ (.head _))
                  rw [isResult] at isOk
                  cases isOk
              | ok result =>
                  simp only [isResult, Program.runs_act, Program.pure_eq,
                    Program.runs_done] at bodyRun
                  rcases bodyRun with ⟨_, _, _, rfl, _, rfl, rfl, _⟩
                  apply iff_of_true rfl
                  refine ⟨by simp, by simp, by simp, fun _ _ _ _ => encodable, ?_⟩
                  intro _ call others member
                  cases member with
                  | tail _ member =>
                      cases member with
                      | head =>
                          rw [isResult]
                          rfl
                      | tail _ member =>
                          cases member with
                          | tail _ member => cases member

/-- The handler and the loop agree exactly if the environment is orderly. -/
theorem balanced_handler
    (run : (handler kind cud evt).Runs meaning before history outcome after) :
    Balanced outcome history ↔ Orderly kind evt history := by
  have balanced_plain {slot : CallbackKind} {args : List LuaValue}
      (notSession : kind ≠ .session)
      (notLatency : kind ≠ .latency)
      (run : (beginHandler cud slot (exec evt args)).Runs
        meaning before history outcome after) :
      Balanced outcome history ↔ Orderly kind evt history :=
    balanced_beginHandler run fun _ _ _ bodyRun =>
      balanced_exec notSession (fun isLatency => absurd isLatency notLatency) bodyRun
  cases kind with
  | shutdown => exact balanced_luaShutdown run
  | latency => exact balanced_luaLatency run
  | session => exact balanced_luaSession run
  | _ => exact balanced_plain (by decide) (by decide) run

/-- The environment is orderly while an event is handled: the event belongs to a closed
client or has no handler, or its handler finds an orderly environment. -/
def Settled (evt : Evt) (history : HandlerHistory) : Prop :=
  ∀ kind, CallbackKind.ofCode? evt.type = some kind → Orderly kind evt history

/-- An event is freed once exactly if the environment is orderly. -/
theorem frees_dispatch (run : (dispatch evt).Runs meaning before history outcome after) :
    HandlerHistory.frees history = 1 ↔ Settled evt history := by
  unfold dispatch at run
  rw [Program.perform_bind, Program.runs_act] at run
  rcases run with ⟨found, middle, rest, rfl, _, run⟩
  have skipped (skip : rest = [⟨.evtFree, ()⟩]) :
      HandlerHistory.frees (⟨.cudSearch evt.clientKey, found⟩ :: rest) = 1 ↔
        Settled evt (⟨.cudSearch evt.clientKey, found⟩ :: rest) := by
    subst skip
    exact iff_of_true rfl fun _ _ => ⟨by simp, by simp, by simp, by simp, by simp⟩
  cases found with
  | none =>
      simp only [Program.perform_bind, Program.runs_act,
        Program.pure_eq, Program.runs_done] at run
      rcases run with ⟨_, _, _, rfl, _, rfl, rfl, _⟩
      exact skipped rfl
  | some cud =>
      dsimp only at run
      split at run
      next notValid =>
        simp only [Program.perform_bind, Program.runs_act, Program.pure_eq,
          Program.runs_done] at run
        rcases run with ⟨_, _, _, rfl, _, rfl, rfl, _⟩
        exact skipped rfl
      next isValid =>
        cases isKind : CallbackKind.ofCode? evt.type with
        | none =>
            simp only [isKind, Program.perform_bind, Program.runs_act, Program.pure_eq,
              Program.runs_done] at run
            rcases run with ⟨_, _, _, rfl, _, rfl, rfl, _⟩
            exact skipped rfl
        | some kind =>
            simp only [isKind] at run
            rcases Program.runs_bind.mp run with
              ⟨first, last, result, second, rfl, handled, run⟩
            have balanced := balanced_handler handled
            have searched : Harmless ⟨.cudSearch evt.clientKey, some cud⟩ := trivial
            have freed : Harmless ⟨.evtFree, ()⟩ := trivial
            have settled_iff : Settled evt
                (⟨.cudSearch evt.clientKey, some cud⟩ :: (first ++ second)) ↔
                Orderly kind evt (first ++ second) := by
              simp only [Settled, isKind, Option.some.injEq,
                forall_eq', orderly_cons searched]
            rw [settled_iff]
            split at run
            next isReturned =>
              simp only [Program.perform_bind, Program.runs_act, Program.pure_eq,
                Program.runs_done] at run
              rcases run with ⟨_, _, _, rfl, _, rfl, rfl, _⟩
              rw [orderly_concat freed, ← balanced, Balanced, if_pos isReturned]
              simp [HandlerHistory.frees, isFree]
            next isRaised =>
              simp only [Program.pure_eq, Program.runs_done] at run
              rcases run with ⟨rfl, rfl, _⟩
              rw [List.append_nil, ← balanced, Balanced, if_neg isRaised]
              simp [HandlerHistory.frees, isFree]

/-! ## The whole flush -/

/-- An occurrence in a handler, as it appears in the history of the flush. -/
def within (pending : Pending) (occurrence : Occurrence HandlerOp HandlerOp.Answer) :
    Occurrence FlushOp FlushOp.Answer :=
  ⟨.handling pending occurrence.op, occurrence.answer⟩

section Within

variable {pending other : Pending} {handled : HandlerHistory}
  {first second : FlushHistory}

theorem part_within :
    FlushHistory.part (handled.map (within pending)) pending = handled := by
  induction handled with
  | nil => rfl
  | cons occurrence rest ih =>
      rw [List.map_cons, FlushHistory.part, List.filterMap_cons]
      simp only [within, if_true]
      exact congrArg _ ih

theorem part_within_of_ne (different : pending ≠ other) :
    FlushHistory.part (handled.map (within pending)) other = [] := by
  apply List.filterMap_eq_nil_iff.mpr
  intro occurrence member
  rcases List.mem_map.mp member with ⟨inner, _, rfl⟩
  simp only [within, if_neg different]

theorem removed_within : FlushHistory.removed (handled.map (within pending)) = [] := by
  apply List.filterMap_eq_nil_iff.mpr
  intro occurrence member
  rcases List.mem_map.mp member with ⟨inner, _, rfl⟩
  rfl

theorem part_append : FlushHistory.part (first ++ second) pending =
    FlushHistory.part first pending ++ FlushHistory.part second pending :=
  List.filterMap_append

theorem removed_append : FlushHistory.removed (first ++ second) =
    FlushHistory.removed first ++ FlushHistory.removed second :=
  List.filterMap_append

end Within

variable {start final : Nat} {flushed : FlushHistory}

/-- Within the flush, a handler does what it does alone. -/
theorem runs_forEvent {pending : Pending} {handling : Handler}
    (run : (handling.forEvent pending).Runs flushMeaning start flushed outcome final) :
    ∃ handled : HandlerHistory, flushed = handled.map (within pending) ∧
      handling.Runs (fun _ _ _ _ => True) () handled outcome () ∧ start ≤ final := by
  induction handling generalizing start flushed with
  | done result =>
      rcases Program.runs_done.mp run with ⟨rfl, rfl, rfl⟩
      exact ⟨[], rfl, .done _ _, le_refl _⟩
  | act op next ih =>
      rcases Program.runs_act.mp run with ⟨answer, middle, rest, rfl, permitted, tail⟩
      rcases ih answer tail with ⟨handled, rfl, inner, later⟩
      refine ⟨⟨op, answer⟩ :: handled, rfl, .act trivial inner, le_trans ?_ later⟩
      cases op with
      | pcall call => exact permitted
      | _ => exact le_of_eq permitted.symm

/-- What is known about the events that a part of the flush has removed. -/
structure Accounted (start : Nat) (history : FlushHistory) : Prop where
  /-- Events that have been removed before are left alone. -/
  old : ∀ pending : Pending, pending.serial < start →
    FlushHistory.part history pending = []
  serial : ∀ pending ∈ FlushHistory.removed history, start ≤ pending.serial
  once : ∀ pending ∈ FlushHistory.removed history,
    HandlerHistory.frees (FlushHistory.part history pending) = 1 ↔
      Settled pending.evt (FlushHistory.part history pending)

/-- A history without events. -/
theorem Accounted.of_none (none : FlushHistory.removed flushed = [])
    (untouched : ∀ pending, FlushHistory.part flushed pending = []) :
    Accounted start flushed where
  old := fun pending _ => untouched pending
  serial := by simp [none]
  once := by simp [none]

/-- One more event in front. -/
theorem Accounted.cons {pending : Pending} {handled : HandlerHistory} {next : Nat}
    (tail : Accounted next flushed) (isFirst : pending.serial = start)
    (later : start < next)
    (once : HandlerHistory.frees handled = 1 ↔ Settled pending.evt handled) :
    Accounted start
      (⟨.evtRemove, some pending⟩ :: (handled.map (within pending) ++ flushed)) := by
  have part_cons : ∀ other, FlushHistory.part
      (⟨.evtRemove, some pending⟩ :: (handled.map (within pending) ++ flushed)) other =
      FlushHistory.part (handled.map (within pending)) other ++
        FlushHistory.part flushed other :=
    fun other => part_append
  have removed_cons : FlushHistory.removed
      (⟨.evtRemove, some pending⟩ :: (handled.map (within pending) ++ flushed)) =
      pending :: FlushHistory.removed flushed := by
    have inner := @removed_append (handled.map (within pending)) flushed
    rw [removed_within, List.nil_append] at inner
    rw [← inner]
    rfl
  have alone : FlushHistory.part flushed pending = [] :=
    tail.old pending (isFirst ▸ later)
  have apart : ∀ other : Pending, other.serial ≠ start →
      FlushHistory.part (handled.map (within pending)) other = [] := by
    intro other different
    apply part_within_of_ne
    rintro rfl
    exact different isFirst
  refine ⟨?_, ?_, ?_⟩
  · intro other before
    rw [part_cons, apart other before.ne, tail.old other (before.trans later),
      List.append_nil]
  · intro other member
    rw [removed_cons] at member
    rcases List.mem_cons.mp member with rfl | member
    · exact isFirst.ge
    · exact later.le.trans (tail.serial other member)
  · intro other member
    rw [removed_cons] at member
    rcases List.mem_cons.mp member with rfl | member
    · rw [part_cons, alone, part_within, List.append_nil]
      exact once
    · have behind : other.serial ≠ start :=
        (later.trans_le (tail.serial other member)).ne'
      rw [part_cons, apart other behind, List.nil_append]
      exact tail.once other member

theorem accounted_flushLoop {n : Nat}
    (run : (flushLoop n).Runs flushMeaning start flushed outcome final) :
    Accounted start flushed := by
  induction n generalizing start flushed with
  | zero =>
      simp only [flushLoop, Program.perform_bind, Program.runs_act, Program.pure_eq,
        Program.runs_done] at run
      rcases run with ⟨_, _, _, rfl, _, rfl, _⟩
      exact .of_none rfl fun _ => rfl
  | succ n ih =>
      rw [flushLoop, Program.perform_bind, Program.runs_act] at run
      rcases run with ⟨removed, middle, rest, rfl, permitted, run⟩
      cases removed with
      | none =>
          simp only [Program.perform_bind, Program.runs_act, Program.pure_eq,
            Program.runs_done] at run
          rcases run with ⟨_, _, _, rfl, _, rfl, _⟩
          exact .of_none rfl fun _ => rfl
      | some pending =>
          rcases permitted with ⟨isFirst, rfl⟩
          rcases Program.runs_bind.mp run with
            ⟨first, last, result, second, rfl, handling, run⟩
          rcases runs_forEvent handling with ⟨handled, rfl, inner, later⟩
          have tail : Accounted last second := by
            cases result with
            | returned => exact ih run
            | raised value =>
                rcases Program.runs_done.mp run with ⟨rfl, _⟩
                exact .of_none rfl fun _ => rfl
            | crashed =>
                rcases Program.runs_done.mp run with ⟨rfl, _⟩
                exact .of_none rfl fun _ => rfl
          exact tail.cons isFirst later (frees_dispatch inner)

theorem accounted_callbackFlush
    (run : callbackFlush.Runs flushMeaning start flushed outcome final) :
    Accounted start flushed := by
  rcases Program.runs_act.mp run with ⟨isMain, _, rest, rfl, rfl, checked⟩
  cases isMain with
  | false =>
      rcases Program.runs_act.mp checked with ⟨_, _, rest, rfl, rfl, left⟩
      rcases Program.runs_done.mp left with ⟨rfl, _⟩
      exact .of_none rfl fun _ => rfl
  | true =>
      rcases Program.runs_act.mp checked with ⟨exiting, _, rest, rfl, rfl, entered⟩
      cases exiting with
      | true =>
          rcases Program.runs_done.mp entered with ⟨rfl, _⟩
          exact .of_none rfl fun _ => rfl
      | false =>
          rcases Program.runs_act.mp entered with ⟨count, _, rest, rfl, rfl, looped⟩
          have tail := accounted_flushLoop looped
          exact ⟨tail.old, tail.serial, tail.once⟩

/-- Every event that a flush removes is freed once exactly if the environment is orderly
while each of them is handled. -/
theorem freed_once_iff_settled
    (run : callbackFlush.Runs flushMeaning start flushed outcome final) :
    (∀ pending ∈ FlushHistory.removed flushed,
      HandlerHistory.frees (FlushHistory.part flushed pending) = 1) ↔
    ∀ pending ∈ FlushHistory.removed flushed,
      Settled pending.evt (FlushHistory.part flushed pending) := by
  have accounted := accounted_callbackFlush run
  constructor
  · intro once pending member
    exact (accounted.once pending member).mp (once pending member)
  · intro settled pending member
    exact (accounted.once pending member).mpr (settled pending member)

/-- A flush of one event, of a client that is found or not. -/
def flushOne (found : Option Cud) (handled : HandlerHistory) : FlushHistory :=
  [⟨.ismainthread, true⟩, ⟨.exiting, false⟩, ⟨.evtCount, 1⟩,
    ⟨.evtRemove, some ⟨0, { clientKey := 0x601010, type := 2 }⟩⟩] ++
  (⟨.cudSearch 0x601010, found⟩ :: handled).map
    (within ⟨0, { clientKey := 0x601010, type := 2 }⟩) ++ [⟨.collect, ()⟩]

/-- The handler calls the function of the client, which returns. -/
def calledOne : HandlerHistory :=
  [⟨.exiting, false⟩, ⟨.rawgeti noRef, some 7⟩, ⟨.pcall ⟨7, [.integer 0x601010]⟩, .ok []⟩,
    ⟨.evtFree, ()⟩]

/-- The function flushes the queue itself, and removes five other events. -/
theorem freed_once_iff_settled_called :
    HandlerHistory.frees (FlushHistory.part (flushOne (some Cud.new) calledOne)
      ⟨0, { clientKey := 0x601010, type := 2 }⟩) = 1 := by
  have called : flushMeaning (.handling ⟨0, { clientKey := 0x601010, type := 2 }⟩
      (.pcall ⟨7, [.integer 0x601010]⟩)) 1 (.ok []) 6 := Nat.le_add_left 1 5
  have run : callbackFlush.Runs flushMeaning 0
      (flushOne (some Cud.new) calledOne) .returned 6 :=
    .act rfl (.act rfl (.act rfl (.act ⟨rfl, rfl⟩ (.act rfl (.act rfl (.act rfl
      (.act called (.act rfl (.act rfl (.done _ _))))))))))
  have settled : Settled { clientKey := 0x601010, type := 2 }
      (⟨.cudSearch 0x601010, some Cud.new⟩ :: calledOne) := by
    intro kind isKind
    cases isKind
    exact ⟨by simp [calledOne], by simp [calledOne], nofun, nofun, nofun⟩
  apply (freed_once_iff_settled run).mpr
  · intro pending member
    cases List.mem_singleton.mp member
    exact settled
  · exact .head _

/-- If another thread registers an error between the first look at the exiting flag and
the second, the event is freed twice. -/
theorem not_always_freed_once :
    ¬∀ (start final : Nat) (flushed : FlushHistory) (outcome : Outcome),
      callbackFlush.Runs flushMeaning start flushed outcome final →
        ∀ pending ∈ FlushHistory.removed flushed,
          HandlerHistory.frees (FlushHistory.part flushed pending) = 1 := by
  intro claim
  have run : callbackFlush.Runs flushMeaning 0 (flushOne (some Cud.new)
      [⟨.exiting, true⟩, ⟨.evtFree, ()⟩, ⟨.evtFree, ()⟩]) .returned 1 :=
    .act rfl (.act rfl (.act rfl (.act ⟨rfl, rfl⟩
      (.act rfl (.act rfl (.act rfl (.act rfl (.act rfl (.done _ _)))))))))
  have once := claim _ _ _ _ run _ (.head _)
  exact absurd once (by decide)

end LuaJack
