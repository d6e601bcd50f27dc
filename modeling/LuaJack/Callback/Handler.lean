import LuaJack.Atomic.Program
import LuaJack.Images
import LuaJack.Object.World

/-!
# Handlers of events

The main thread decodes an event and calls the Lua function registered for its
kind.  Each handler either returns, and leaves it to `callback_flush` to free the
event, or raises a Lua error, and must have freed the event before.

The handlers are programs over their accesses to everything that others may
change while an event is handled.

`lua_pushstring` may raise an error, when there is no memory or in a finalizer, and may
let finalizers run.  Both are left out here: a string is a value.  `Callback.Nested` adds
them, where the arguments of a call have been pushed.
-/

namespace LuaJack

open Atomic

/-- A call of a Lua function. -/
structure Invocation where
  function : LuaFunction
  args : List LuaValue
  deriving DecidableEq, Repr

/-- The accesses of a handler. The event is the one that is being handled. -/
inductive HandlerOp where
  | cudSearch (key : Addr)
  | exiting
  /-- `lua_rawgeti` in the registry. -/
  | rawgeti (ref : Ref)
  /-- `luaL_checkstack`. -/
  | checkstack
  | pcall (call : Invocation)
  | sessionReply (client : Handle) (command : Option CString) (flags : BitVec 32)
  | evtFree

/-- What each access returns. -/
@[reducible] def HandlerOp.Answer : HandlerOp → Type
  | cudSearch _ => Option Cud
  | exiting => Bool
  | rawgeti _ => Option LuaFunction
  | checkstack => Bool
  | pcall _ => Except LuaValue (List LuaValue)
  | sessionReply .. => Unit
  | evtFree => Unit

/-- How a handler ends. -/
inductive Outcome where
  | returned
  | raised (error : LuaValue)
  /-- The program accesses memory through a null pointer. -/
  | crashed
  deriving DecidableEq, Repr

/-- A Lua error with a message. -/
def Outcome.error (message : String) : Outcome := .raised (.string (chars message))

/-- Code that handles an event. -/
abbrev Handler := Program HandlerOp HandlerOp.Answer Outcome

/-- Perform one access. -/
abbrev handlerOp (op : HandlerOp) : Program HandlerOp HandlerOp.Answer op.Answer :=
  Program.perform op

/-- `lua_pushstring`, which does not fail here. -/
def pushString : Option CString → LuaValue
  | none => .nil
  | some text => .string text

/-- `lua_pushstring` with a string literal. -/
def pushLiteral (literal : String) : LuaValue := .string (chars literal)

/-- `BEGIN`, followed by code that uses the function of a slot. -/
def beginHandler (cud : Cud) (slot : CallbackKind)
    (body : LuaFunction → Handler) : Handler := do
  if ← handlerOp .exiting then
    handlerOp .evtFree
    return .returned
  else
    match ← handlerOp (.rawgeti (cud.refs slot)) with
    | none =>
        handlerOp .evtFree
        return .error unexpectedError
    | some function => body function

/-- `EXEC` and `END`, with the arguments that are on the stack. -/
def exec (evt : Evt) (args : List LuaValue) (function : LuaFunction) : Handler := do
  match ← handlerOp (.pcall ⟨function, .integer evt.clientKey :: args⟩) with
  | .error value =>
      handlerOp .evtFree
      return .raised value
  | .ok _ => return .returned

/-- `Lua_SampleRate`. -/
def luaSampleRate (cud : Cud) (evt : Evt) : Handler :=
  beginHandler cud .sampleRate <| exec evt [.integer (evt.nframes.setWidth 64)]

/-- `Lua_Xrun`. -/
def luaXrun (cud : Cud) (evt : Evt) : Handler :=
  beginHandler cud .xrun <| exec evt []

/-- `Lua_GraphOrder`. -/
def luaGraphOrder (cud : Cud) (evt : Evt) : Handler :=
  beginHandler cud .graphOrder <| exec evt []

/-- `Lua_Freewheel`. -/
def luaFreewheel (cud : Cud) (evt : Evt) : Handler :=
  beginHandler cud .freewheel <|
    exec evt [pushLiteral (if evt.op ≠ 0 then "starting" else "stopping")]

/-- `Lua_ClientRegistration`. -/
def luaClientRegistration (cud : Cud) (evt : Evt) : Handler :=
  beginHandler cud .clientRegistration <|
    exec evt
      [pushString evt.arg1, pushLiteral
        (if evt.op ≠ 0 then "registered" else "unregistered")]

/-- `Lua_PortRegistration`. -/
def luaPortRegistration (cud : Cud) (evt : Evt) : Handler :=
  beginHandler cud .portRegistration <|
    exec evt
      [pushString evt.arg1, pushLiteral
        (if evt.op ≠ 0 then "registered" else "unregistered")]

/-- `Lua_PortRename`. -/
def luaPortRename (cud : Cud) (evt : Evt) : Handler :=
  beginHandler cud .portRename <| exec evt [pushString evt.arg1, pushString evt.arg2]

/-- `Lua_PortConnect`. -/
def luaPortConnect (cud : Cud) (evt : Evt) : Handler :=
  beginHandler cud .portConnect <|
    exec evt [pushString evt.arg1, pushString evt.arg2,
      pushLiteral (if evt.op ≠ 0 then "connected" else "disconnected")]

/-- `Lua_Shutdown`. `client_pushstatus` raises an error if the stack cannot grow. -/
def luaShutdown (cud : Cud) (evt : Evt) : Handler :=
  beginHandler cud .shutdown fun function => do
    if ← handlerOp .checkstack then
      exec evt [pushLiteral (clientPushstatus evt.code), pushString evt.arg1] function
    else
      return .error "stack overflow (cannot grow Lua stack)"

/-- `Lua_Latency`. -/
def luaLatency (cud : Cud) (evt : Evt) : Handler :=
  beginHandler cud .latency fun function =>
    match latencyPushmode evt.mode with
    | .error message => return .error message
    | .ok mode => exec evt [pushLiteral mode] function

/-- The command and the flags that a session callback returns. -/
def sessionResults (results : List LuaValue) :
    Except String (Option CString × BitVec 32) := do
  let result := fun index : Nat => (results[index]?).getD .nil
  let command ← (result 0).optString (-3)
  let first ← sessionCheckflag (-2) (result 1)
  let second ← sessionCheckflag (-1) (result 2)
  return (command, first ||| second)

/-- `Lua_Session`: the function is that of the `Latency` slot. -/
def luaSession (cud : Cud) (evt : Evt) : Handler :=
  beginHandler cud .latency fun function =>
    match evt.sessionEvent with
    | none => return .crashed
    | some event =>
        match sessionPushtype event.type with
        | .error message => return .error message
        | .ok type => do
            match ← handlerOp
              (.pcall ⟨function, [.integer evt.clientKey, pushLiteral type,
                .string event.sessionDir, .string event.clientUuid]⟩) with
            | .error value =>
                handlerOp .evtFree
                return .raised value
            | .ok results =>
                match sessionResults results with
                | .error message => return .error message
                | .ok (command, flags) =>
                    handlerOp (.sessionReply cud.client command flags)
                    return .returned

/-- The `switch` of `callback_flush`. -/
def handler (kind : CallbackKind) (cud : Cud) (evt : Evt) : Handler :=
  match kind with
  | .sampleRate => luaSampleRate cud evt
  | .xrun => luaXrun cud evt
  | .graphOrder => luaGraphOrder cud evt
  | .freewheel => luaFreewheel cud evt
  | .clientRegistration => luaClientRegistration cud evt
  | .portRegistration => luaPortRegistration cud evt
  | .portRename => luaPortRename cud evt
  | .portConnect => luaPortConnect cud evt
  | .shutdown => luaShutdown cud evt
  | .latency => luaLatency cud evt
  | .session => luaSession cud evt

/-- What the loop of `callback_flush` does with an event. If the outcome is not
`returned`, the loop is left. -/
def dispatch (evt : Evt) : Handler := do
  match ← handlerOp (.cudSearch evt.clientKey) with
  | none =>
      handlerOp .evtFree
      return .returned
  | some cud =>
      if !cud.valid then
        handlerOp .evtFree
        return .returned
      else
        match CallbackKind.ofCode? evt.type with
        | none =>
            handlerOp .evtFree
            return .error unexpectedError
        | some kind =>
            let outcome ← handler kind cud evt
            if outcome = .returned then
              handlerOp .evtFree
            return outcome

/-! ## Handlers in a world -/

/-- The world while an event is handled, and the Lua functions that have been called. -/
structure Dispatching where
  world : World
  calls : List Invocation

/-- What Lua functions return, and what they do to the world. -/
abbrev LuaFunctions := Invocation → World → Except LuaValue (List LuaValue) × World

/-- The effect of each access when no other thread interferes. There is room on the
stack. -/
def HandlerOp.exec (functions : LuaFunctions) :
    (op : HandlerOp) → Dispatching → op.Answer × Dispatching
  | cudSearch key, state => (state.world.search .client key, state)
  | exiting, state => (state.world.exiting.isSome, state)
  | rawgeti ref, state => (state.world.registry ref, state)
  | checkstack, state => (true, state)
  | pcall call, state =>
      let (answer, world) := functions call state.world
      (answer, { world, calls := state.calls ++ [call] })
  | sessionReply .., state => ((), state)
  | evtFree, state => ((), state)

/-- Handle an event. -/
def World.dispatch (world : World) (functions : LuaFunctions) (evt : Evt) :
    Outcome × Dispatching :=
  (LuaJack.dispatch evt).run (HandlerOp.exec functions) { world, calls := [] }

/-- The event of a client that has been closed is skipped. -/
theorem dispatch_of_not_valid {world : World} {evt : Evt} (functions : LuaFunctions)
    (closed : ¬world.Valid .client evt.clientKey) :
    world.dispatch functions evt = (.returned, { world, calls := [] }) := by
  rw [World.dispatch, LuaJack.dispatch, Program.perform_bind, Program.run_act]
  simp only [HandlerOp.exec]
  cases found : world.search .client evt.clientKey with
  | none => rfl
  | some cud =>
      have notValid : cud.valid = false := by
        cases isValid : cud.valid with
        | false => rfl
        | true => exact absurd ⟨cud, found, isValid⟩ closed
      simp only [notValid]
      rfl

/-! ## Which functions are called -/

/-- The kind whose slot the handler of a kind uses. -/
def CallbackKind.slot : CallbackKind → CallbackKind
  | session => latency
  | kind => kind

/-- The arguments behind the client key that the handler of a kind takes from an event, if
that has any. -/
def Evt.arguments (evt : Evt) : CallbackKind → Option (List LuaValue)
  | .sampleRate => some [.integer (evt.nframes.setWidth 64)]
  | .xrun | .graphOrder => some []
  | .freewheel => some [pushLiteral (if evt.op ≠ 0 then "starting" else "stopping")]
  | .clientRegistration | .portRegistration =>
      some [pushString evt.arg1,
        pushLiteral (if evt.op ≠ 0 then "registered" else "unregistered")]
  | .portRename => some [pushString evt.arg1, pushString evt.arg2]
  | .portConnect => some [pushString evt.arg1, pushString evt.arg2,
      pushLiteral (if evt.op ≠ 0 then "connected" else "disconnected")]
  | .shutdown => some [pushLiteral (clientPushstatus evt.code), pushString evt.arg1]
  | .latency => (latencyPushmode evt.mode).toOption.map fun mode => [pushLiteral mode]
  | .session => evt.sessionEvent.bind fun event =>
      (sessionPushtype event.type).toOption.map fun type =>
        [pushLiteral type, .string event.sessionDir, .string event.clientUuid]

section Calls

variable {functions : LuaFunctions} {cud : Cud} {evt : Evt} {state : Dispatching}

/-- The function of the slot is used, if there is one. -/
theorem run_beginHandler {slot : CallbackKind} {body : LuaFunction → Handler}
    (running : state.world.exiting = none) :
    ((beginHandler cud slot body).run (HandlerOp.exec functions) state).2.calls =
      match state.world.registry (cud.refs slot) with
      | none => state.calls
      | some function =>
          ((body function).run (HandlerOp.exec functions) state).2.calls := by
  unfold beginHandler
  simp only [Program.perform_bind, Program.run_act,
    HandlerOp.exec, running, Option.isSome_none, Bool.false_eq_true, if_false]
  cases state.world.registry (cud.refs slot) with
  | none => rfl
  | some function => rfl

theorem run_exec {args : List LuaValue} {function : LuaFunction} :
    ((exec evt args function).run (HandlerOp.exec functions) state).2.calls =
      state.calls ++ [⟨function, .integer evt.clientKey :: args⟩] := by
  unfold exec
  simp only [Program.perform_bind, Program.run_act, HandlerOp.exec]
  rcases functions ⟨function, .integer evt.clientKey :: args⟩ state.world with ⟨_ | _, _⟩
  · rfl
  · rfl

theorem run_luaShutdown (running : state.world.exiting = none) :
    ((luaShutdown cud evt).run (HandlerOp.exec functions) state).2.calls =
      ((beginHandler cud .shutdown <|
        exec evt [pushLiteral (clientPushstatus evt.code), pushString evt.arg1]).run
          (HandlerOp.exec functions) state).2.calls := by
  rw [luaShutdown, run_beginHandler running, run_beginHandler running]
  rfl

theorem run_luaLatency (running : state.world.exiting = none) :
    ((luaLatency cud evt).run (HandlerOp.exec functions) state).2.calls =
      match evt.arguments .latency with
      | none => state.calls
      | some args => ((beginHandler cud .latency <| exec evt args).run
          (HandlerOp.exec functions) state).2.calls := by
  rw [luaLatency, run_beginHandler running, Evt.arguments]
  cases latencyPushmode evt.mode with
  | error message =>
      simp only [Except.toOption, Option.map_none]
      cases state.world.registry (cud.refs .latency) with
      | none => rfl
      | some function => rfl
  | ok mode =>
      simp only [Except.toOption, Option.map_some]
      rw [run_beginHandler running]

/-- The function is called before its results are looked at. -/
theorem run_luaSession (running : state.world.exiting = none) :
    ((luaSession cud evt).run (HandlerOp.exec functions) state).2.calls =
      match evt.arguments .session with
      | none => state.calls
      | some args => ((beginHandler cud .latency <| exec evt args).run
          (HandlerOp.exec functions) state).2.calls := by
  rw [luaSession, run_beginHandler running, Evt.arguments]
  cases registered : state.world.registry (cud.refs .latency) with
  | none =>
      cases evt.sessionEvent.bind _ with
      | none => rfl
      | some args =>
          simp only
          rw [run_beginHandler running, registered]
  | some function =>
      cases evt.sessionEvent with
      | none => rfl
      | some event =>
          simp only [Option.bind_some]
          cases sessionPushtype event.type with
          | error message => rfl
          | ok type =>
              simp only [Except.toOption, Option.map_some]
              rw [run_beginHandler running, registered]
              simp only [run_exec, Program.perform_bind, Program.run_act, HandlerOp.exec]
              rcases functions ⟨function, [.integer evt.clientKey, pushLiteral type,
                .string event.sessionDir, .string event.clientUuid]⟩ state.world with
                ⟨_ | results, world⟩
              · rfl
              · simp only
                cases sessionResults results with
                | error message => rfl
                | ok reply => rfl

/-- The handler of a kind calls the function of its slot, if there is one and the event
has arguments for it. -/
theorem run_handler (kind : CallbackKind) (running : state.world.exiting = none) :
    ((handler kind cud evt).run (HandlerOp.exec functions) state).2.calls =
      state.calls ++ ((evt.arguments kind).toList.flatMap fun args =>
        (state.world.registry (cud.refs kind.slot)).toList.map fun function =>
          ⟨function, .integer evt.clientKey :: args⟩) := by
  have called (slot : CallbackKind) (args : List LuaValue) :
      ((beginHandler cud slot <| exec evt args).run
        (HandlerOp.exec functions) state).2.calls =
        state.calls ++ ((some args).toList.flatMap fun args =>
          (state.world.registry (cud.refs slot)).toList.map fun function =>
            ⟨function, .integer evt.clientKey :: args⟩) := by
    rw [run_beginHandler running]
    cases state.world.registry (cud.refs slot) with
    | none => simp
    | some function => simp [run_exec]
  cases kind with
  | shutdown => exact (run_luaShutdown running).trans (called _ _)
  | latency =>
      apply (run_luaLatency running).trans
      cases evt.arguments .latency with
      | none => simp
      | some args => exact called _ args
  | session =>
      apply (run_luaSession running).trans
      cases evt.arguments .session with
      | none => simp
      | some args => exact called _ args
  | _ => exact called _ _

/-- No handler calls a function while the program is about to exit. -/
theorem run_handler_of_exiting (kind : CallbackKind)
    (exiting : state.world.exiting.isSome = true) :
    ((handler kind cud evt).run (HandlerOp.exec functions) state).2.calls =
      state.calls := by
  have skipped (slot : CallbackKind) (body : LuaFunction → Handler) :
      ((beginHandler cud slot body).run (HandlerOp.exec functions) state).2.calls =
          state.calls := by
    unfold beginHandler
    simp only [Program.perform_bind, Program.run_act, HandlerOp.exec, exiting, if_true]
    rfl
  cases kind <;> exact skipped _ _

end Calls

section Dispatch

variable {world : World} {functions : LuaFunctions}
  {evt : Evt} {cud : Cud} {kind : CallbackKind}
variable (isKind : evt.type = kind.code)
variable (found : world.search .client evt.clientKey = some cud)
  (isValid : cud.valid = true)
include isKind found isValid

theorem calls_dispatch_of_valid : (world.dispatch functions evt).2.calls =
    ((handler kind cud evt).run (HandlerOp.exec functions)
      { world, calls := [] }).2.calls := by
  rw [World.dispatch, LuaJack.dispatch, Program.perform_bind, Program.run_act]
  simp only [HandlerOp.exec, found, isValid,
    isKind, CallbackKind.ofCode?_code, Bool.not_true,
    Bool.false_eq_true, if_false, Program.run_bind]
  split
  · rfl
  · rfl

/-- The functions that are called while an event is handled. -/
theorem calls_dispatch (running : world.exiting = none) :
    (world.dispatch functions evt).2.calls =
    (evt.arguments kind).toList.flatMap fun args =>
      (world.registry (cud.refs kind.slot)).toList.map fun function =>
        ⟨function, .integer evt.clientKey :: args⟩ := by
  rw [calls_dispatch_of_valid isKind found isValid,
    run_handler kind running, List.nil_append]

theorem calls_dispatch_of_exiting (exiting : world.exiting.isSome = true) :
    (world.dispatch functions evt).2.calls = [] := by
  rw [calls_dispatch_of_valid isKind found isValid, run_handler_of_exiting kind exiting]

end Dispatch

end LuaJack
