import LuaJack.Atomic.Machine
import LuaJack.Fallible
import LuaJack.Marks
import LuaJack.Object.World
import LuaJack.Transport

/-!
# Wrappers of the real-time callbacks

JACK calls wrappers in its real-time thread, and these call the functions that are
registered from Lua, on the stack of the process state, or from C.

The macros of the wrappers return from them early.  Such a return appears here as an
error, and one that is raised outside of a protected call of Lua aborts the program.
Garbage collection, profiling and what other threads do in the meantime are left out. -/

namespace LuaJack.RealTime

open Atomic

/-- What the stack of a Lua state holds. -/
inductive Slot (Number : Type) where
  | value (value : LuaValue)
  | function (name : LuaFunction)
  | table (fields : List (String × Field Number))
  | field (value : Field Number)
  deriving DecidableEq

/-- The entry of a port, as far as it concerns the buffer. -/
structure Port where
  buf : Option Handle
  nframes : BitVec 32
  bufp : BitVec 32
  deriving DecidableEq

/-- A port without a buffer. -/
def Port.dropped : Port where
  buf := none
  nframes := 0
  bufp := 0

/-- Everything that the functions may change that the wrappers call. -/
structure Surroundings where
  /-- `luajack_exiting`, with what `luajack_error` was called with first. -/
  exiting : Option (Option CString)
  /-- The members `Process` to `Timebase` of the entry of the client. -/
  refs : ProcessKind → Ref
  /-- The functions in the registry of the process state. -/
  registry : Ref → Option LuaFunction
  /-- The ports of the client. -/
  fifo : List Addr
  puds : Addr → Port

/-- The client, its process state and its ports. -/
structure Client (Number : Type) where
  surroundings : Surroundings
  marks : Marks
  nframes : BitVec 32
  bufferSize : BitVec 32
  /-- The stack of the process state, from the top. -/
  stack : List (Slot Number)

/-- What `Process` and `CProcess` change about a client and its ports. -/
structure Cycle where
  marks : Marks
  nframes : BitVec 32
  bufferSize : BitVec 32
  fifo : List Addr
  puds : Addr → Port

/-- The part of a client that `Process` and `CProcess` change. -/
def Client.cycle {Number : Type} (client : Client Number) : Cycle where
  marks := client.marks
  nframes := client.nframes
  bufferSize := client.bufferSize
  fifo := client.surroundings.fifo
  puds := client.surroundings.puds

/-- Why a wrapper returns early. -/
inductive Exit where
  /-- Nothing has been called. -/
  | refused
  /-- The function has failed. -/
  | failed
  /-- The program is aborted. -/
  | panic (message : String)
  deriving DecidableEq

/-- Code of a wrapper. -/
abbrev Wrapper (Number : Type) := Fallible (Client Number) Exit

/-- What a Lua function returns or which error it raises, and what it changes. -/
abbrev Callback (Number : Type) := LuaFunction → List (Slot Number) → Surroundings →
  Except LuaValue (List (Slot Number)) × Surroundings

variable {Number : Type}

/-! ## Functions of Lua -/

/-- Push a value. -/
def push (slot : Slot Number) : Wrapper Number Unit :=
  Fallible.modify fun client => { client with stack := slot :: client.stack }

/-- `lua_setfield` on the table below the value. -/
def setfield (name : String) : Wrapper Number Unit := fun client =>
  match client.stack with
  | .field value :: .table fields :: stack =>
      (.ok (), { client with stack := .table (fields ++ [(name, value)]) :: stack })
  | _ => (.error (.panic "attempt to index a value"), client)

/-- As many values as a call expects. -/
def adjust (nres : Nat) (results : List (Slot Number)) : List (Slot Number) :=
  results.take nres ++ List.replicate (nres - results.length) (.value .nil)

/-- `lua_pcall`, where the function has been pushed before its arguments. -/
def pcall (callback : Callback Number) (nargs nres : Nat) :
    Wrapper Number Bool := fun client =>
  match client.stack.drop nargs with
  | .function name :: stack =>
      match callback name (client.stack.take nargs).reverse client.surroundings with
      | (.ok results, surroundings) =>
          (.ok true, { client with surroundings, stack :=
            (adjust nres results).reverse ++ stack })
      | (.error value, surroundings) =>
          (.ok false, { client with surroundings, stack := .value value :: stack })
  | _ => (.error (.panic "attempt to call a value"), client)

/-- `lua_toboolean` of the value on the top. -/
def toboolean : Wrapper Number Bool := Fallible.asks fun client =>
  match client.stack with
  | .value value :: _ => value.toBoolean
  | [] => false
  | _ => true

/-- `lua_tostring` of the value on the top. -/
def tostring : Wrapper Number (Option CString) := Fallible.asks fun client =>
  match client.stack with
  | .value value :: _ => value.toString?
  | _ => none

/-! ## Wrappers of Lua functions -/

/-- `luajack_error`, and the early return with its result. -/
def luajackError {α : Type} (fmt : Option CString) (exit : Exit) : Wrapper Number α := do
  Fallible.modify fun client =>
    { client with
      surroundings.exiting := some (client.surroundings.exiting.getD fmt) }
  Fallible.error exit

/-- `BEGIN`. -/
def begin (kind : ProcessKind) : Wrapper Number Unit := do
  let surroundings ← Fallible.asks Client.surroundings
  let marks ← Fallible.asks Client.marks
  if surroundings.exiting.isSome then
    Fallible.error .refused
  else if !marks.get Marks.validBit then
    Fallible.error .refused
  else
    match surroundings.registry (surroundings.refs kind) with
    | some name => push (.function name)
    | none =>
        push (.value .nil)
        luajackError (some (chars ("4 " ++ unexpectedError))) .refused

/-- `EXEC`. -/
def exec (callback : Callback Number) (nargs nres : Nat) : Wrapper Number Unit := do
  if !(← pcall callback nargs nres) then
    luajackError (← tostring) .failed

/-- `transport_pushstate`. -/
def transportPushstate (state : BitVec 32) : Wrapper Number Unit :=
  match transportWord state with
  | .ok word => push (.value (.string (chars word)))
  | .error message => Fallible.error (.panic message)

/-- `AddInteger` and `AddNumber`. -/
def addField (name : String) (value : Field Number) : Wrapper Number Unit := do
  push (.field value)
  setfield name

/-- Add the fields of a position. -/
def addFields : List (String × Field Number) → Wrapper Number Unit
  | [] => return ()
  | (name, value) :: fields => do
      addField name value
      addFields fields

/-- `transport_pushposition`. -/
def transportPushposition (pos : Position Number) : Wrapper Number Unit := do
  push (.table [])
  addFields pos.fields

/-- The loop of `buffer_drop_all`. -/
def dropAll : List Addr → (Addr → Port) → Addr → Port
  | [], puds => puds
  | pud :: fifo, puds => dropAll fifo (Function.update puds pud .dropped)

/-- `buffer_drop_all`. -/
def bufferDropAll : Wrapper Number Unit :=
  Fallible.modify fun client =>
    { client with
      surroundings.puds := dropAll client.surroundings.fifo client.surroundings.puds }

/-- `MarkProcessCallback`. -/
def markProcessCallback : Wrapper Number PUnit :=
  Fallible.modify fun client =>
    { client with marks := client.marks.set Marks.processCallbackBit }

/-- `CancelProcessCallback`. -/
def cancelProcessCallback : Wrapper Number PUnit :=
  Fallible.modify fun client =>
    { client with marks := client.marks.reset Marks.processCallbackBit }

/-- `Process`. -/
def process (callback : Callback Number) (nframes : BitVec 32) : Wrapper Number Int := do
  begin .process
  markProcessCallback
  Fallible.modify ({ · with nframes, bufferSize := nframes })
  push (.value (.integer (nframes.setWidth 64)))
  exec callback 1 0
  bufferDropAll
  Fallible.modify ({ · with nframes := 0 })
  cancelProcessCallback
  return 0

/-- `BufferSize`. -/
def bufferSize (callback : Callback Number) (nframes : BitVec 32) :
    Wrapper Number Int := do
  begin .bufferSize
  Fallible.modify ({ · with bufferSize := nframes })
  push (.value (.integer (nframes.setWidth 64)))
  exec callback 1 0
  return 0

/-- `Sync`. -/
def sync (callback : Callback Number) (state : BitVec 32) (pos : Position Number) :
    Wrapper Number Int := do
  begin .sync
  transportPushstate state
  transportPushposition pos
  exec callback 2 1
  let rc ← toboolean
  return if rc then 1 else 0

/-- `Timebase_`. -/
def timebase_ (callback : Callback Number)
    (state nframes : BitVec 32) (pos : Position Number)
    (new_pos : BitVec 32) : Wrapper Number Int := do
  begin .timebase
  transportPushstate state
  push (.value (.integer (nframes.setWidth 64)))
  transportPushposition pos
  push (.value (.boolean (new_pos ≠ 0)))
  exec callback 4 0
  return 0

/-! ## Wrappers of C functions -/

/-- What a C function for the process callback returns, with its argument, and what it
changes. -/
abbrev CCallback := BitVec 32 → Surroundings → Int × Surroundings

/-- Call the C function. -/
def ccall (callback : CCallback) (nframes : BitVec 32) :
    Wrapper Number Int := fun client =>
  let (rc, surroundings) := callback nframes client.surroundings
  (.ok rc, { client with surroundings })

/-- `CProcess`. -/
def cprocess (callback : CCallback) (nframes : BitVec 32) : Wrapper Number Int := do
  let surroundings ← Fallible.asks Client.surroundings
  let marks ← Fallible.asks Client.marks
  if surroundings.exiting.isSome then
    Fallible.error .refused
  else if !marks.get Marks.validBit then
    Fallible.error .refused
  else
    markProcessCallback
    Fallible.modify ({ · with nframes, bufferSize := nframes })
    let rc ← ccall callback nframes
    if rc ≠ 0 then
      luajackError (some (chars "error in process() callback")) .failed
    else
      bufferDropAll
      Fallible.modify ({ · with nframes := 0 })
      cancelProcessCallback
      return 0

/-! ## What the macros do -/

theorem begin_ok {client : Client Number} (running : client.surroundings.exiting = none)
    (valid : client.marks.get Marks.validBit = true)
    {kind : ProcessKind} {name : LuaFunction}
    (found : client.surroundings.registry (client.surroundings.refs kind) = some name) :
    begin kind client =
      (.ok (), { client with stack := .function name :: client.stack }) := by
  unfold begin
  rw [Fallible.asks_bind, Fallible.asks_bind, running, valid, found]
  rfl

section Exec

variable {callback : Callback Number} {nargs nres : Nat} {client : Client Number}
variable {name : LuaFunction} {args stack : List (Slot Number)}
  {surroundings : Surroundings}

/-- A call, when the function and its arguments have been pushed. -/
theorem pcall_apply (isArgs : args.length = nargs)
    (isStack : client.stack = args.reverse ++ .function name :: stack) :
    pcall callback nargs nres client =
      match callback name args client.surroundings with
      | (.ok results, surroundings) =>
          (.ok true, { client with surroundings, stack :=
            (adjust nres results).reverse ++ stack })
      | (.error value, surroundings) =>
          (.ok false, { client with surroundings, stack := .value value :: stack }) := by
  unfold pcall
  rewrite [isStack, ← isArgs, ← List.length_reverse, List.drop_left, List.take_left,
    List.reverse_reverse]
  rfl

theorem exec_of_ok {results : List (Slot Number)} (isArgs : args.length = nargs)
    (isStack : client.stack = args.reverse ++ .function name :: stack)
    (returns : callback name args client.surroundings = (.ok results, surroundings)) :
    exec callback nargs nres client =
      (.ok (), { client with surroundings, stack :=
        (adjust nres results).reverse ++ stack }) := by
  have called : pcall callback nargs nres client = _ := pcall_apply isArgs isStack
  rw [returns] at called
  rw [exec, Fallible.bind_of_ok called]
  rfl

/-- `EXEC` passes the message of an error as the format, and returns early. -/
theorem exec_of_error {value : LuaValue} (isArgs : args.length = nargs)
    (isStack : client.stack = args.reverse ++ .function name :: stack)
    (fails : callback name args client.surroundings = (.error value, surroundings)) :
    exec callback nargs nres client =
      (.error .failed, { client with
        surroundings :=
          { surroundings with
            exiting := some (surroundings.exiting.getD value.toString?) }
        stack := .value value :: stack }) := by
  have called : pcall callback nargs nres client = _ := pcall_apply isArgs isStack
  rw [fails] at called
  rw [exec, Fallible.bind_of_ok called]
  rfl

end Exec

end LuaJack.RealTime
