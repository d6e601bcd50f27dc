import LuaJack.Atomic.Interleaving
import LuaJack.Basic
import LuaJack.Syncpipe
import Mathlib.Algebra.Group.Nat.Defs

/-!
# Registration of errors

Errors in other threads than the main one, and calls of `os.exit` there, are registered
in a status and a message, which the main thread checks.  A lock keeps other threads
from registering at the same time; one that finds it taken gives up.  The main thread
reads the status and the message without the lock.

The functions of `main.c` are programs over the single accesses to these variables.
-/

namespace LuaJack.Errors

open Atomic

/-- `EXITING`. -/
def exitingFlag : BitVec 32 := 1

/-- `CODE`: the argument of `os.exit` was true. -/
def codeFlag : BitVec 32 := 2

/-- `ERRMSG`: the message was set. -/
def errmsgFlag : BitVec 32 := 4

/-- `LUAJACK_ERRMSG_LEN`. -/
def errmsgLen : Nat := 256

/-- What `vsnprintf` makes of a format and its arguments. -/
structure Formatted where
  text : CString
  /-- The text ends with an encoding error. -/
  fails : Bool
  deriving DecidableEq

/-- A call of `luajack_errorv_`. -/
structure Call where
  code : Bool
  fmt : Option Formatted
  deriving DecidableEq

/-- A character that a call has stored in the message. Calls are told apart by their
tickets. -/
structure Store where
  ticket : Nat
  index : Nat
  char : UInt8

/-- The static variables of `main.c` that concern errors, and a record of who has assigned
to them. -/
structure Register where
  /-- `luajack_errlock`. -/
  locked : Bool
  /-- `luajack_exit_status`. -/
  status : BitVec 32
  /-- `luajack_errmsg`, and the memory behind it. What else a store there may change
  depends on the layout of the variables, and is added in `errorsIn`. -/
  errmsg : Nat → UInt8
  /-- `luajack_errpipe`. -/
  errpipe : Pipe
  /-- The calls that have got the lock. Their tickets are their positions. -/
  holders : List Call
  /-- The characters that have been stored in the message. -/
  stores : List Store
  /-- The tickets of the calls that have set the status. -/
  setters : List Nat

/-- At program start, with a new pipe. -/
def Register.new (capacity : Nat) : Register where
  locked := false
  status := 0
  errmsg := fun _ => 0
  errpipe := .new capacity
  holders := []
  stores := []
  setters := []

/-- The single accesses. -/
inductive ErrorOp where
  /-- `pthread_mutex_trylock`. The answer is the ticket, if the lock was free. -/
  | trylock (call : Call)
  | unlock
  | getStatus
  | setStatus (ticket : Nat) (status : BitVec 32)
  | load (index : Nat)
  | store (ticket index : Nat) (char : UInt8)
  | pipeWrite

namespace ErrorOp

/-- What each access returns. -/
@[reducible] def Answer : ErrorOp → Type
  | trylock _ => Option Nat
  | getStatus => BitVec 32
  | load _ => UInt8
  | _ => Unit

/-- The effect of each access. -/
def exec : (op : ErrorOp) → Register → Answer op × Register
  | trylock call, register =>
      if register.locked then
        (none, register)
      else
        (some register.holders.length,
          { register with locked := true, holders := register.holders ++ [call] })
  | unlock, register => ((), { register with locked := false })
  | getStatus, register => (register.status, register)
  | setStatus ticket status, register =>
      ((), { register with status, setters := register.setters ++ [ticket] })
  | load index, register => (register.errmsg index, register)
  | store ticket index char, register =>
      ((), { register with
        errmsg := Function.update register.errmsg index char
        stores := register.stores ++ [⟨ticket, index, char⟩] })
  | pipeWrite, register =>
      ((), { register with errpipe := (syncpipeWrite register.errpipe).2 })

/-- The meaning of each access. None of them waits. -/
def meaning : Meaning ErrorOp Answer Register := fun op before answer after =>
  (answer, after) = op.exec before

end ErrorOp

/-- Code that accesses the variables. -/
abbrev ErrorProgram := Program ErrorOp ErrorOp.Answer

/-- Perform one access. -/
abbrev errorOp (op : ErrorOp) : ErrorProgram op.Answer := Program.perform op

/-- `luajack_exiting`, given the status. -/
def exiting (status : BitVec 32) : Bool := status &&& exitingFlag ≠ 0

/-! ## Registering an error -/

/-- Store characters one after the other, from an index on. -/
def storeFrom (ticket index : Nat) : CString → ErrorProgram Unit
  | [] => return ()
  | char :: text => do
      errorOp (.store ticket index char)
      storeFrom ticket (index + 1) text

/-- `vsnprintf`: no more than `size` characters are stored, but the length of the whole
text is returned, unless this is no `int`. -/
def vsnprintf (ticket size : Nat) (formatted : Formatted) : ErrorProgram Int := do
  storeFrom ticket 0 (formatted.text.take (size - 1))
  if formatted.fails || 2 ^ 31 ≤ formatted.text.length then
    return -1
  else
    errorOp (.store ticket (min formatted.text.length (size - 1)) 0)
    return formatted.text.length

/-- The part of `luajack_errorv_` that stores the message. -/
def storeMessage (ticket : Nat) : Option Formatted → ErrorProgram Unit
  | none => errorOp (.store ticket 0 0)
  | some formatted => do
      let n ← vsnprintf ticket (errmsgLen - 2) formatted
      if n < 0 then
        errorOp (.store ticket 0 0)
      else
        errorOp (.store ticket n.toNat 10)
        errorOp (.store ticket (n.toNat + 1) 0)

/-- The status that a call sets. -/
def Call.status (call : Call) : BitVec 32 :=
  exitingFlag ||| (if call.code then codeFlag else 0) |||
    if call.fmt.isSome then errmsgFlag else 0

/-- `luajack_errorv_`. -/
def luajackErrorv_ (call : Call) : ErrorProgram Unit := do
  match (← errorOp (.trylock call) : Option Nat) with
  -- an error is already being registered
  | none => return ()
  | some ticket =>
      if exiting (← errorOp .getStatus) then
        errorOp .unlock
      else
        storeMessage ticket call.fmt
        errorOp (.setStatus ticket call.status)
        errorOp .pipeWrite
        errorOp .unlock

/-- `luajack_errorv`. -/
def luajackErrorv (fmt : Option Formatted) :
    ErrorProgram Unit := luajackErrorv_ ⟨true, fmt⟩

/-- `luajack_error`. -/
def luajackError : Option Formatted → ErrorProgram Unit
  | some formatted => luajackErrorv_ ⟨true, some formatted⟩
  | none => luajackErrorv_ ⟨true, none⟩

/-- `OsExit`, called outside the main thread. -/
def osExit (code : Bool) : ErrorProgram Unit := luajackErrorv_ ⟨code, none⟩

/-! ## Checking for an error -/

/-- What `luajack_checkerror` does when an error has been registered. -/
inductive Outcome where
  | error (message : CString)
  | exit (code : Bool)
  deriving DecidableEq

/-- The characters that `lua_pushstring` reads, from an index on, if the string ends
before the end of the array. -/
def pushstring : (remaining index : Nat) → ErrorProgram CString
  | 0, _ => return []
  | remaining + 1, index => do
      let char : UInt8 ← errorOp (.load index)
      if char = 0 then
        return []
      else
        return char :: (← pushstring remaining (index + 1))

/-- `luajack_checkerror`. -/
def luajackCheckerror : ErrorProgram (Option Outcome) := do
  if exiting (← errorOp .getStatus) then
    let status : BitVec 32 ← errorOp .getStatus
    if status &&& errmsgFlag ≠ 0 then
      return some (.error (← pushstring errmsgLen 0))
    else
      let status : BitVec 32 ← errorOp .getStatus
      return some (.exit (status &&& codeFlag ≠ 0))
  else
    return none

/-! ## The threads -/

/-- The main thread as far as it checks for errors, and whoever registers errors. An
error that is registered in the main thread counts as one from another thread: this
allows more orders of the accesses. -/
inductive Thread (ι : Type) where
  | main
  | caller (index : ι)
  deriving DecidableEq

/-- What a returning call reports. -/
inductive Event where
  | returned
  | checked (outcome : Option Outcome)

/-- The main thread checks for errors again and again, and the others register them. -/
def errors (ι : Type) : System (Thread ι) ErrorOp ErrorOp.Answer Event Register where
  meaning := ErrorOp.meaning
  calls := fun thread program =>
    match thread with
    | .main => program = do return .checked (← luajackCheckerror)
    | .caller _ => ∃ call : ErrorProgram Unit, program = (do call; return .returned) ∧
        ((∃ fmt, call = luajackError fmt ∨ call = luajackErrorv fmt) ∨
          ∃ code, call = osExit code)

end LuaJack.Errors
