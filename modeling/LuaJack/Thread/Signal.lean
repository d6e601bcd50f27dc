import LuaJack.Atomic.Interleaving
import LuaJack.Object.World

/-!
# Signals

A thread holds its lock from its start to its end, except while it waits in `jack.wait`.
Whoever signals to it only does so if the lock is free.

`pthread_cond_wait` releases the lock and blocks in one step.  It returns after a
signal, or for no reason, when it has got the lock again. -/

namespace LuaJack.Signals

open Atomic

variable {ι : Type}

/-- A call of `jack.signal` or `luajack_signal` begins or ends. -/
inductive Mark (ι : Type) where
  | began (index : ι)
  | ended (index : ι)

/-- What the threads share about the thread that is signalled to. -/
structure Shared (ι : Type) where
  /-- `tud->lock`. -/
  locked : Bool
  /-- `tud->status`. -/
  status : TudStatus
  /-- The thread is blocked on `tud->cond`. -/
  blocked : Bool
  /-- A record of the calls since the thread was last blocked. -/
  during : List (Mark ι)

/-- The thread may start. -/
def Shared.ready : Shared ι where
  locked := false
  status := .ready
  blocked := false
  during := []

/-- The single accesses. -/
inductive SignalOp (ι : Type) where
  | getStatus
  | setStatus (status : TudStatus)
  /-- `pthread_mutex_lock`, and the end of `pthread_cond_wait`. -/
  | lock
  | trylock
  | unlock
  /-- `pthread_cond_signal`. -/
  | condSignal
  /-- The begin of `pthread_cond_wait`. -/
  | condBlock
  /-- A blocked thread stops being blocked. -/
  | condWake
  | mark (record : Mark ι)

namespace SignalOp

/-- What each access returns. -/
@[reducible] def Answer : SignalOp ι → Type
  | getStatus => TudStatus
  | trylock => Bool
  | _ => Unit

/-- The effect of each access. -/
def exec : (op : SignalOp ι) → Shared ι → Answer op × Shared ι
  | getStatus, shared => (shared.status, shared)
  | setStatus status, shared => ((), { shared with status })
  | lock, shared => ((), { shared with locked := true })
  | trylock, shared => (!shared.locked, { shared with locked := true })
  | unlock, shared => ((), { shared with locked := false })
  | condSignal, shared => ((), { shared with blocked := false })
  | condBlock, shared =>
      ((), { shared with locked := false, blocked := true, during := [] })
  | condWake, shared => ((), { shared with blocked := false })
  | .mark record, shared => ((), { shared with during := shared.during ++ [record] })

/-- The meaning of each access. Only the lock is waited for: without a signal the thread
may stop being blocked at any time. -/
def meaning : Meaning (SignalOp ι) Answer (Shared ι) := fun op before answer after =>
  (op = .lock → before.locked = false) ∧ (answer, after) = op.exec before

end SignalOp

/-- Code that accesses the thread. -/
abbrev SignalProgram (ι : Type) := Program (SignalOp ι) SignalOp.Answer

/-- Perform one access. -/
abbrev signalOp (op : SignalOp ι) : SignalProgram ι op.Answer := Program.perform op

/-! ## The functions that signal -/

/-- The thread that is signalled to. -/
structure Target where
  tud : Addr
  cud : Addr

/-- Who signals, on behalf of a client. -/
structure Signaller where
  /-- `thread_tud`, and whether it is valid. -/
  current : Option (Addr × Bool)
  cud : Addr

/-- Why nothing is signalled. -/
inductive Refusal where
  | invalid
  | error (message : String)
  deriving DecidableEq

/-- The checks of `thread_signal` and `Signal`. -/
def Signaller.refusal (signaller : Signaller) (target : Target) : Option Refusal :=
  if signaller.current.any fun current => !current.2 then
    some .invalid
  else if signaller.current.any fun current => current.1 = target.tud then
    some (.error "thread can not signal() to itself")
  else if target.cud ≠ signaller.cud then
    some (.error "thread is not owned by this client")
  else
    none

/-- `thread_signal`, and `Signal`, which differs from it in how it raises errors. -/
def threadSignal (target : Target) (signaller : Signaller) :
    SignalProgram ι (Option Refusal) := do
  match signaller.refusal target with
  | some refusal => return some refusal
  | none =>
      if (← signalOp .getStatus : TudStatus) = .running then
        if ← signalOp .trylock then
          signalOp .condSignal
          signalOp .unlock
          return none
        else
          return none
      else
        return none

/-! ## The thread -/

/-- `Wait`. -/
def wait : SignalProgram ι Unit := do
  signalOp .condBlock
  signalOp .condWake
  signalOp .lock

/-- A script that waits a number of times. -/
def script : Nat → SignalProgram ι Unit
  | 0 => return ()
  | waits + 1 => do
      wait
      script waits

/-- The end of `ThreadFunc`, with the last status. -/
def finish (last : TudStatus) : SignalProgram ι Unit := do
  signalOp (.setStatus last)
  signalOp .unlock

/-- `ThreadFunc`, with what the script does about the lock. -/
def threadFunc (waits : Nat) (last : TudStatus) : SignalProgram ι Unit := do
  signalOp .lock
  signalOp (.setStatus .running)
  script waits
  finish last

/-! ## The system -/

/-- The thread that is signalled to, and whoever may signal to it. -/
inductive Thread (ι : Type) where
  | target
  | signaller (index : ι)
  deriving DecidableEq

/-- What a returning call reports. -/
inductive Event where
  | ended
  | signalled (refusal : Option Refusal)

/-- A call of `jack.signal` or `luajack_signal`. Only those count that are not refused. -/
def signal (target : Target) (index : ι) (signaller : Signaller) :
    SignalProgram ι Event :=
  match signaller.refusal target with
  | some _ => do return .signalled (← threadSignal target signaller)
  | none => do
      signalOp (.mark (.began index))
      let refusal ← threadSignal target signaller
      signalOp (.mark (.ended index))
      return .signalled refusal

/-- A thread and any number of others that signal to it. -/
def signals (ι : Type) (target : Target) :
    System (Thread ι) (SignalOp ι) SignalOp.Answer Event (Shared ι) where
  meaning := SignalOp.meaning
  calls := fun thread program =>
    match thread with
    | .target => ∃ waits last, program = (do threadFunc waits last; return .ended)
    | .signaller index => ∃ signaller, program = signal target index signaller

end LuaJack.Signals
