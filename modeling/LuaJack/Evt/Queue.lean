import LuaJack.Atomic.Interleaving
import LuaJack.Syncpipe

/-!
# The queue of pending events

JACK threads insert events into a queue, the main thread removes them.  Three
things record how many events are pending: the queue itself, a counter that
`callback_flush` reads, and the bytes in a pipe that makes `pselect` return.

The functions of `evt.c` are programs over the single accesses to these three
and to the lock that guards them.
-/

namespace LuaJack.Evt

open Atomic

variable {ι ε : Type}

/-- The static variables of `evt.c` and the pipe `luajack_evtpipe`. -/
structure Queue (ε : Type) where
  locked : Bool
  head : List ε
  counter : BitVec 32
  evtpipe : Pipe

namespace Queue

/-- At program start, with a new pipe. -/
def new (ε : Type) (capacity : Nat) : Queue ε where
  locked := false
  head := []
  counter := 0
  evtpipe := .new capacity

end Queue

/-- The single accesses to the queue. -/
inductive QueueOp (ε : Type) where
  | lock
  | unlock
  | insertTail (evt : ε)
  | first
  | removeHead
  | increment
  | decrement
  | count
  | pipeWrite
  | pipeRead

namespace QueueOp

/-- What each access returns. -/
@[reducible] def Answer : QueueOp ε → Type
  | first => Option ε
  | count => BitVec 32
  | _ => Unit

/-- The effect of each access that never waits. -/
def exec : (op : QueueOp ε) → Queue ε → Answer op × Queue ε
  | lock, queue => ((), { queue with locked := true })
  | unlock, queue => ((), { queue with locked := false })
  | insertTail evt, queue => ((), { queue with head := queue.head ++ [evt] })
  | first, queue => (queue.head.head?, queue)
  | removeHead, queue => ((), { queue with head := queue.head.tail })
  | increment, queue => ((), { queue with counter := queue.counter + 1 })
  | decrement, queue => ((), { queue with counter := queue.counter - 1 })
  | count, queue => (queue.counter, queue)
  | pipeWrite, queue => ((), { queue with evtpipe := (syncpipeWrite queue.evtpipe).2 })
  | pipeRead, queue => ((), { queue with evtpipe := (syncpipeRead queue.evtpipe).2 })

/-- A thread waits for the lock until it is free. -/
def Enabled : QueueOp ε → Queue ε → Prop
  | lock, queue => queue.locked = false
  | _, _ => True

/-- The meaning of each access. -/
def meaning : Meaning (QueueOp ε) Answer (Queue ε) := fun op before answer after =>
  op.Enabled before ∧ (answer, after) = op.exec before

end QueueOp

/-- Code that works on the queue. -/
abbrev QueueProgram (ε : Type) := Program (QueueOp ε) QueueOp.Answer

/-- Perform one access to the queue. -/
abbrev queueOp (op : QueueOp ε) : QueueProgram ε op.Answer := Program.perform op

/-- `evt_insert`. -/
def evtInsert (evt : ε) : QueueProgram ε Unit := do
  queueOp .lock
  queueOp (.insertTail evt)
  queueOp .increment
  queueOp .pipeWrite
  queueOp .unlock

/-- `remove_nolock`. -/
def removeNolock : QueueProgram ε (Option ε) := do
  let evt : Option ε ← queueOp .first
  if evt.isSome then
    queueOp .removeHead
    queueOp .pipeRead
    queueOp .decrement
    return evt
  else
    return evt

/-- `evt_remove`. -/
def evtRemove : QueueProgram ε (Option ε) := do
  queueOp .lock
  let evt ← removeNolock
  queueOp .unlock
  return evt

/-- `evt_count`. -/
def evtCount : QueueProgram ε (BitVec 32) := queueOp .count

/-! ## The threads -/

/-- The main thread, and the threads in which JACK notifies its clients. -/
inductive Thread (ι : Type) where
  | main
  | jack (index : ι)
  deriving DecidableEq

/-- What a returning call reports. -/
inductive Event (ε : Type) where
  | inserted (evt : ε)
  | removed (evt : Option ε)
  | counted (count : BitVec 32)

/-- The JACK threads insert events. The main thread calls `evt_count` and
`evt_remove` any number of times and in any order, as a `callback_flush` does
that a Lua error may cut short anywhere. -/
def eventQueue (ι ε : Type) :
    System (Thread ι) (QueueOp ε) QueueOp.Answer (Event ε) (Queue ε) where
  meaning := QueueOp.meaning
  calls := fun thread program =>
    match thread with
    | .jack _ => ∃ evt, program = do evtInsert evt; return .inserted evt
    | .main => program = (do return .removed (← evtRemove)) ∨
        program = (do return .counted (← evtCount))

end LuaJack.Evt
