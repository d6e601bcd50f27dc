import Mathlib.Tactic.Common

/-!
# Synchronization pipes

A pipe whose ends are both non-blocking: `syncpipe.c` uses such a pipe to make
`select` return.  What matters is the number of bytes in it.
-/

namespace LuaJack

/-- A pipe that is open at both ends. -/
structure Pipe where
  capacity : Nat
  bytes : Nat
  fits : bytes ≤ capacity

namespace Pipe

/-- A new pipe. -/
def new (capacity : Nat) : Pipe where
  capacity
  bytes := 0
  fits := Nat.zero_le capacity

/-- There is no space for another byte. -/
def Full (pipe : Pipe) : Prop := pipe.bytes = pipe.capacity

/-- `select` returns when the read end of the pipe is ready. -/
def Ready (pipe : Pipe) : Prop := 0 < pipe.bytes

instance (pipe : Pipe) : Decidable pipe.Full := inferInstanceAs (Decidable (_ = _))

instance (pipe : Pipe) : Decidable pipe.Ready := inferInstanceAs (Decidable (_ < _))

/-- `write` of one byte; `none` is the error `EAGAIN`. -/
def write (pipe : Pipe) : Option Nat × Pipe :=
  if room : pipe.bytes < pipe.capacity then
    (some 1, { pipe with bytes := pipe.bytes + 1, fits := room })
  else
    (none, pipe)

/-- `read` of one byte; `none` is the error `EAGAIN`. -/
def read (pipe : Pipe) : Option Nat × Pipe :=
  if 0 < pipe.bytes then
    (some 1, { pipe with
      bytes := pipe.bytes - 1, fits := Nat.le_trans (Nat.sub_le ..) pipe.fits })
  else
    (none, pipe)

end Pipe

/-- `syncpipe_write`: the return code, and the pipe afterwards. -/
def syncpipeWrite (pipe : Pipe) : Int × Pipe :=
  let (count, pipe) := pipe.write
  match count with
  | some count => (count, pipe)
  -- the write would block: it is skipped
  | none => (0, pipe)

/-- `syncpipe_read`: the return code, and the pipe afterwards. -/
def syncpipeRead (pipe : Pipe) : Int × Pipe :=
  let (count, pipe) := pipe.read
  match count with
  | some count => (if 0 < count then 0 else -1, pipe)
  -- the read would block: it is skipped
  | none => (0, pipe)

section Effects

variable (pipe : Pipe)

theorem syncpipeWrite_pipe : (syncpipeWrite pipe).2 = pipe.write.2 := by
  simp only [syncpipeWrite]
  split <;> rfl

theorem syncpipeRead_pipe : (syncpipeRead pipe).2 = pipe.read.2 := by
  simp only [syncpipeRead]
  split <;> rfl

theorem syncpipeWrite_nonneg : ¬(syncpipeWrite pipe).1 < 0 := by
  by_cases room : pipe.bytes < pipe.capacity
  · simp [syncpipeWrite, Pipe.write, room]
  · simp [syncpipeWrite, Pipe.write, room]

theorem syncpipeRead_nonneg : ¬(syncpipeRead pipe).1 < 0 := by
  by_cases ready : 0 < pipe.bytes
  · simp [syncpipeRead, Pipe.read, ready]
  · simp [syncpipeRead, Pipe.read, ready]

@[simp] theorem syncpipeWrite_capacity :
    (syncpipeWrite pipe).2.capacity = pipe.capacity := by
  rw [syncpipeWrite_pipe, Pipe.write]
  split <;> rfl

@[simp] theorem syncpipeRead_capacity :
    (syncpipeRead pipe).2.capacity = pipe.capacity := by
  rw [syncpipeRead_pipe, Pipe.read]
  split <;> rfl

/-- A byte is written unless the pipe is full. -/
theorem syncpipeWrite_bytes :
    (syncpipeWrite pipe).2.bytes = if pipe.Full then pipe.bytes else pipe.bytes + 1 := by
  have fits := pipe.fits
  rw [syncpipeWrite_pipe, Pipe.write]
  rcases Nat.lt_or_eq_of_le fits with room | full
  · have notFull : ¬pipe.Full := Nat.ne_of_lt room
    rw [dif_pos room, if_neg notFull]
  · have isFull : pipe.Full := full
    rw [dif_neg (Nat.not_lt.mpr (Nat.le_of_eq full.symm)), if_pos isFull]

/-- A byte is read unless the pipe is empty. -/
@[simp] theorem syncpipeRead_bytes : (syncpipeRead pipe).2.bytes = pipe.bytes - 1 := by
  rw [syncpipeRead_pipe, Pipe.read]
  split
  next => rfl
  next empty => rw [Nat.eq_zero_of_not_pos empty]

end Effects

end LuaJack
