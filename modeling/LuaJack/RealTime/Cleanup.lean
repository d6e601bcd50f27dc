import LuaJack.RealTime.Wrappers

/-!
# After the process callback

When the process callback has returned, its client is outside of it and its ports have
no buffers.  The wrappers return early when the callback fails, and then nothing of this
is done. -/

namespace LuaJack.RealTime

open Fallible

variable {Number : Type}

/-- The client is outside of the process callback, and its ports have no buffers. -/
structure Outside (cycle : Cycle) : Prop where
  notMarked : cycle.marks.get Marks.processCallbackBit = false
  nframes : cycle.nframes = 0
  ports : ∀ key ∈ cycle.fifo, cycle.puds key = .dropped

/-- All ports of the queue lose their buffers, and no others. -/
theorem dropAll_apply (fifo : List Addr) (puds : Addr → Port) (key : Addr) :
    dropAll fifo puds key = if key ∈ fifo then .dropped else puds key := by
  induction fifo generalizing puds with
  | nil => rfl
  | cons pud fifo ih =>
      rw [dropAll, ih]
      by_cases later : key ∈ fifo
      · rw [if_pos later, if_pos (List.mem_cons_of_mem pud later)]
      · rw [if_neg later, Function.update_apply]
        simp only [List.mem_cons, later, or_false]

/-- What the wrappers do at their end. -/
def cleanup : Wrapper Number Int := do
  bufferDropAll
  Fallible.modify ({ · with nframes := 0 })
  cancelProcessCallback
  return 0

theorem outside_cleanup (client : Client Number) : Outside (cleanup client).2.cycle where
  notMarked := Marks.get_reset client.marks (by decide)
  nframes := rfl
  ports := by
    intro key member
    have inQueue : key ∈ client.surroundings.fifo := member
    have dropped := dropAll_apply client.surroundings.fifo client.surroundings.puds key
    rw [if_pos inQueue] at dropped
    exact dropped

/-- The mark is still set. -/
theorem not_outside {cycle : Cycle}
    (marked : cycle.marks.get Marks.processCallbackBit = true) : ¬ Outside cycle := by
  intro outside
  rw [outside.notMarked] at marked
  cases marked

/-- A client inside of its process callback. -/
def inside (client : Client Number) (nframes : BitVec 32) (surroundings : Surroundings) :
    Client Number :=
  { client with
    surroundings
    marks := client.marks.set Marks.processCallbackBit
    nframes
    bufferSize := nframes }

/-- The client after an error in its process callback. -/
def failedInside (client : Client Number) (nframes : BitVec 32) (fmt : Option CString)
    (surroundings : Surroundings) (stack : List (Slot Number)) : Client Number :=
  { inside client nframes { surroundings with
      exiting := some (surroundings.exiting.getD fmt) } with
    stack }

theorem not_outside_failedInside (client : Client Number) (nframes : BitVec 32)
    (fmt : Option CString) (surroundings : Surroundings) (stack : List (Slot Number)) :
    ¬ Outside (failedInside client nframes fmt surroundings stack).cycle :=
  not_outside (Marks.get_set client.marks)

section Wrappers

variable {client : Client Number} (running : client.surroundings.exiting = none)
variable (valid : client.marks.get Marks.validBit = true) (nframes : BitVec 32)
variable {surroundings : Surroundings}
include running valid

section Lua

variable {callback : Callback Number} {name : LuaFunction}
variable (found : client.surroundings.registry (client.surroundings.refs .process) =
  some name)
include found

/-- `Process` up to the call of the Lua function. -/
theorem process_apply : process callback nframes client =
    (exec callback 1 0 >>= fun _ => cleanup)
      { inside client nframes client.surroundings with
      stack := .value (.integer (nframes.setWidth 64)) ::
        .function name :: client.stack } := by
  unfold process
  rw [bind_of_ok (begin_ok running valid found)]
  rfl

/-- A cleanup follows when the Lua function raises no error. -/
theorem process_of_ok {results : List (Slot Number)}
    (returns : callback name [.value (.integer (nframes.setWidth 64))]
      client.surroundings =
      (.ok results, surroundings)) :
    process callback nframes client = cleanup (inside client nframes surroundings) := by
  have called := @exec_of_ok _ callback 1 0
    { inside client nframes client.surroundings with
      stack := .value (.integer (nframes.setWidth 64)) :: .function name :: client.stack }
    name [.value (.integer (nframes.setWidth 64))]
      client.stack surroundings results rfl rfl returns
  have isNothing : adjust 0 results = [] := by
    rw [adjust, List.take_zero, Nat.zero_sub]
    rfl
  rw [process_apply running valid nframes found, bind_of_ok called, isNothing]
  rfl

theorem process_of_error {value : LuaValue}
    (fails : callback name [.value (.integer (nframes.setWidth 64))] client.surroundings =
      (.error value, surroundings)) :
    process callback nframes client =
      (.error .failed, failedInside client nframes value.toString? surroundings
        (.value value :: client.stack)) := by
  have called := @exec_of_error _ callback 1 0
    { inside client nframes client.surroundings with
      stack := .value (.integer (nframes.setWidth 64)) :: .function name :: client.stack }
    name [.value (.integer (nframes.setWidth 64))]
      client.stack surroundings value rfl rfl fails
  rw [process_apply running valid nframes found, bind_of_error called]
  rfl

/-- The client is outside again exactly if the Lua function raises no error. -/
theorem outside_process_iff : Outside (process callback nframes client).2.cycle ↔
    (callback name [.value (.integer (nframes.setWidth 64))]
      client.surroundings).1.isOk = true := by
  cases result : callback name [.value (.integer (nframes.setWidth 64))]
    client.surroundings with
  | mk answer surroundings =>
      cases answer with
      | ok results =>
          rw [process_of_ok running valid nframes found result]
          exact iff_of_true (outside_cleanup _) rfl
      | error value =>
          rw [process_of_error running valid nframes found result]
          exact iff_of_false (not_outside_failedInside _ _ _ _ _) Bool.false_ne_true

end Lua

section C

variable {callback : CCallback}

theorem cprocess_of_zero
    (returns : callback nframes client.surroundings = (0, surroundings)) :
    cprocess callback nframes client = cleanup (inside client nframes surroundings) := by
  unfold cprocess
  rw [asks_bind, asks_bind, running, valid]
  simp only [Option.isSome_none, Bool.false_eq_true,
    Bool.not_true, ↓reduceIte, modify_bind, markProcessCallback]
  rw [bind_apply, ccall, returns]
  rfl

theorem cprocess_of_nonzero {rc : Int} (nonzero : rc ≠ 0)
    (fails : callback nframes client.surroundings = (rc, surroundings)) :
    cprocess callback nframes client =
      (.error .failed, failedInside client nframes
        (some (chars "error in process() callback"))
        surroundings client.stack) := by
  unfold cprocess
  rw [asks_bind, asks_bind, running, valid]
  simp only [Option.isSome_none, Bool.false_eq_true,
    Bool.not_true, ↓reduceIte, modify_bind, markProcessCallback]
  rw [bind_apply, ccall, fails]
  simp only [nonzero, ne_eq, not_false_eq_true, ↓reduceIte]
  rfl

/-- The client is outside again exactly if the C function returns 0. -/
theorem outside_cprocess_iff : Outside (cprocess callback nframes client).2.cycle ↔
    (callback nframes client.surroundings).1 = 0 := by
  cases result : callback nframes client.surroundings with
  | mk rc surroundings =>
      by_cases isZero : rc = 0
      · rw [isZero] at result ⊢
        rw [cprocess_of_zero running valid nframes result]
        exact iff_of_true (outside_cleanup _) rfl
      · rw [cprocess_of_nonzero running valid nframes isZero result]
        exact iff_of_false (not_outside_failedInside _ _ _ _ _) isZero

end C

end Wrappers

end LuaJack.RealTime
