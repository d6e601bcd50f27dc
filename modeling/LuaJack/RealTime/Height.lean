import LuaJack.RealTime.Wrappers

/-!
# The height of the stack

The wrappers push a function and its arguments, which the call replaces by the results.
`Sync` leaves its result on the stack, and the others leave nothing. -/

namespace LuaJack.RealTime

open Atomic Fallible

variable {Number : Type} {callback : Callback Number}

/-- The number of values on the stack of the process state. -/
def height (client : Client Number) : Int := client.stack.length

theorem shifts_push (slot : Slot Number) : Shifts height 1 (push slot) :=
  shifts_modify fun _ => rfl

/-- A change of the client that does not concern the stack. -/
theorem shifts_other {change : Client Number → Client Number}
    (same : ∀ client, (change client).stack = client.stack) :
    Shifts height 0 (Fallible.modify change : Wrapper Number PUnit) := by
  apply shifts_modify
  intro client
  rw [height, height, same, Int.add_zero]

theorem shifts_setfield (name : String) :
    Shifts height (-1) (setfield name : Wrapper Number Unit) := by
  intro client value after returns
  unfold setfield at returns
  split at returns
  next isStack =>
    cases returns
    simp only [height, isStack, List.length_cons]
    omega
  next => cases returns

theorem adjust_length (nres : Nat) (results : List (Slot Number)) :
    (adjust nres results).length = nres := by
  rw [adjust, List.length_append, List.length_take, List.length_replicate]
  omega

/-- A call that returns replaces the function and its arguments by the results. -/
theorem pcall_height {nargs nres : Nat} {client after : Client Number}
    (returns : pcall callback nargs nres client = (.ok true, after)) :
    height after = height client + (nres - (nargs + 1)) := by
  unfold pcall at returns
  split at returns
  next name stack isStack =>
    have isLength := congrArg List.length isStack
    rw [List.length_drop, List.length_cons] at isLength
    split at returns
    next results surroundings =>
      cases returns
      simp only [height, List.length_append, List.length_reverse, adjust_length]
      omega
    next => cases returns
  next => cases returns

theorem shifts_exec (nargs nres : Nat) :
    Shifts height (nres - (nargs + 1)) (exec callback nargs nres) := by
  intro client value after returns
  rcases bind_eq_ok.mp returns with ⟨succeeds, middle, isMiddle, isAfter⟩
  cases succeeds with
  | true =>
      cases isAfter
      exact pcall_height isMiddle
  | false => cases isAfter

theorem shifts_begin (kind : ProcessKind) :
    Shifts height 1 (begin kind : Wrapper Number Unit) := by
  have zero : (1 : Int) = 0 + 1 := rfl
  unfold begin
  rw [zero]
  apply shifts_bind (shifts_asks _)
  intro surroundings
  rw [zero]
  apply shifts_bind (shifts_asks _)
  intro marks
  apply shifts_ite (shifts_error _)
  apply shifts_ite (shifts_error _)
  cases surroundings.registry (surroundings.refs kind) with
  | none =>
      intro client value after returns
      cases returns
  | some name => exact shifts_push _

theorem shifts_transportPushstate (state : BitVec 32) :
    Shifts height 1 (transportPushstate state : Wrapper Number Unit) := by
  unfold transportPushstate
  cases transportWord state with
  | ok word => exact shifts_push _
  | error message => exact shifts_error _

theorem shifts_addFields (fields : List (String × Field Number)) :
    Shifts height 0 (addFields fields) := by
  induction fields with
  | nil => exact shifts_pure _
  | cons field fields ih =>
      have added : Shifts height (1 + -1) (addField field.1 field.2) :=
        shifts_bind (shifts_push _) fun _ => shifts_setfield _
      exact shifts_bind added fun _ => ih

theorem shifts_transportPushposition (pos : Position Number) :
    Shifts height 1 (transportPushposition pos) :=
  shifts_bind (shifts_push _) fun _ => shifts_addFields _

/-! ## Wrappers -/

theorem shifts_process (nframes : BitVec 32) :
    Shifts height 0 (process callback nframes) := by
  have total : (0 : Int) =
      1 + (0 + (0 + (1 + (((0 : Nat) - ((1 : Nat) + 1)) + (0 + (0 + (0 + 0))))))) :=
    rfl
  unfold process
  rw [total]
  refine shifts_bind (shifts_begin _) fun _ => ?_
  refine shifts_bind (shifts_other fun _ => rfl) fun _ => ?_
  refine shifts_bind (shifts_other fun _ => rfl) fun _ => ?_
  refine shifts_bind (shifts_push _) fun _ => ?_
  refine shifts_bind (shifts_exec 1 0) fun _ => ?_
  refine shifts_bind (shifts_other fun _ => rfl) fun _ => ?_
  refine shifts_bind (shifts_other fun _ => rfl) fun _ => ?_
  refine shifts_bind (shifts_other fun _ => rfl) fun _ => ?_
  exact shifts_pure _

theorem shifts_bufferSize (nframes : BitVec 32) :
    Shifts height 0 (bufferSize callback nframes) := by
  have total : (0 : Int) = 1 + (0 + (1 + (((0 : Nat) - ((1 : Nat) + 1)) + 0))) := rfl
  unfold bufferSize
  rw [total]
  refine shifts_bind (shifts_begin _) fun _ => ?_
  refine shifts_bind (shifts_other fun _ => rfl) fun _ => ?_
  refine shifts_bind (shifts_push _) fun _ => ?_
  refine shifts_bind (shifts_exec 1 0) fun _ => ?_
  exact shifts_pure _

/-- The result is not removed. -/
theorem shifts_sync (state : BitVec 32) (pos : Position Number) :
    Shifts height 1 (sync callback state pos) := by
  have total : (1 : Int) =
      1 + (1 + (1 + (((1 : Nat) - ((2 : Nat) + 1)) + (0 + 0)))) := rfl
  unfold sync
  rw [total]
  refine shifts_bind (shifts_begin _) fun _ => ?_
  refine shifts_bind (shifts_transportPushstate _) fun _ => ?_
  refine shifts_bind (shifts_transportPushposition _) fun _ => ?_
  refine shifts_bind (shifts_exec 2 1) fun _ => ?_
  exact shifts_bind (shifts_asks _) fun _ => shifts_pure _

theorem shifts_timebase_ (state nframes : BitVec 32)
    (pos : Position Number) (new_pos : BitVec 32) :
    Shifts height 0 (timebase_ callback state nframes pos new_pos) := by
  have total : (0 : Int) =
      1 + (1 + (1 + (1 + (1 + (((0 : Nat) - ((4 : Nat) + 1)) + 0))))) := rfl
  unfold timebase_
  rw [total]
  refine shifts_bind (shifts_begin _) fun _ => ?_
  refine shifts_bind (shifts_transportPushstate _) fun _ => ?_
  refine shifts_bind (shifts_push _) fun _ => ?_
  refine shifts_bind (shifts_transportPushposition _) fun _ => ?_
  refine shifts_bind (shifts_push _) fun _ => ?_
  exact shifts_bind (shifts_exec 4 0) fun _ => shifts_pure _

/-! ## Runs -/

/-- A call of a wrapper by JACK. -/
inductive Invocation (Number : Type) where
  | process (nframes : BitVec 32)
  | bufferSize (nframes : BitVec 32)
  | sync (state : BitVec 32) (pos : Position Number)
  | timebase (state nframes : BitVec 32) (pos : Position Number) (new_pos : BitVec 32)

namespace Invocation

/-- The wrapper that is called. -/
def wrapper (callback : Callback Number) : Invocation Number → Wrapper Number Int
  | process nframes => RealTime.process callback nframes
  | bufferSize nframes => RealTime.bufferSize callback nframes
  | sync state pos => RealTime.sync callback state pos
  | timebase state nframes pos new_pos => timebase_ callback state nframes pos new_pos

/-- Whether this is a call of `Sync`. -/
def isSync : Invocation Number → Bool
  | sync .. => true
  | _ => false

/-- How many values the wrapper leaves on the stack. -/
theorem shifts_wrapper (invocation : Invocation Number) :
    Shifts height (if invocation.isSync then 1 else 0) (invocation.wrapper callback) := by
  cases invocation with
  | process nframes => exact shifts_process nframes
  | bufferSize nframes => exact shifts_bufferSize nframes
  | sync state pos => exact shifts_sync state pos
  | timebase state nframes pos new_pos => exact shifts_timebase_ state nframes pos new_pos

end Invocation

/-- What happens to a client. -/
inductive Action (Number : Type) where
  /-- Something that does not concern the stack of the process state. -/
  | change (marks : Marks) (surroundings : Surroundings)
  /-- JACK calls a wrapper, and the Lua function behaves in some way. -/
  | invoke (callback : Callback Number) (invocation : Invocation Number)

/-- Whether this is a call of `Sync`. -/
def Action.isSync : Action Number → Bool
  | .change _ _ => false
  | .invoke _ invocation => invocation.isSync

/-- Calls of the wrappers that succeed, and other changes between them. -/
def realTime : Machine (Action Number) (Client Number)
  | .change marks surroundings, client => some { client with marks, surroundings }
  | .invoke callback invocation, client =>
      match invocation.wrapper callback client with
      | (.ok _, after) => some after
      | (.error _, _) => none

theorem height_step {action : Action Number} {client after : Client Number}
    (performed : realTime action client = some after) :
    height after = height client + if action.isSync then 1 else 0 := by
  cases action with
  | change marks surroundings =>
      cases performed
      exact (Int.add_zero _).symm
  | invoke callback invocation =>
      simp only [realTime] at performed
      split at performed
      next value _ returns =>
        cases performed
        exact invocation.shifts_wrapper client value after returns
      next => cases performed

theorem height_run {actions : List (Action Number)} {client final : Client Number}
    (run : realTime.run actions client = some final) :
    final.stack.length = client.stack.length + actions.countP Action.isSync := by
  induction actions generalizing client with
  | nil =>
      cases run
      rfl
  | cons action actions ih =>
      rcases Machine.run_cons.mp run with ⟨next, performed, rest⟩
      have step := height_step performed
      simp only [height] at step
      rw [ih rest, List.countP_cons]
      split at step
      next isSync =>
        rw [if_pos isSync]
        omega
      next notSync =>
        rw [if_neg notSync]
        omega

/-- After every call the stack is as high as before it exactly if `Sync` is never
called, and it grows by one value with each call of `Sync`. -/
theorem height_kept_iff (actions : List (Action Number)) (client final : Client Number)
    (run : realTime.run actions client = some final) :
    ((∀ first second middle, actions = first ++ second →
        realTime.run first client = some middle →
          middle.stack.length = client.stack.length) ↔
      ∀ action ∈ actions, action.isSync = false) ∧
    final.stack.length = client.stack.length + actions.countP Action.isSync := by
  constructor
  · constructor
    · intro kept action member
      have same := kept actions [] final (List.append_nil _).symm run
      rw [height_run run, Nat.add_eq_left, List.countP_eq_zero] at same
      exact Bool.eq_false_of_not_eq_true (same action member)
    · intro noSync first second middle split reached
      rw [height_run reached, Nat.add_eq_left, List.countP_eq_zero]
      intro action member isSync
      have noSync := noSync action (split ▸ List.mem_append_left _ member)
      rw [isSync] at noSync
      cases noSync
  · exact height_run run

/-- A client with a function for `Sync`. -/
def syncClient : Client Nat where
  surroundings :=
    { exiting := none
      refs := fun kind => if kind = .sync then 1 else noRef
      registry := fun ref => if ref = 1 then some 5 else none
      fifo := []
      puds := fun _ => .dropped }
  marks := 1
  nframes := 0
  bufferSize := 256
  stack := []

/-- The start of the transport. -/
def startPosition : Position Nat where
  unique_1 := 1
  usecs := 0
  frame_rate := 48000
  frame := 0
  valid := 0
  bar := 0
  beat := 0
  tick := 0
  bar_start_tick := 0
  beats_per_bar := 0
  beat_type := 0
  ticks_per_beat := 0
  beats_per_minute := 0
  frame_time := 0
  next_time := 0
  bbt_offset := 0
  audio_frames_per_video_frame := 0
  video_offset := 0
  unique_2 := 1

/-- The function is ready to roll. -/
def ready : Callback Nat :=
  fun _ _ surroundings => (.ok [.value (.boolean true)], surroundings)

theorem height_kept_iff_sync : ∃ final,
    realTime.run [.invoke ready (.sync 3 startPosition)] syncClient = some final ∧
      final.stack.length = 1 :=
  ⟨_, rfl, (height_kept_iff [.invoke ready (.sync 3 startPosition)] syncClient _ rfl).2⟩

/-- A call of `Sync` leaves the stack higher than before. -/
theorem sync_grows : ¬ ∀ first second middle,
    [Action.invoke ready (.sync 3 startPosition)] = first ++ second →
      realTime.run first syncClient = some middle →
        middle.stack.length = syncClient.stack.length := by
  intro kept
  have same := kept [.invoke ready (.sync 3 startPosition)] [] _ rfl rfl
  exact absurd same (by decide)

end LuaJack.RealTime
