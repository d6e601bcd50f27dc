import LuaJack.Rbuf.Calls

/-!
# Ready pipes without a message

A reader that `select` has woken uses the tag that it reads without a check.  So
the pipe should hold bytes only while the ringbuffer holds a message.  A write that
finds no room leaves a byte behind all the same, and a reset leaves those that were
there: this module says which calls keep the bytes from outnumbering the messages.
-/

namespace LuaJack.Rbuf

open Atomic Ringbuffer

/-- The Lua calls on a ringbuffer. -/
inductive LuaCall where
  | write (tag : Option LuaInteger) (data : Option (List UInt8))
  | read
  | peek
  | readAdvance
  | reset
  deriving DecidableEq, Repr

/-- The object after a call. -/
def LuaCall.effect : LuaCall → Rud → Rud
  | write tag data, rud => (ringbufferWrite tag data rud).2
  | read, rud => (ringbufferRead rud).2
  | peek, rud => (ringbufferPeek rud).2
  | readAdvance, rud => (ringbufferReadAdvance rud).2
  | reset, rud => (ringbufferReset rud).2

/-- One complete call; every call is possible in every state. -/
def luaStep : Machine LuaCall Rud := fun call rud => some (call.effect rud)

namespace Rud

/-- A reader that `select` wakes reads a message. -/
def Honest (rud : Rud) : Prop :=
  0 < rud.bytes → 0 < rud.messages ∧
    ∃ message, (ringbufferRead rud).1 = .ok (some message)

/-- The object is valid and its ringbuffer holds whole messages. -/
structure Usable (rud : Rud) : Prop where
  valid : rud.valid = true
  whole : ∃ messages, rud.rbuf.Holds messages

/-- There are at most as many bytes as messages. -/
def Tight (rud : Rud) : Prop := rud.bytes ≤ rud.messages

end Rud

/-- The call leaves no byte without a message: a write that finds no room writes none
or finds a message without a byte, and a reset finds no bytes. -/
def LuaCall.Careful : LuaCall → Rud → Prop
  | .write (some _) data, rud =>
      rud.HasRoom data ∨ rud.PipeFull ∨ rud.bytes < rud.messages
  | .reset, rud => rud.bytes = 0
  | _, _ => True

instance : ∀ (call : LuaCall) (rud : Rud), Decidable (call.Careful rud)
  | .write (some _) _, _ => inferInstanceAs (Decidable (_ ∨ _))
  | .reset, _ => inferInstanceAs (Decidable (_ = _))
  | .write none _, _ | .read, _ | .peek, _ | .readAdvance, _ =>
      inferInstanceAs (Decidable True)

section

variable {rud : Rud} {messages : List Message}

theorem messages_eq (holds : rud.rbuf.Holds messages) :
    rud.messages = messages.length := by
  rw [Rud.messages, holds, Message.complete_stream]

/-- A write appends a message if there is room, and a byte unless the pipe is full. -/
theorem write_effect (valid : rud.valid = true) (holds : rud.rbuf.Holds messages)
    (tag : LuaInteger) (data : Option (List UInt8)) :
    let after := (LuaCall.write (some tag) data).effect rud
    after.Usable ∧ after.bytes = (if rud.PipeFull then rud.bytes else rud.bytes + 1) ∧
      after.messages = if rud.HasRoom data then rud.messages + 1 else rud.messages := by
  have outcome := @run_cwrite_outcome rud (tag.setWidth 32) data
  rw [← luawrite_eq_cwrite] at outcome
  simp only [LuaCall.effect, ringbufferWrite_some valid]
  rcases run_luawrite (some tag) data holds with
    ⟨message, written, after⟩ | ⟨failed, after⟩
  · refine ⟨⟨valid, _, after⟩, Rud.bytes_pipeWritten, ?_⟩
    have room : rud.HasRoom data := by
      by_contra noRoom
      rw [written, if_neg noRoom] at outcome
      cases outcome
    rw [if_pos room, messages_eq holds]
    exact (messages_eq after).trans List.length_append
  · refine ⟨⟨valid, _, after⟩, Rud.bytes_pipeWritten, ?_⟩
    have noRoom : ¬rud.HasRoom data := by
      intro room
      rw [if_pos room] at outcome
      rcases failed with full | invalid
      · rw [full] at outcome
        cases outcome
      · rw [invalid] at outcome
        cases outcome
    rw [if_neg noRoom, messages_eq holds]
    exact messages_eq after

/-- A call that takes the first message, if there is one, and a byte, if there is one. -/
theorem take_effect {after : Ring} (valid : rud.valid = true)
    (holds : rud.rbuf.Holds messages) (taken : after.Holds messages.tail) :
    let read := Rud.pipeRead { rud with rbuf := after }
    read.Usable ∧ read.bytes = rud.bytes - 1 ∧ read.messages = rud.messages - 1 := by
  refine ⟨⟨valid, _, taken⟩, Rud.bytes_pipeRead, ?_⟩
  rw [messages_eq holds]
  exact (messages_eq taken).trans List.length_tail

theorem read_effect (valid : rud.valid = true) (holds : rud.rbuf.Holds messages) :
    let after := LuaCall.read.effect rud
    after.Usable ∧ after.bytes = rud.bytes - 1 ∧ after.messages = rud.messages - 1 := by
  simp only [LuaCall.effect, ringbufferRead_eq valid]
  exact take_effect valid holds (run_luaread holds).2

/-- A read finds a message if there is one. -/
theorem read_found (valid : rud.valid = true) (holds : rud.rbuf.Holds messages)
    (isMessage : 0 < rud.messages) :
    ∃ message, (ringbufferRead rud).1 = .ok (some message) := by
  rw [ringbufferRead_eq valid]
  have found := (run_luaread holds).1
  cases messages with
  | nil =>
      rw [messages_eq holds] at isMessage
      cases isMessage
  | cons message messages =>
      obtain ⟨result, isResult⟩ := Option.isSome_iff_exists.mp found
      exact ⟨result, by rw [isResult]⟩

theorem readAdvance_effect (valid : rud.valid = true) (holds : rud.rbuf.Holds messages) :
    let after := LuaCall.readAdvance.effect rud
    after.Usable ∧ after.bytes = rud.bytes - 1 ∧ after.messages = rud.messages - 1 := by
  simp only [LuaCall.effect, ringbufferReadAdvance_eq valid]
  exact take_effect valid holds (run_luareadAdvance holds).2

theorem peek_effect (valid : rud.valid = true) (holds : rud.rbuf.Holds messages) :
    let after := LuaCall.peek.effect rud
    after.Usable ∧ after.bytes = rud.bytes ∧ after.messages = rud.messages := by
  have after := (run_luapeek holds).2
  simp only [LuaCall.effect, ringbufferPeek_eq valid]
  exact ⟨⟨valid, _, after⟩, rfl, (messages_eq after).trans (messages_eq holds).symm⟩

theorem reset_effect (valid : rud.valid = true) :
    let after := LuaCall.reset.effect rud
    after.Usable ∧ after.bytes = rud.bytes ∧ after.messages = 0 := by
  have empty : Ring.Holds rud.rbuf.reset [] := Circular.readable_reset _
  simp only [LuaCall.effect, ringbufferReset_eq valid]
  refine ⟨⟨valid, _, empty⟩, rfl, ?_⟩
  rw [messages_eq empty]
  rfl

theorem usable_effect (call : LuaCall) (usable : rud.Usable) :
    (call.effect rud).Usable := by
  obtain ⟨valid, messages, holds⟩ := usable
  cases call with
  | write tag data =>
      cases tag with
      | none =>
          simp only [LuaCall.effect, ringbufferWrite_none valid]
          exact ⟨valid, _, holds⟩
      | some tag => exact (write_effect valid holds tag data).1
  | read => exact (read_effect valid holds).1
  | readAdvance => exact (readAdvance_effect valid holds).1
  | peek => exact (peek_effect valid holds).1
  | reset => exact (reset_effect valid).1

/-- Exactly the careful calls keep the bytes from outnumbering the messages. -/
theorem tight_iff {call : LuaCall} (usable : rud.Usable) (tight : rud.Tight) :
    (call.effect rud).Tight ↔ call.Careful rud := by
  obtain ⟨valid, messages, holds⟩ := usable
  unfold Rud.Tight at tight ⊢
  cases call with
  | write tag data =>
      cases tag with
      | none =>
          simp only [LuaCall.effect, ringbufferWrite_none valid]
          exact iff_of_true tight trivial
      | some tag =>
          obtain ⟨_, bytes, count⟩ := write_effect valid holds tag data
          rw [bytes, count]
          by_cases room : rud.HasRoom data
          · refine iff_of_true ?_ (.inl room)
            rw [if_pos room]
            split <;> omega
          · rw [if_neg room]
            by_cases full : rud.PipeFull
            · rw [if_pos full]
              exact iff_of_true tight (.inr (.inl full))
            · rw [if_neg full]
              constructor
              · exact fun fits => .inr (.inr fits)
              · rintro (hasRoom | isFull | missing)
                · exact absurd hasRoom room
                · exact absurd isFull full
                · exact missing
  | read =>
      obtain ⟨_, bytes, count⟩ := read_effect valid holds
      rw [bytes, count]
      exact iff_of_true (Nat.sub_le_sub_right tight 1) trivial
  | readAdvance =>
      obtain ⟨_, bytes, count⟩ := readAdvance_effect valid holds
      rw [bytes, count]
      exact iff_of_true (Nat.sub_le_sub_right tight 1) trivial
  | peek =>
      obtain ⟨_, bytes, count⟩ := peek_effect valid holds
      rw [bytes, count]
      exact iff_of_true tight trivial
  | reset =>
      obtain ⟨_, bytes, count⟩ := reset_effect valid
      rw [bytes, count]
      exact Nat.le_zero

end

/-! ## Runs -/

theorem usable_new {size : Nat} (positive : 0 < size)
    (cell : UInt8) (pipe : Option Pipe) :
    (Rud.new size positive cell pipe).Usable :=
  ⟨rfl, [], Circular.readable_create size positive cell⟩

theorem usable_of_step (call : LuaCall) (rud next : Rud) (usable : rud.Usable)
    (performed : luaStep call rud = some next) : next.Usable := by
  cases performed
  exact usable_effect call usable

theorem tight_iff_of_step (call : LuaCall) (rud next : Rud) (usable : rud.Usable)
    (tight : rud.Tight) (performed : luaStep call rud = some next) :
    next.Tight ↔ call.Careful rud := by
  cases performed
  exact tight_iff usable tight

theorem luaStep_total (calls : List LuaCall) (rud : Rud) :
    ∃ final, luaStep.run calls rud = some final := by
  induction calls generalizing rud with
  | nil => exact ⟨rud, rfl⟩
  | cons call calls ih => exact ih (call.effect rud)

/-- The state after a number of reads. -/
theorem run_reads {rud : Rud} (usable : rud.Usable) (reads : Nat) :
    ∃ after, luaStep.run (List.replicate reads .read) rud = some after ∧ after.Usable ∧
      after.bytes = rud.bytes - reads ∧ after.messages = rud.messages - reads := by
  induction reads generalizing rud with
  | zero => exact ⟨rud, rfl, usable, rfl, rfl⟩
  | succ reads ih =>
      obtain ⟨valid, messages, holds⟩ := usable
      obtain ⟨usable, bytes, count⟩ := read_effect valid holds
      obtain ⟨after, run, usable, afterBytes, afterCount⟩ := ih usable
      refine ⟨after, Machine.run_cons.mpr ⟨_, rfl, run⟩, usable, ?_, ?_⟩
      · rw [afterBytes, bytes, Nat.sub_sub, Nat.add_comm]
      · rw [afterCount, count, Nat.sub_sub, Nat.add_comm]

/-- The bytes do not outnumber the messages exactly if a reader that goes on reading is
always woken by a message. -/
theorem tight_iff_honest {rud : Rud} (usable : rud.Usable) :
    rud.Tight ↔ ∀ reads after, luaStep.run (List.replicate reads .read) rud = some after →
      after.Honest := by
  constructor
  · intro tight reads after run ready
    obtain ⟨_, alsoRun, ⟨valid, messages, holds⟩, bytes, count⟩ := run_reads usable reads
    cases run.symm.trans alsoRun
    have isMessage : 0 < after.messages := by
      unfold Rud.Tight at tight
      omega
    exact ⟨isMessage, read_found valid holds isMessage⟩
  · intro honest
    by_contra surplus
    obtain ⟨after, run, _, bytes, count⟩ := run_reads usable rud.messages
    unfold Rud.Tight at surplus
    have ready : 0 < after.bytes := by omega
    have isMessage := (honest _ after run ready).1
    omega

/-- After every call of a run on a new ringbuffer with a pipe, and after any number of
further reads, a reader is woken only by a message, exactly if the calls of the run are
careful. -/
theorem honest_iff_careful {size : Nat} (positive : 0 < size)
    (cell : UInt8) (capacity : Nat) (calls : List LuaCall) :
    (∀ first second middle, calls = first ++ second →
      luaStep.run first (.new size positive cell (some (.new capacity))) = some middle →
      ∀ reads after, luaStep.run (List.replicate reads .read) middle = some after →
        after.Honest) ↔
      luaStep.Along LuaCall.Careful calls
        (.new size positive cell (some (.new capacity))) := by
  have usable := usable_new positive cell (some (.new capacity))
  obtain ⟨final, run⟩ :=
    luaStep_total calls (.new size positive cell (some (.new capacity)))
  rw [← Machine.all_reached_iff_along usable_of_step tight_iff_of_step usable
    (Nat.zero_le _) run]
  constructor
  · intro honest first second middle split reached
    have usable := Machine.invariant_of_any_run usable_of_step usable reached
    exact (tight_iff_honest usable).mpr (honest first second middle split reached)
  · intro tight first second middle split reached
    have usable := Machine.invariant_of_any_run usable_of_step usable reached
    exact (tight_iff_honest usable).mp (tight first second middle split reached)

/-- A message is written and read, and the ringbuffer is reset without a byte in the
pipe. -/
theorem honest_iff_careful_emptied :
    ∃ after, luaStep.run [.write (some 7) none, .read, .reset]
        (.new 16 (by decide) 0 (some (.new 65536))) = some after ∧ after.Honest := by
  have careful := (honest_iff_careful (by decide : 0 < 16) 0 65536
    [.write (some 7) none, .read, .reset]).mpr (by decide)
  refine ⟨_, rfl, ?_⟩
  exact careful [.write (some 7) none, .read, .reset] [] _ rfl rfl 0 _ rfl

/-- A message is written, and the ringbuffer is reset: its byte stays in the pipe. -/
theorem not_always_honest :
    ¬∀ calls after, luaStep.run calls (.new 16 (by decide) 0 (some (.new 65536))) =
      some after →
      after.Honest := by
  intro always
  have honest := always [.write (some 7) none, .reset] _ rfl
  exact absurd (honest (by decide)).1 (by decide)

end LuaJack.Rbuf
