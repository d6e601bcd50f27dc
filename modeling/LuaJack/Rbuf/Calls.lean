import LuaJack.Atomic.Machine
import LuaJack.Fallible
import LuaJack.Ringbuffer.Alone
import LuaJack.Syncpipe

/-!
# Calls on ringbuffers

A ringbuffer object holds a ringbuffer and, if it was created with `usepipe`, a
pipe.  The functions of the Lua API access both, one after the other; the functions
of the C API access the ringbuffer only.
-/

namespace LuaJack.Rbuf

open Atomic Ringbuffer

/-- The parts of a `rud_t` that the calls access. -/
structure Rud where
  valid : Bool
  rbuf : Ring
  pipe : Option Pipe

namespace Rud

/-- A ringbuffer object that was just created. -/
def new (size : Nat) (positive : 0 < size) (cell : UInt8) (pipe : Option Pipe) : Rud where
  valid := true
  rbuf := Circular.create size positive cell
  pipe

/-- The number of bytes in the pipe. -/
def bytes (rud : Rud) : Nat := (rud.pipe.map Pipe.bytes).getD 0

/-- The number of complete messages in the ringbuffer. -/
def messages (rud : Rud) : Nat := (Message.complete rud.rbuf.readable).length

/-- There is room for a message with the given data. -/
def HasRoom (rud : Rud) (data : Option (List UInt8)) : Prop :=
  Hdr.size + (data.getD []).length % 2 ^ 32 ≤ rud.rbuf.writeSpace

instance (rud : Rud) (data : Option (List UInt8)) : Decidable (rud.HasRoom data) :=
  inferInstanceAs (Decidable (_ ≤ _))

/-- There is no place for another byte. -/
def PipeFull (rud : Rud) : Prop := ∀ pipe ∈ rud.pipe, pipe.Full

instance (rud : Rud) : Decidable rud.PipeFull :=
  inferInstanceAs (Decidable (∀ pipe ∈ rud.pipe, pipe.Full))

/-- The pipes of two objects are the same if they have the same capacity and as many
bytes. -/
theorem ext {rud other : Rud} (valid : rud.valid = other.valid)
    (rbuf : rud.rbuf = other.rbuf)
    (capacity : rud.pipe.map Pipe.capacity = other.pipe.map Pipe.capacity)
    (bytes : rud.bytes = other.bytes) : rud = other := by
  obtain ⟨_, _, pipe⟩ := rud
  obtain ⟨_, _, otherPipe⟩ := other
  cases valid
  cases rbuf
  cases pipe with
  | none =>
      cases otherPipe with
      | none => rfl
      | some _ => cases capacity
  | some pipe =>
      cases otherPipe with
      | none => cases capacity
      | some otherPipe =>
          obtain ⟨capacity', bytes', _⟩ := pipe
          obtain ⟨_, _, _⟩ := otherPipe
          cases Option.some.inj capacity
          have sameBytes : bytes' = _ := bytes
          cases sameBytes
          rfl

end Rud

/-! ## The Lua API -/

/-- A function of the Lua API. -/
abbrev LuaApi := Fallible Rud String

/-- `rud_check`. -/
def rudCheck : LuaApi Unit := fun rud =>
  (if rud.valid then .ok ⟨⟩ else .error "invalid ringbuffer reference", rud)

/-- Run code on the ringbuffer that nobody else uses meanwhile. -/
def onRing {α : Type} (program : RingProgram α) : LuaApi α := fun rud =>
  let (value, rbuf) := program.run RingOp.exec rud.rbuf
  (.ok value, { rud with rbuf })

/-- `rbuf_pipe_write`. -/
def rbufPipeWrite : LuaApi Unit := fun rud =>
  match rud.pipe with
  | none => (.ok ⟨⟩, rud)
  | some pipe =>
      let (code, pipe) := syncpipeWrite pipe
      (if code < 0 then .error "rbuf pipe error" else .ok ⟨⟩,
        { rud with pipe := some pipe })

/-- `rbuf_pipe_read`. -/
def rbufPipeRead : LuaApi Unit := fun rud =>
  match rud.pipe with
  | none => (.ok ⟨⟩, rud)
  | some pipe =>
      let (code, pipe) := syncpipeRead pipe
      (if code < 0 then .error "rbuf pipe error" else .ok ⟨⟩,
        { rud with pipe := some pipe })

/-- `RingbufferWrite`. -/
def ringbufferWrite (tag : Option LuaInteger) (data : Option (List UInt8)) :
    LuaApi Bool := do
  rudCheck
  match ← onRing (ringbufferLuawrite tag data) with
  | .invalidTag => Fallible.error "invalid tag"
  | .unexpectedError => Fallible.error unexpectedError
  | .written => do
      rbufPipeWrite
      return true
  | .noSpace => do
      rbufPipeWrite
      return false

/-- `RingbufferRead`. -/
def ringbufferRead : LuaApi (Option (LuaInteger × List UInt8)) := do
  rudCheck
  let result ← onRing (ringbufferLuaread true)
  rbufPipeRead
  return result

/-- `RingbufferPeek`. -/
def ringbufferPeek : LuaApi (Option (LuaInteger × List UInt8)) := do
  rudCheck
  onRing (ringbufferLuaread false)

/-- `RingbufferReadAdvance`. -/
def ringbufferReadAdvance : LuaApi Bool := do
  rudCheck
  let success ← onRing ringbufferLuareadAdvance
  rbufPipeRead
  return success

/-- `RingbufferReset`. -/
def ringbufferReset : LuaApi Unit := do
  rudCheck
  Fallible.modify fun rud => { rud with rbuf := rud.rbuf.reset }

/-! ## The C API -/

/-- What a function of the C API returns, and the error that it registers. -/
structure CResult where
  code : Int
  error : Option String
  deriving DecidableEq, Repr

/-- `luajack_error`. -/
def luajackError (text : String) : CResult where
  code := 0
  error := some text

/-- A function of the C API. -/
abbrev CApi := Rud → CResult × Rud

/-- `get_rud`, and the rest of the function if the object is valid. -/
def getRud (rest : CApi) : CApi := fun rud =>
  if rud.valid then rest rud else (luajackError "invalid luajack_t object", rud)

/-- `luajack_ringbuffer_write`. -/
def luajackRingbufferWrite (tag : BitVec 32) (data : Option (List UInt8)) : CApi :=
  getRud fun rud =>
    let (outcome, rbuf) := (ringbufferCwrite tag data).run RingOp.exec rud.rbuf
    let result := match outcome with
      | .written => ⟨1, none⟩
      -- `ringbuffer_cwrite` takes every tag
      | .noSpace | .invalidTag => ⟨0, none⟩
      | .unexpectedError => luajackError unexpectedError
    (result, { rud with rbuf })

/-- `luajack_ringbuffer_read`, without the message that it stores for the caller. -/
def luajackRingbufferRead (bufsz : Nat) : CApi :=
  getRud fun rud =>
    let (outcome, rbuf) := (ringbufferCread bufsz true).run RingOp.exec rud.rbuf
    let result := match outcome with
      | .message _ _ => ⟨1, none⟩
      | .empty => ⟨0, none⟩
      | .tooSmall needed => luajackError
          s!"not enough space for ringbuffer_read() (at least {needed} bytes needed)"
    (result, { rud with rbuf })

/-- `luajack_ringbuffer_read_advance`. -/
def luajackRingbufferReadAdvance : CApi :=
  getRud fun rud =>
    let (success, rbuf) := ringbufferCreadAdvance.run RingOp.exec rud.rbuf
    (⟨if success then 1 else 0, none⟩, { rud with rbuf })

/-- `luajack_ringbuffer_reset`. -/
def luajackRingbufferReset : CApi :=
  getRud fun rud => (⟨0, none⟩, { rud with rbuf := rud.rbuf.reset })

/-! ## What the calls do -/

section

variable {rud : Rud}

theorem rudCheck_bind {α : Type} (valid : rud.valid = true) (rest : Unit → LuaApi α) :
    (rudCheck >>= rest) rud = rest ⟨⟩ rud := by
  rw [Fallible.bind_apply, rudCheck, if_pos valid]

theorem onRing_bind {α β : Type} (program : RingProgram α) (rest : α → LuaApi β) :
    (onRing program >>= rest) rud =
      rest (program.run RingOp.exec rud.rbuf).1
        { rud with rbuf := (program.run RingOp.exec rud.rbuf).2 } := rfl

/-- The pipe after `rbuf_pipe_write`. -/
def Rud.pipeWritten (rud : Rud) : Rud :=
  { rud with pipe := rud.pipe.map fun pipe => (syncpipeWrite pipe).2 }

/-- The pipe after `rbuf_pipe_read`. -/
def Rud.pipeRead (rud : Rud) : Rud :=
  { rud with pipe := rud.pipe.map fun pipe => (syncpipeRead pipe).2 }

theorem rbufPipeWrite_bind {α : Type} (rest : Unit → LuaApi α) :
    (rbufPipeWrite >>= rest) rud = rest ⟨⟩ rud.pipeWritten := by
  rw [Fallible.bind_apply, rbufPipeWrite, Rud.pipeWritten]
  obtain ⟨valid, rbuf, pipe⟩ := rud
  cases pipe with
  | none => rfl
  | some pipe => simp only [if_neg (syncpipeWrite_nonneg pipe), Option.map_some]

theorem rbufPipeRead_bind {α : Type} (rest : Unit → LuaApi α) :
    (rbufPipeRead >>= rest) rud = rest ⟨⟩ rud.pipeRead := by
  rw [Fallible.bind_apply, rbufPipeRead, Rud.pipeRead]
  obtain ⟨valid, rbuf, pipe⟩ := rud
  cases pipe with
  | none => rfl
  | some pipe => simp only [if_neg (syncpipeRead_nonneg pipe), Option.map_some]

/-- A Lua write without a tag changes nothing. -/
theorem ringbufferWrite_none (valid : rud.valid = true) (data : Option (List UInt8)) :
    ringbufferWrite none data rud = (.error "invalid tag", rud) := by
  rw [ringbufferWrite, rudCheck_bind valid]
  rfl

/-- Both APIs write a message in the same way. -/
theorem luawrite_eq_cwrite (tag : LuaInteger) (data : Option (List UInt8)) :
    ringbufferLuawrite (some tag) data = ringbufferCwrite (tag.setWidth 32) data := by
  cases data with
  | none => rfl
  | some data => rfl

theorem run_cwrite_outcome (tag : BitVec 32) (data : Option (List UInt8)) :
    ((ringbufferCwrite tag data).run RingOp.exec rud.rbuf).1 =
      if rud.HasRoom data then .written else .noSpace := by
  have isWrite : ringbufferCwrite tag data =
      writeMessage ⟨tag, BitVec.ofNat 32 (data.getD []).length⟩ (data.getD []) := by
    cases data with
    | none => rfl
    | some data => rfl
  rw [isWrite, run_writeMessage_outcome, BitVec.toNat_ofNat]
  by_cases room : rud.HasRoom data
  · rw [if_neg (Nat.not_lt.mpr room), if_pos room]
  · rw [if_pos (Nat.not_le.mp room), if_neg room]

/-- A Lua write reports whether there was room, and writes to the pipe in any case. -/
theorem ringbufferWrite_some (valid : rud.valid = true) (tag : LuaInteger)
    (data : Option (List UInt8)) :
    ringbufferWrite (some tag) data rud =
      (.ok (decide (rud.HasRoom data)), Rud.pipeWritten { rud with
        rbuf := ((ringbufferLuawrite (some tag) data).run RingOp.exec rud.rbuf).2 }) := by
  rw [ringbufferWrite, rudCheck_bind valid, onRing_bind,
    luawrite_eq_cwrite, run_cwrite_outcome]
  by_cases room : rud.HasRoom data
  · rw [if_pos room, decide_eq_true room]
    exact rbufPipeWrite_bind _
  · rw [if_neg room, decide_eq_false room]
    exact rbufPipeWrite_bind _

theorem ringbufferRead_eq (valid : rud.valid = true) :
    ringbufferRead rud =
      (.ok ((ringbufferLuaread true).run RingOp.exec rud.rbuf).1, Rud.pipeRead { rud with
        rbuf := ((ringbufferLuaread true).run RingOp.exec rud.rbuf).2 }) := by
  rw [ringbufferRead, rudCheck_bind valid, onRing_bind]
  exact rbufPipeRead_bind _

theorem ringbufferPeek_eq (valid : rud.valid = true) :
    ringbufferPeek rud =
      (.ok ((ringbufferLuaread false).run RingOp.exec rud.rbuf).1, { rud with
        rbuf := ((ringbufferLuaread false).run RingOp.exec rud.rbuf).2 }) := by
  rw [ringbufferPeek, rudCheck_bind valid]
  rfl

theorem ringbufferReadAdvance_eq (valid : rud.valid = true) :
    ringbufferReadAdvance rud =
      (.ok (ringbufferLuareadAdvance.run RingOp.exec rud.rbuf).1, Rud.pipeRead { rud with
        rbuf := (ringbufferLuareadAdvance.run RingOp.exec rud.rbuf).2 }) := by
  rw [ringbufferReadAdvance, rudCheck_bind valid, onRing_bind]
  exact rbufPipeRead_bind _

theorem ringbufferReset_eq (valid : rud.valid = true) :
    ringbufferReset rud = (.ok ⟨⟩, { rud with rbuf := rud.rbuf.reset }) :=
  rudCheck_bind valid _

theorem Rud.bytes_pipeWritten : rud.pipeWritten.bytes =
    if rud.PipeFull then rud.bytes else rud.bytes + 1 := by
  obtain ⟨valid, rbuf, pipe⟩ := rud
  cases pipe with
  | none =>
      have full : Rud.PipeFull ⟨valid, rbuf, none⟩ := by
        intro pipe absent
        cases absent
      rw [if_pos full]
      rfl
  | some pipe =>
      have isFull : Rud.PipeFull ⟨valid, rbuf, some pipe⟩ ↔ pipe.Full := by
        simp [Rud.PipeFull]
      change (syncpipeWrite pipe).2.bytes = _
      rw [syncpipeWrite_bytes]
      simp only [isFull]
      rfl

@[simp] theorem Rud.bytes_pipeRead : rud.pipeRead.bytes = rud.bytes - 1 := by
  obtain ⟨valid, rbuf, pipe⟩ := rud
  cases pipe with
  | none => rfl
  | some pipe => simp [Rud.bytes, Rud.pipeRead]

end

end LuaJack.Rbuf
