import LuaJack.Rbuf.Calls

/-!
# The two APIs of ringbuffers

Each of four operations on a ringbuffer object has a function in the Lua API and one
in the C API.  They treat the ringbuffer alike, but only those of the Lua API access
the pipe, and only the C read depends on the size of a buffer.
-/

namespace LuaJack.Rbuf

open Atomic Ringbuffer

/-- The operations that both APIs have, with the arguments of either.  The tag is a Lua
integer, of which C takes the low 32 bits, and only C has a buffer to read into. -/
inductive Operation where
  | write (tag : LuaInteger) (data : Option (List UInt8))
  | read (bufsz : Nat)
  | readAdvance
  | reset
  deriving DecidableEq, Repr

namespace Operation

/-- Whether the function of the Lua API succeeds, and the object afterwards: an error,
`false` and `nil` are failures. -/
def lua : Operation → Rud → Bool × Rud
  | write tag data, rud =>
      let (result, rud) := ringbufferWrite (some tag) data rud
      (match result with | .ok written => written | .error _ => false, rud)
  | read _, rud =>
      let (result, rud) := ringbufferRead rud
      (match result with | .ok message => message.isSome | .error _ => false, rud)
  | readAdvance, rud =>
      let (result, rud) := ringbufferReadAdvance rud
      (match result with | .ok success => success | .error _ => false, rud)
  | reset, rud =>
      let (result, rud) := ringbufferReset rud
      (match result with | .ok _ => true | .error _ => false, rud)

/-- Whether the function of the C API succeeds, and the object afterwards: a reset
returns 0 in any case, and fails if it registers an error. -/
def c : Operation → Rud → Bool × Rud
  | write tag data, rud =>
      let (result, rud) := luajackRingbufferWrite (tag.setWidth 32) data rud
      (result.code = 1, rud)
  | read bufsz, rud =>
      let (result, rud) := luajackRingbufferRead bufsz rud
      (result.code = 1, rud)
  | readAdvance, rud =>
      let (result, rud) := luajackRingbufferReadAdvance rud
      (result.code = 1, rud)
  | reset, rud =>
      let (result, rud) := luajackRingbufferReset rud
      (result.error.isNone, rud)

/-- Both functions have the same outcome, and leave the same ringbuffer and as many bytes
in the pipe. -/
structure Agrees (operation : Operation) (rud : Rud) : Prop where
  success : (operation.c rud).1 = (operation.lua rud).1
  rbuf : (operation.c rud).2.rbuf = (operation.lua rud).2.rbuf
  bytes : (operation.c rud).2.bytes = (operation.lua rud).2.bytes

/-- The Lua function does not get to the pipe or finds nothing to do there, and the
buffer for the C function is large enough for the first message. -/
def Interchangeable (operation : Operation) (rud : Rud) : Prop :=
  rud.valid = false ∨
  match operation with
  | write _ _ => rud.PipeFull
  | read bufsz => rud.bytes = 0 ∧ ∀ len ∈ rud.rbuf.first, len ≤ bufsz
  | readAdvance => rud.bytes = 0
  | reset => True

section

variable {rud : Rud}

/-- Reading a byte makes a difference where there is one. -/
theorem sub_one_eq {bytes : Nat} : bytes = bytes - 1 ↔ bytes = 0 := by omega

theorem lua_write (valid : rud.valid = true)
    (tag : LuaInteger) (data : Option (List UInt8)) :
    (write tag data).lua rud = (decide (rud.HasRoom data), Rud.pipeWritten { rud with
      rbuf :=
        ((ringbufferCwrite (tag.setWidth 32) data).run RingOp.exec rud.rbuf).2 }) := by
  simp only [lua, ringbufferWrite_some valid, luawrite_eq_cwrite]

theorem c_write (valid : rud.valid = true)
    (tag : LuaInteger) (data : Option (List UInt8)) :
    (write tag data).c rud = (decide (rud.HasRoom data), { rud with
      rbuf :=
        ((ringbufferCwrite (tag.setWidth 32) data).run RingOp.exec rud.rbuf).2 }) := by
  simp only [c, luajackRingbufferWrite, getRud, if_pos valid, run_cwrite_outcome]
  by_cases room : rud.HasRoom data
  · simp only [if_pos room, decide_eq_true room]
    rfl
  · simp only [if_neg room, decide_eq_false room]
    rfl

theorem lua_read (valid : rud.valid = true) (bufsz : Nat) :
    (read bufsz).lua rud =
      (((readMessage none true).run RingOp.exec rud.rbuf).1.isMessage,
        Rud.pipeRead { rud with
        rbuf := ((readMessage none true).run RingOp.exec rud.rbuf).2 }) := by
  obtain ⟨found, after⟩ := run_luaread_eq rud.rbuf true
  simp only [lua, ringbufferRead_eq valid, found, after]

theorem c_read (valid : rud.valid = true) (bufsz : Nat) :
    (read bufsz).c rud =
      (((ringbufferCread bufsz true).run RingOp.exec rud.rbuf).1.isMessage, { rud with
        rbuf := ((ringbufferCread bufsz true).run RingOp.exec rud.rbuf).2 }) := by
  simp only [c, luajackRingbufferRead, getRud, if_pos valid]
  cases ((ringbufferCread bufsz true).run RingOp.exec rud.rbuf).1 with
  | message tag data => rfl
  | empty => rfl
  | tooSmall needed => rfl

theorem lua_readAdvance (valid : rud.valid = true) :
    readAdvance.lua rud =
      ((advanceMessage.run RingOp.exec rud.rbuf).1, Rud.pipeRead { rud with
        rbuf := (advanceMessage.run RingOp.exec rud.rbuf).2 }) := by
  simp only [lua, ringbufferReadAdvance_eq valid, ringbufferLuareadAdvance]

theorem decide_code (success : Bool) :
    decide ((if success then 1 else 0 : Int) = 1) = success := by
  cases success with
  | true => rfl
  | false => rfl

theorem c_readAdvance (valid : rud.valid = true) :
    readAdvance.c rud =
      ((advanceMessage.run RingOp.exec rud.rbuf).1, { rud with
        rbuf := (advanceMessage.run RingOp.exec rud.rbuf).2 }) := by
  simp only [c, luajackRingbufferReadAdvance,
    getRud, if_pos valid, ringbufferCreadAdvance]
  exact Prod.ext (decide_code _) rfl

theorem rudCheck_invalid {α : Type} (invalid : rud.valid = false)
    (rest : Unit → LuaApi α) :
    (rudCheck >>= rest) rud = (.error "invalid ringbuffer reference", rud) := by
  rw [Fallible.bind_apply, rudCheck, if_neg (by rw [invalid]; exact Bool.false_ne_true)]

/-- Both APIs refuse an object that is not valid. -/
theorem eq_of_invalid (invalid : rud.valid = false) (operation : Operation) :
    operation.c rud = (false, rud) ∧ operation.lua rud = (false, rud) := by
  have refused : ∀ rest : CApi, getRud rest rud =
      (luajackError "invalid luajack_t object", rud) :=
    fun rest => if_neg (by rw [invalid]; exact Bool.false_ne_true)
  cases operation with
  | write tag data =>
      simp only [c, lua, luajackRingbufferWrite,
        ringbufferWrite, refused, rudCheck_invalid invalid]
      exact ⟨rfl, trivial⟩
  | read bufsz =>
      simp only [c, lua, luajackRingbufferRead, ringbufferRead,
        refused, rudCheck_invalid invalid]
      exact ⟨rfl, trivial⟩
  | readAdvance =>
      simp only [c, lua, luajackRingbufferReadAdvance, ringbufferReadAdvance, refused,
        rudCheck_invalid invalid]
      exact ⟨rfl, trivial⟩
  | reset =>
      have failed : ringbufferReset rud = (.error "invalid ringbuffer reference", rud) :=
        rudCheck_invalid invalid _
      simp only [c, lua, luajackRingbufferReset, refused, failed]
      exact ⟨rfl, trivial⟩

theorem agrees_write (valid : rud.valid = true)
    (tag : LuaInteger) (data : Option (List UInt8)) :
    (write tag data).Agrees rud ↔ rud.PipeFull := by
  have lua := lua_write valid tag data
  have c := c_write valid tag data
  have written : (Rud.pipeWritten { rud with
      rbuf :=
        ((ringbufferCwrite (tag.setWidth 32) data).run RingOp.exec rud.rbuf).2 }).bytes =
      if rud.PipeFull then rud.bytes else rud.bytes + 1 := Rud.bytes_pipeWritten
  constructor
  · intro agrees
    have bytes := agrees.bytes
    rw [c, lua] at bytes
    by_contra room
    have more := bytes.trans written
    rw [if_neg room] at more
    exact absurd more (Nat.succ_ne_self _).symm
  · intro full
    refine ⟨?_, ?_, ?_⟩
    · rw [c, lua]
    · rw [c, lua]
      rfl
    · rw [c, lua]
      exact (written.trans (if_pos full)).symm

theorem agrees_read (valid : rud.valid = true) (bufsz : Nat) :
    (read bufsz).Agrees rud ↔ rud.bytes = 0 ∧ ∀ len ∈ rud.rbuf.first, len ≤ bufsz := by
  have lua := lua_read valid bufsz
  have c := c_read valid bufsz
  have tooSmall : ∀ len, ¬(some bufsz).any (· < len) = true ↔ len ≤ bufsz := by
    intro len
    simp
  constructor
  · intro agrees
    have bytes := agrees.bytes
    have success := agrees.success
    rw [c, lua, Rud.bytes_pipeRead] at bytes
    refine ⟨sub_one_eq.mp bytes, ?_⟩
    intro len first
    rw [c, lua, run_readMessage_some rud.rbuf first] at success
    apply (tooSmall len).mp
    intro small
    rw [ringbufferCread, run_readMessage_small rud.rbuf first small] at success
    cases success
  · rintro ⟨empty, large⟩
    have same : (ringbufferCread bufsz true).run RingOp.exec rud.rbuf =
        (readMessage none true).run RingOp.exec rud.rbuf := by
      cases first : rud.rbuf.first with
      | none => rw [ringbufferCread, run_readMessage_none rud.rbuf first,
          run_readMessage_none rud.rbuf first]
      | some len =>
          exact run_readMessage_large rud.rbuf first
            ((tooSmall len).mpr (large len first))
    rw [same] at c
    refine ⟨?_, ?_, ?_⟩
    · rw [c, lua]
    · rw [c, lua]
      rfl
    · rw [c, lua, Rud.bytes_pipeRead]
      exact sub_one_eq.mpr empty

theorem agrees_readAdvance (valid : rud.valid = true) :
    readAdvance.Agrees rud ↔ rud.bytes = 0 := by
  have lua := lua_readAdvance valid
  have c := c_readAdvance valid
  constructor
  · intro agrees
    have bytes := agrees.bytes
    rw [c, lua, Rud.bytes_pipeRead] at bytes
    exact sub_one_eq.mp bytes
  · intro empty
    refine ⟨?_, ?_, ?_⟩
    · rw [c, lua]
    · rw [c, lua]
      rfl
    · rw [c, lua, Rud.bytes_pipeRead]
      exact sub_one_eq.mpr empty

theorem agrees_reset (valid : rud.valid = true) : reset.Agrees rud := by
  have lua : reset.lua rud = (true, { rud with rbuf := rud.rbuf.reset }) := by
    simp only [Operation.lua, ringbufferReset_eq valid]
  have c : reset.c rud = (true, { rud with rbuf := rud.rbuf.reset }) := by
    simp only [Operation.c, luajackRingbufferReset, getRud, if_pos valid]
    rfl
  refine ⟨?_, ?_, ?_⟩
  · rw [c, lua]
  · rw [c, lua]
  · rw [c, lua]

theorem agrees_iff (operation : Operation) :
    operation.Agrees rud ↔ operation.Interchangeable rud := by
  cases valid : rud.valid with
  | false =>
      obtain ⟨c, lua⟩ := eq_of_invalid valid operation
      refine iff_of_true ⟨?_, ?_, ?_⟩ (.inl valid)
      · rw [c, lua]
      · rw [c, lua]
      · rw [c, lua]
  | true =>
      have isValid : ¬rud.valid = false := by rw [valid]; exact Bool.noConfusion
      unfold Interchangeable
      rw [or_iff_right isValid]
      cases operation with
      | write tag data => exact agrees_write valid tag data
      | read bufsz => exact agrees_read valid bufsz
      | readAdvance => exact agrees_readAdvance valid
      | reset => exact iff_of_true (agrees_reset valid) trivial

/-! ## Mixed sequences -/

theorem lua_frame (operation : Operation) :
    (operation.lua rud).2.valid = rud.valid ∧
      (operation.lua rud).2.pipe.map Pipe.capacity = rud.pipe.map Pipe.capacity := by
  have written : ∀ rbuf : Ring,
      (Rud.pipeWritten { rud with rbuf }).pipe.map Pipe.capacity =
      rud.pipe.map Pipe.capacity := by
    intro rbuf
    simp [Rud.pipeWritten, Function.comp_def]
  have read : ∀ rbuf : Ring, (Rud.pipeRead { rud with rbuf }).pipe.map Pipe.capacity =
      rud.pipe.map Pipe.capacity := by
    intro rbuf
    simp [Rud.pipeRead, Function.comp_def]
  cases valid : rud.valid with
  | false =>
      rw [(eq_of_invalid valid operation).2]
      exact ⟨valid, rfl⟩
  | true =>
      cases operation with
      | write tag data =>
          rw [lua_write valid]
          exact ⟨valid, written _⟩
      | read bufsz =>
          rw [lua_read valid]
          exact ⟨valid, read _⟩
      | readAdvance =>
          rw [lua_readAdvance valid]
          exact ⟨valid, read _⟩
      | reset =>
          simp only [lua, ringbufferReset_eq valid]
          exact ⟨valid, trivial⟩

theorem c_frame (operation : Operation) :
    (operation.c rud).2.valid = rud.valid ∧ (operation.c rud).2.pipe = rud.pipe := by
  cases valid : rud.valid with
  | false =>
      rw [(eq_of_invalid valid operation).1]
      exact ⟨valid, rfl⟩
  | true =>
      cases operation with
      | write tag data =>
          rw [c_write valid]
          exact ⟨valid, rfl⟩
      | read bufsz =>
          rw [c_read valid]
          exact ⟨valid, rfl⟩
      | readAdvance =>
          rw [c_readAdvance valid]
          exact ⟨valid, rfl⟩
      | reset =>
          simp only [c, luajackRingbufferReset, getRud, if_pos valid]
          exact ⟨valid, trivial⟩

/-- Functions that agree leave the same object. -/
theorem Agrees.eq {operation : Operation} (agrees : operation.Agrees rud) :
    operation.c rud = operation.lua rud := by
  obtain ⟨luaValid, luaCapacity⟩ := @lua_frame rud operation
  obtain ⟨cValid, cPipe⟩ := @c_frame rud operation
  have capacity : (operation.c rud).2.pipe.map Pipe.capacity =
      (operation.lua rud).2.pipe.map Pipe.capacity := by
    rw [cPipe, luaCapacity]
  exact Prod.ext agrees.success
    (Rud.ext (cValid.trans luaValid.symm) agrees.rbuf capacity agrees.bytes)

end

/-- Perform the operations one after the other, each through the C API if it is marked
so and through the Lua API otherwise. -/
def performAll : List (Bool × Operation) → Rud → List Bool × Rud
  | [], rud => ([], rud)
  | (viaC, operation) :: operations, rud =>
      let (success, rud) := if viaC then operation.c rud else operation.lua rud
      let (successes, rud) := performAll operations rud
      (success :: successes, rud)

/-- Every operation of the list is interchangeable when it is performed after those
before it, all through the Lua API. -/
def AllInterchangeable : List Operation → Rud → Prop
  | [], _ => True
  | operation :: operations, rud =>
      operation.Interchangeable rud ∧ AllInterchangeable operations (operation.lua rud).2

/-- The APIs may be mixed in a sequence of interchangeable operations. -/
theorem performAll_eq {operations : List (Bool × Operation)} {rud : Rud}
    (interchangeable : AllInterchangeable (operations.map Prod.snd) rud) :
    performAll operations rud =
      performAll (operations.map fun operation => (false, operation.2)) rud := by
  induction operations generalizing rud with
  | nil => rfl
  | cons operation operations ih =>
      obtain ⟨viaC, operation⟩ := operation
      obtain ⟨first, rest⟩ := interchangeable
      have same : (if viaC then operation.c rud else operation.lua rud) =
          operation.lua rud := by
        cases viaC with
        | true => exact ((agrees_iff operation).mpr first).eq
        | false => rfl
      simp only [performAll, List.map_cons, same, ih rest]
      rfl

end Operation

/-- The functions of the two APIs agree on an operation exactly if it is interchangeable,
and the APIs may be mixed in a sequence of operations that are. -/
theorem interchangeable_iff_agrees (rud : Rud) :
    (∀ operation : Operation, operation.Agrees rud ↔ operation.Interchangeable rud) ∧
    ∀ operations : List (Bool × Operation),
      Operation.AllInterchangeable (operations.map Prod.snd) rud →
      Operation.performAll operations rud =
        Operation.performAll (operations.map fun operation => (false, operation.2)) rud :=
  ⟨fun operation => operation.agrees_iff, fun _ => Operation.performAll_eq⟩

/-- Without a pipe a message may be written through one API and read through the other. -/
theorem interchangeable_iff_agrees_without_pipe :
    Operation.performAll [(true, .write 7 none), (false, .readAdvance), (true, .reset)]
        (.new 16 (by decide) 0 none) =
      Operation.performAll
        [(false, .write 7 none), (false, .readAdvance), (false, .reset)]
        (.new 16 (by decide) 0 none) := by
  apply (interchangeable_iff_agrees (.new 16 (by decide) 0 none)).2
    [(true, .write 7 none), (false, .readAdvance), (true, .reset)]
  refine ⟨.inr ?_, .inr rfl, .inr trivial, trivial⟩
  intro pipe absent
  cases absent

/-- The Lua function writes a byte, and the C function does not. -/
theorem not_always_interchangeable :
    ¬∀ (operation : Operation) (rud : Rud), operation.Agrees rud := by
  intro always
  have agrees := always (.write 7 none) (.new 16 (by decide) 0 (some (.new 65536)))
  exact absurd agrees.bytes (by decide)

end LuaJack.Rbuf
