import LuaJack.Atomic.Program
import LuaJack.Basic
import LuaJack.Ringbuffer.Circular
import LuaJack.Ringbuffer.Message

/-!
# The message protocol

The functions of `ringbuffer.c`, as programs over the primitives of the JACK
ringbuffer.  Each primitive is one atomic operation; so is every access to a
single byte of the array through a read or write vector.
-/

namespace LuaJack.Ringbuffer

open Atomic

/-- A `jack_ringbuffer_t`. -/
abbrev Ring := Circular UInt8

/-- The operations on a `jack_ringbuffer_t`. `store` and `load` access one byte
of the array, which is what `memcpy` and `lua_pushlstring` do byte after byte. -/
inductive RingOp where
  | writeSpace
  | readSpace
  | write (src : List UInt8)
  | peek (count : Nat)
  | getReadVector
  | getWriteVector
  | readAdvance (count : Nat)
  | writeAdvance (count : Nat)
  | store (cell : Nat) (byte : UInt8)
  | load (cell : Nat)
  deriving DecidableEq

namespace RingOp

/-- What each operation returns. -/
@[reducible] def Answer : RingOp → Type
  | writeSpace | readSpace | write _ => Nat
  | peek _ => List UInt8
  | getReadVector | getWriteVector => Segment × Segment
  | readAdvance _ | writeAdvance _ | store _ _ => Unit
  | load _ => UInt8

/-- The effect of each operation. -/
def exec : (op : RingOp) → Ring → Answer op × Ring
  | writeSpace, ring => (ring.writeSpace, ring)
  | readSpace, ring => (ring.readSpace, ring)
  | write src, ring => ring.push src
  | peek count, ring => (ring.peek count, ring)
  | getReadVector, ring => (ring.readVector, ring)
  | getWriteVector, ring => (ring.writeVector, ring)
  | readAdvance count, ring => ((), ring.readAdvance count)
  | writeAdvance count, ring => ((), ring.writeAdvance count)
  | store cell byte, ring => ((), ring.store cell byte)
  | load cell, ring => (ring.cells cell, ring)

end RingOp

/-- Code that works on a ringbuffer. -/
abbrev RingProgram := Program RingOp RingOp.Answer

/-- Perform one operation on the ringbuffer. -/
abbrev ringOp (op : RingOp) : RingProgram op.Answer := Program.perform op

/-- `memcpy` into the array. -/
def memcpy (cell : Nat) : List UInt8 → RingProgram Unit
  | [] => return ()
  | byte :: bytes => do
      ringOp (.store cell byte)
      memcpy (cell + 1) bytes

/-- `lua_pushlstring`, or `memcpy` out of the array. -/
def pushlstring (cell : Nat) : (len : Nat) → RingProgram (List UInt8)
  | 0 => return []
  | len + 1 => do
      let byte : UInt8 ← ringOp (.load cell)
      let bytes ← pushlstring (cell + 1) len
      return byte :: bytes

/-! ## Writing -/

/-- How a write ends: `written` and `noSpace` are the results `true` and `false`
(1 and 0 in C); `invalidTag` is the Lua error of that text and
`unexpectedError` one of the `UNEXPECTED_ERROR` exits. -/
inductive WriteOutcome where
  | written
  | noSpace
  | invalidTag
  | unexpectedError
  deriving DecidableEq, Repr

/-- Copy the first `len` bytes of the data through the write vector and publish them. -/
def writeData (data : List UInt8) (len : Nat) : RingProgram WriteOutcome := do
  let vec : Segment × Segment ← ringOp .getWriteVector
  if vec.1.len + vec.2.len < len then
    return .unexpectedError
  else if len ≤ vec.1.len then
    memcpy vec.1.start (data.take len)
    ringOp (.writeAdvance len)
    return .written
  else
    memcpy vec.1.start (data.take vec.1.len)
    memcpy vec.2.start ((data.drop vec.1.len).take (len - vec.1.len))
    ringOp (.writeAdvance len)
    return .written

/-- The part that `ringbuffer_luawrite` and `ringbuffer_cwrite` have in common:
publish the header, then the first `hdr.len` bytes of the data. -/
def writeMessage (hdr : Hdr) (data : List UInt8) : RingProgram WriteOutcome := do
  let len := hdr.len.toNat
  let space : Nat ← ringOp .writeSpace
  if space < Hdr.size + len then
    return .noSpace
  else
    let cnt : Nat ← ringOp (.write hdr.bytes)
    if cnt ≠ Hdr.size then
      return .unexpectedError
    else if len = 0 then
      return .written
    else
      writeData data len

/-- `ringbuffer_luawrite`: `tag` is the result of `lua_tointegerx`, `data` that of
`luaL_optlstring`. -/
def ringbufferLuawrite (tag : Option LuaInteger) (data : Option (List UInt8)) :
    RingProgram WriteOutcome :=
  match tag with
  | none => return .invalidTag
  | some tag =>
      match data with
      | none => writeMessage ⟨tag.setWidth 32, 0⟩ []
      | some data => writeMessage ⟨tag.setWidth 32, BitVec.ofNat 32 data.length⟩ data

/-- `ringbuffer_cwrite`: `data` is `none` for a null pointer. -/
def ringbufferCwrite (tag : BitVec 32) (data : Option (List UInt8)) :
    RingProgram WriteOutcome :=
  match data with
  | none => writeMessage ⟨tag, 0⟩ []
  | some data => writeMessage ⟨tag, BitVec.ofNat 32 data.length⟩ data

/-! ## Reading -/

/-- How a read ends: with a message, without one, or because the caller's
buffer cannot take the `needed` bytes of the message. -/
inductive ReadOutcome where
  | message (tag : BitVec 32) (data : List UInt8)
  | empty
  | tooSmall (needed : Nat)
  deriving DecidableEq, Repr

/-- Copy the data of the first message out of the read vector. -/
def readData (vec : Segment × Segment) (len : Nat) : RingProgram (List UInt8) :=
  if Hdr.size + len ≤ vec.1.len then
    -- header and data fit in the first segment
    pushlstring (vec.1.start + Hdr.size) len
  else if Hdr.size < vec.1.len then do
    let len0 := (vec.1.len - Hdr.size) % 2 ^ 32
    let first ← pushlstring (vec.1.start + Hdr.size) len0
    let second ← pushlstring vec.2.start (len - len0)
    return first ++ second
  else
    -- the first `len0` bytes of the second segment belong to the header
    let len0 := (Hdr.size - vec.1.len) % 2 ^ 32
    pushlstring (vec.2.start + len0) len

/-- The part that `ringbuffer_luaread` and `ringbuffer_cread` have in common;
`bufsz` is the size of the caller's buffer, when it supplies one. -/
def readMessage (bufsz : Option Nat) (advance : Bool) : RingProgram ReadOutcome := do
  let header : List UInt8 ← ringOp (.peek Hdr.size)
  if header.length ≠ Hdr.size then
    return .empty
  else
    let hdr := Hdr.ofBytes header
    let len := hdr.len.toNat
    let cnt : Nat ← ringOp .readSpace
    if cnt < Hdr.size + len then
      return .empty
    else if bufsz.any (· < len) then
      return .tooSmall len
    else if len = 0 then
      if advance then
        ringOp (.readAdvance Hdr.size)
        return .message hdr.tag []
      else
        return .message hdr.tag []
    else
      let vec : Segment × Segment ← ringOp .getReadVector
      let data ← readData vec len
      if advance then
        ringOp (.readAdvance (Hdr.size + len))
        return .message hdr.tag data
      else
        return .message hdr.tag data

/-- `ringbuffer_luaread`: the tag is returned as a Lua integer, `nil` is `none`. -/
def ringbufferLuaread (advance : Bool) :
    RingProgram (Option (LuaInteger × List UInt8)) := do
  match ← readMessage none advance with
  | .message tag data => return some (tag.signExtend 64, data)
  | .empty => return none
  | .tooSmall _ => return none

/-- `ringbuffer_cread`: the outcome `message` is the result 1, with `*tag`, `*len`
and the first `*len` bytes of the buffer. -/
def ringbufferCread (bufsz : Nat) (advance : Bool) : RingProgram ReadOutcome :=
  readMessage (some bufsz) advance

/-- The body of `ringbuffer_luaread_advance` and `ringbuffer_cread_advance`. -/
def advanceMessage : RingProgram Bool := do
  let header : List UInt8 ← ringOp (.peek Hdr.size)
  if header.length = Hdr.size then
    let len := (Hdr.ofBytes header).len.toNat
    let cnt : Nat ← ringOp .readSpace
    if Hdr.size + len ≤ cnt then
      ringOp (.readAdvance (Hdr.size + len))
      return true
    else
      return false
  else
    return false

/-- `ringbuffer_luaread_advance`. -/
def ringbufferLuareadAdvance : RingProgram Bool := advanceMessage

/-- `ringbuffer_cread_advance`. -/
def ringbufferCreadAdvance : RingProgram Bool := advanceMessage

end LuaJack.Ringbuffer
