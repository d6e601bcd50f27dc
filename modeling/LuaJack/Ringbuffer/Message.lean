import Mathlib.Algebra.Group.Nat.Defs
import Mathlib.Data.List.Basic
import Mathlib.Tactic.Common

/-!
# Messages

Data travels over a ringbuffer as messages: a fixed-size header with a tag and
the length of the data, followed by the data.  This module describes how a
message is laid out in bytes.
-/

namespace LuaJack.Ringbuffer

/-- The `count` low bytes of a number, least significant first. -/
def littleEndian : (count : Nat) → Nat → List UInt8
  | 0, _ => []
  | count + 1, value => UInt8.ofNat value :: littleEndian count (value / 256)

/-- The number with the given bytes, least significant first. -/
def ofLittleEndian : List UInt8 → Nat
  | [] => 0
  | byte :: bytes => byte.toNat + 256 * ofLittleEndian bytes

@[simp] theorem littleEndian_length (count value : Nat) :
    (littleEndian count value).length = count := by
  induction count generalizing value with
  | zero => rfl
  | succ count ih => simp [littleEndian, ih]

theorem ofLittleEndian_littleEndian (count value : Nat) :
    ofLittleEndian (littleEndian count value) = value % 256 ^ count := by
  induction count generalizing value with
  | zero => simp [littleEndian, ofLittleEndian, Nat.mod_one]
  | succ count ih =>
      simp only [littleEndian, ofLittleEndian, ih]
      rw [Nat.pow_succ', Nat.mod_mul]
      simp

/-- The header `hdr_t` of a message: `int32_t tag` and `uint32_t len`. -/
structure Hdr where
  tag : BitVec 32
  len : BitVec 32
  deriving DecidableEq, Repr

namespace Hdr

/-- `sizeof(hdr_t)`. -/
def size : Nat := 8

/-- The header as it lies in memory. -/
def bytes (hdr : Hdr) : List UInt8 :=
  littleEndian 4 hdr.tag.toNat ++ littleEndian 4 hdr.len.toNat

/-- Read a header back from memory. -/
def ofBytes (bytes : List UInt8) : Hdr where
  tag := BitVec.ofNat 32 (ofLittleEndian (bytes.take 4))
  len := BitVec.ofNat 32 (ofLittleEndian ((bytes.drop 4).take 4))

@[simp] theorem bytes_length (hdr : Hdr) : hdr.bytes.length = size := by
  simp [bytes, size]

@[simp] theorem ofBytes_bytes (hdr : Hdr) : ofBytes hdr.bytes = hdr := by
  have tagBytes : hdr.bytes.take 4 = littleEndian 4 hdr.tag.toNat :=
    List.take_left' (littleEndian_length ..)
  have lenBytes : hdr.bytes.drop 4 = littleEndian 4 hdr.len.toNat :=
    List.drop_left' (littleEndian_length ..)
  have allBytes : (littleEndian 4 hdr.len.toNat).take 4 = littleEndian 4 hdr.len.toNat :=
    List.take_of_length_le (by simp)
  simp only [ofBytes, tagBytes, lenBytes, allBytes, ofLittleEndian_littleEndian]
  cases hdr with
  | mk tag len =>
      congr 1
      · apply BitVec.eq_of_toNat_eq
        simpa using tag.isLt
      · apply BitVec.eq_of_toNat_eq
        simpa using len.isLt

end Hdr

/-- A message that a header can describe. -/
structure Message where
  tag : BitVec 32
  data : List UInt8
  short : data.length < 2 ^ 32
  deriving DecidableEq, Repr

namespace Message

/-- The header of a message. -/
def hdr (message : Message) : Hdr where
  tag := message.tag
  len := BitVec.ofNat 32 message.data.length

@[simp] theorem hdr_tag (message : Message) : message.hdr.tag = message.tag := rfl

@[simp] theorem hdr_len_toNat (message : Message) :
    message.hdr.len.toNat = message.data.length := by
  rw [hdr, BitVec.toNat_ofNat]
  exact Nat.mod_eq_of_lt message.short

/-- A message as it lies in the ringbuffer. -/
def bytes (message : Message) : List UInt8 :=
  message.hdr.bytes ++ message.data

@[simp] theorem bytes_length (message : Message) :
    message.bytes.length = Hdr.size + message.data.length := by
  simp [bytes]

/-- A sequence of messages as it lies in the ringbuffer. -/
def stream (messages : List Message) : List UInt8 :=
  messages.flatMap bytes

@[simp] theorem stream_nil : stream [] = [] := rfl

@[simp] theorem stream_cons (message : Message) (messages : List Message) :
    stream (message :: messages) = message.bytes ++ stream messages := rfl

@[simp] theorem stream_append (first second : List Message) :
    stream (first ++ second) = stream first ++ stream second := by
  simp [stream]

/-- The first eight bytes of a message are its header. -/
theorem take_hdr (message : Message) (rest : List UInt8) :
    (message.bytes ++ rest).take Hdr.size = message.hdr.bytes := by
  rw [bytes, List.append_assoc]
  exact List.take_left' (Hdr.bytes_length _)

/-- The bytes behind the header are the data. -/
theorem drop_hdr (message : Message) (rest : List UInt8) :
    (message.bytes ++ rest).drop Hdr.size = message.data ++ rest := by
  rw [bytes, List.append_assoc]
  exact List.drop_left' (Hdr.bytes_length _)

/-- The message that data of any length is sent as: its header cannot describe
more than 2^32 - 1 bytes. -/
def ofData (tag : BitVec 32) (data : List UInt8) : Message where
  tag
  data := data.take (data.length % 2 ^ 32)
  short := Nat.lt_of_le_of_lt (List.length_take_le ..) (Nat.mod_lt _ (Nat.two_pow_pos 32))

theorem ofData_hdr (tag : BitVec 32) (data : List UInt8) :
    (ofData tag data).hdr = ⟨tag, BitVec.ofNat 32 data.length⟩ := by
  have le : data.length % 2 ^ 32 ≤ data.length := Nat.mod_le ..
  simp only [hdr, ofData, List.length_take, Nat.min_eq_left le]
  congr 1
  apply BitVec.eq_of_toNat_eq
  simp

/-! ## Reading messages back -/

/-- The messages that lie completely in the given bytes, at most `count` of them. -/
def completeWithin : (count : Nat) → List UInt8 → List Message
  | 0, _ => []
  | count + 1, bytes =>
      let hdr := Hdr.ofBytes (bytes.take Hdr.size)
      if Hdr.size ≤ bytes.length ∧ Hdr.size + hdr.len.toNat ≤ bytes.length then
        ⟨hdr.tag, (bytes.drop Hdr.size).take hdr.len.toNat,
            Nat.lt_of_le_of_lt (List.length_take_le ..) hdr.len.isLt⟩ ::
          completeWithin count (bytes.drop (Hdr.size + hdr.len.toNat))
      else
        []

/-- The messages that lie completely in the given bytes. -/
def complete (bytes : List UInt8) : List Message :=
  completeWithin bytes.length bytes

theorem completeWithin_stream (messages : List Message) {count : Nat}
    (enough : messages.length ≤ count) :
    completeWithin count (stream messages) = messages := by
  induction messages generalizing count with
  | nil => cases count <;> rfl
  | cons message messages ih =>
      cases count with
      | zero => cases enough
      | succ count =>
          have tail := ih (Nat.le_of_succ_le_succ enough)
          simp only [completeWithin, stream_cons, take_hdr,
            Hdr.ofBytes_bytes, hdr_len_toNat,
            drop_hdr, List.take_left', List.length_append, bytes_length, hdr_tag]
          rw [if_pos (by omega), List.drop_left' (bytes_length _), tail]

theorem length_le_stream (messages : List Message) :
    messages.length ≤ (stream messages).length := by
  induction messages with
  | nil => exact Nat.le_refl _
  | cons message messages ih =>
      simp only [stream_cons, List.length_append,
        List.length_cons, bytes_length, Hdr.size]
      omega

/-- What was laid out as a sequence of messages is read back as that sequence. -/
@[simp] theorem complete_stream (messages : List Message) :
    complete (stream messages) = messages :=
  completeWithin_stream messages (length_le_stream messages)

end Message

end LuaJack.Ringbuffer
