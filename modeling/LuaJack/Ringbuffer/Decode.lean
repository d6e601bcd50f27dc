import LuaJack.Ringbuffer.Alone

/-!
# What the readers find

A ringbuffer may contain bytes that no writer has put there.  Its first message
is what the linear stream of its readable bytes begins with, and this is what
each of the reading functions makes of it, wherever the array wraps.
-/

namespace LuaJack.Ringbuffer

open Atomic

/-! ## The first message of a stream -/

namespace Message

/-- The message with a header, whose data begins the given bytes. -/
def ofHdr (hdr : Hdr) (bytes : List UInt8) : Message where
  tag := hdr.tag
  data := bytes.take hdr.len.toNat
  short := Nat.lt_of_le_of_lt (List.length_take_le ..) hdr.len.isLt

theorem ofHdr_length {hdr : Hdr} {bytes : List UInt8}
    (enough : hdr.len.toNat ≤ bytes.length) :
    (ofHdr hdr bytes).data.length = hdr.len.toNat := List.length_take_of_le enough

/-- The message that a stream of bytes begins with, if all of it is there. -/
def decode (bytes : List UInt8) : Option Message :=
  let hdr := Hdr.ofBytes (bytes.take Hdr.size)
  if Hdr.size ≤ bytes.length ∧ Hdr.size + hdr.len.toNat ≤ bytes.length then
    some (ofHdr hdr (bytes.drop Hdr.size))
  else
    none

/-- What is decoded is where the header says it is. -/
theorem decode_eq_some {bytes : List UInt8} {message : Message}
    (decoded : decode bytes = some message) :
    Hdr.size + message.data.length ≤ bytes.length ∧
      Hdr.ofBytes (bytes.take Hdr.size) = message.hdr ∧
      message.data = (bytes.drop Hdr.size).take message.data.length := by
  simp only [decode] at decoded
  split at decoded
  next whole =>
    cases decoded
    have enough : (Hdr.ofBytes (bytes.take Hdr.size)).len.toNat ≤
        (bytes.drop Hdr.size).length := by
      rw [List.length_drop]
      omega
    have len := ofHdr_length enough
    refine ⟨?_, ?_, ?_⟩
    · rw [len]
      exact whole.2
    · simp only [hdr, len, BitVec.ofNat_toNat, BitVec.setWidth_eq]
      rfl
    · rw [len]
      rfl
  next => cases decoded

end Message

/-! ## Reading through the vector -/

section

variable (ring : Ring)

/-- Loading consecutive cells gives a window, wherever the segment lies in it. -/
theorem run_pushlstring {cell start len : Nat}
    (position : ∀ i < len, cell + i = (start + i) % ring.size) :
    (pushlstring cell len).run RingOp.exec ring = (ring.window start len, ring) := by
  induction len generalizing cell start with
  | zero => rfl
  | succ len ih =>
      have first : cell = (start + 0) % ring.size := position 0 (Nat.succ_pos len)
      have others : ∀ i < len, cell + 1 + i = (start + 1 + i) % ring.size := by
        intro i lt
        have next := position (i + 1) (Nat.succ_lt_succ lt)
        rw [Nat.add_assoc, Nat.add_assoc, Nat.add_comm 1 i, next]
      have head : ring.window start 1 = [ring.cells cell] := by
        rw [first]
        rfl
      have tail : (pushlstring (cell + 1) len).run RingOp.exec
          (RingOp.exec (.load cell) ring).2 =
          (ring.window (start + 1) len, ring) := ih others
      rw [pushlstring, Program.perform_bind, Program.run_act, Program.run_bind, tail,
        Nat.add_comm len 1, ring.window_add, head]
      rfl

/-- The data behind the header is copied in order, wherever the array wraps: behind
the data, inside it, or inside the header. -/
theorem run_readData {vec : Segment × Segment} {total len : Nat} (short : len < 2 ^ 32)
    (enough : Hdr.size + len ≤ total) (covers : ring.Covers ring.read total vec) :
    (readData vec len).run RingOp.exec ring =
      (ring.window (ring.read + Hdr.size) len, ring) := by
  have sum := covers.total
  unfold readData
  split
  next fits =>
    apply run_pushlstring
    intro i lt
    rw [Nat.add_assoc, Nat.add_assoc]
    exact covers.first _ (by omega)
  next beyond =>
    split
    next wide =>
      have narrow : (vec.1.len - Hdr.size) % 2 ^ 32 = vec.1.len - Hdr.size :=
        Nat.mod_eq_of_lt (by omega)
      have first : (pushlstring (vec.1.start + Hdr.size) (vec.1.len - Hdr.size)).run
          RingOp.exec ring =
          (ring.window (ring.read + Hdr.size) (vec.1.len - Hdr.size), ring) := by
        apply run_pushlstring
        intro i lt
        rw [Nat.add_assoc, Nat.add_assoc]
        exact covers.first _ (by omega)
      have second : (pushlstring vec.2.start (len - (vec.1.len - Hdr.size))).run
          RingOp.exec ring =
          (ring.window (ring.read + Hdr.size + (vec.1.len - Hdr.size))
            (len - (vec.1.len - Hdr.size)), ring) := by
        apply run_pushlstring
        intro i lt
        rw [covers.second i (by omega)]
        congr 1
        omega
      have whole : len = vec.1.len - Hdr.size + (len - (vec.1.len - Hdr.size)) := by omega
      rw [narrow, Program.run_bind, first, Program.run_bind, second]
      conv_rhs => rw [whole, ring.window_add]
      rfl
    next inHeader =>
      have narrow : (Hdr.size - vec.1.len) % 2 ^ 32 = Hdr.size - vec.1.len :=
        Nat.mod_eq_of_lt (Nat.lt_of_le_of_lt (Nat.sub_le ..) (by decide))
      rw [narrow]
      apply run_pushlstring
      intro i lt
      rw [Nat.add_assoc, covers.second _ (by omega)]
      congr 1
      omega

/-! ## The first message of a ringbuffer -/

theorem first_eq : ring.first = (Message.decode ring.readable).map (·.data.length) := by
  have header : ring.peek Hdr.size = ring.readable.take Hdr.size := rfl
  have length : (ring.readable.take Hdr.size).length = min Hdr.size ring.readSpace := by
    rw [List.length_take, Circular.readable_length]
  unfold Ring.first Message.decode
  rw [header, length, Circular.readable_length]
  split
  next short =>
    rw [if_neg (by omega)]
    rfl
  next whole =>
    split
    next missing =>
      rw [if_neg (by omega)]
      rfl
    next enough =>
      rw [if_pos (by omega), Option.map_some, Message.ofHdr_length]
      rw [List.length_drop, Circular.readable_length]
      omega

/-- A read of a complete message shows that message, and passes it if asked to. -/
theorem run_readMessage_decoded {bufsz : Option Nat} {advance : Bool} {message : Message}
    (decoded : Message.decode ring.readable = some message)
    (large : ¬bufsz.any (· < message.data.length)) :
    (readMessage bufsz advance).run RingOp.exec ring =
      (.message message.tag message.data,
        if advance then ring.readAdvance (Hdr.size + message.data.length) else ring) := by
  have isFirst : ring.first = some message.data.length := by
    rw [first_eq, decoded]
    rfl
  obtain ⟨whole, enough, len⟩ := first_eq_some isFirst
  obtain ⟨within, isHdr, isData⟩ := Message.decode_eq_some decoded
  have isHdr : Hdr.ofBytes (ring.peek Hdr.size) = message.hdr := isHdr
  rw [Circular.readable_length] at within
  change Program.run RingOp.exec
    (if (ring.peek Hdr.size).length ≠ Hdr.size then _ else _) ring = _
  rw [if_neg whole, isHdr, Message.hdr_len_toNat, Message.hdr_tag]
  change Program.run RingOp.exec
    (if ring.readSpace < Hdr.size + message.data.length then _ else _) ring = _
  rw [if_neg (Nat.not_lt.mpr within), if_neg large]
  split
  next isEmpty =>
    have noData : message.data = [] := List.eq_nil_of_length_eq_zero isEmpty
    rw [noData]
    cases advance with
    | true => rfl
    | false => rfl
  next =>
    have data : ring.window (ring.read + Hdr.size) message.data.length =
        message.data := by
      conv_rhs => rw [isData]
      rw [Circular.readable, Circular.window_drop ring (by omega),
        Circular.window_take ring (by omega)]
    have copied : (readData (RingOp.exec .getReadVector ring).1 message.data.length).run
        RingOp.exec (RingOp.exec .getReadVector ring).2 =
        (ring.window (ring.read + Hdr.size) message.data.length, ring) :=
      run_readData ring message.short within ring.readVector_covers
    rw [ringOp, Program.perform_bind, Program.run_act, Program.run_bind, copied, data]
    cases advance with
    | true => rfl
    | false => rfl

/-- The ringbuffer behind its first message. -/
def Ring.skip : Ring :=
  match Message.decode ring.readable with
  | some message => ring.readAdvance (Hdr.size + message.data.length)
  | none => ring

theorem skip_of_decoded {message : Message}
    (decoded : Message.decode ring.readable = some message) :
    ring.skip = ring.readAdvance (Hdr.size + message.data.length) := by
  rw [Ring.skip, decoded]

theorem skip_of_none (absent : Message.decode ring.readable = none) :
    ring.skip = ring := by
  rw [Ring.skip, absent]

/-- Skipping the first message drops its bytes from the stream. -/
theorem readable_skip :
    ring.skip.readable = ring.readable.drop
      ((Message.decode ring.readable).elim 0 fun message => message.bytes.length) := by
  cases decoded : Message.decode ring.readable with
  | none =>
      rw [skip_of_none ring decoded]
      exact List.drop_zero.symm
  | some message =>
      have within := (Message.decode_eq_some decoded).1
      rw [Circular.readable_length] at within
      rw [skip_of_decoded ring decoded, Circular.readable_readAdvance ring within,
        Option.elim_some, Message.bytes_length]

/-! ## The reading functions -/

/-- The message that a read ends with. -/
def ReadOutcome.ofFound : Option Message → ReadOutcome
  | some found => .message found.tag found.data
  | none => .empty

/-- What `ringbuffer_luaread` returns for a message. -/
def Message.luaResult (message : Message) : LuaInteger × List UInt8 :=
  (message.tag.signExtend 64, message.data)

/-- A read shows the first message, and passes it if asked to. -/
theorem run_readMessage {bufsz : Option Nat} {advance : Bool}
    (large : ∀ message ∈ Message.decode ring.readable,
      ¬bufsz.any (· < message.data.length)) :
    (readMessage bufsz advance).run RingOp.exec ring =
      (.ofFound (Message.decode ring.readable), if advance then ring.skip else ring) := by
  cases decoded : Message.decode ring.readable with
  | none =>
      have absent : ring.first = none := by
        rw [first_eq, decoded]
        rfl
      rw [run_readMessage_none ring absent, skip_of_none ring decoded, ite_self]
      rfl
  | some message =>
      rw [run_readMessage_decoded ring decoded (large message decoded),
        skip_of_decoded ring decoded]
      rfl

/-- A read that the caller's buffer is too small for changes nothing. -/
theorem run_readMessage_refused {bufsz : Nat} {message : Message} (advance : Bool)
    (decoded : Message.decode ring.readable = some message)
    (small : bufsz < message.data.length) :
    (readMessage (some bufsz) advance).run RingOp.exec ring =
      (.tooSmall message.data.length, ring) := by
  have isFirst : ring.first = some message.data.length := by
    rw [first_eq, decoded]
    rfl
  apply run_readMessage_small ring isFirst
  simpa using small

theorem run_ringbufferLuaread (advance : Bool) :
    (ringbufferLuaread advance).run RingOp.exec ring =
      ((Message.decode ring.readable).map Message.luaResult,
        if advance then ring.skip else ring) := by
  have read := @run_readMessage ring none advance fun _ _ => unlimited
  unfold ringbufferLuaread
  rw [Program.run_bind, read]
  cases Message.decode ring.readable with
  | none => rfl
  | some message => rfl

/-- An advance passes the first message without looking at its data. -/
theorem run_advanceMessage :
    advanceMessage.run RingOp.exec ring =
      ((Message.decode ring.readable).isSome, ring.skip) := by
  change Program.run RingOp.exec
    (if (ring.peek Hdr.size).length = Hdr.size then _ else _) ring = _
  have first := first_eq ring
  unfold Ring.first at first
  split
  next whole =>
    rw [if_neg (not_not_intro whole)] at first
    change Program.run RingOp.exec
      (if Hdr.size + (Hdr.ofBytes (ring.peek Hdr.size)).len.toNat ≤ ring.readSpace
        then _ else _) ring = _
    split
    next enough =>
      rw [if_neg (Nat.not_lt.mpr enough), eq_comm, Option.map_eq_some_iff] at first
      rcases first with ⟨message, decoded, len⟩
      rw [skip_of_decoded ring decoded, decoded, len]
      rfl
    next missing =>
      rw [if_pos (Nat.lt_of_not_le missing), eq_comm, Option.map_eq_none_iff] at first
      rw [skip_of_none ring first, first]
      rfl
  next short =>
    rw [if_pos short, eq_comm, Option.map_eq_none_iff] at first
    rw [skip_of_none ring first, first]
    rfl

/-- All ways to read a message find the same one, and end in the same state. -/
structure ReadersAgree (bufsz : Nat) (found : Option Message) (after : Ring) : Prop where
  luaread : (ringbufferLuaread true).run RingOp.exec ring =
    (found.map Message.luaResult, after)
  luareadAdvance :
    (do let result ← ringbufferLuaread false
        let success ← ringbufferLuareadAdvance
        return (result, success)).run RingOp.exec ring =
      ((found.map Message.luaResult, found.isSome), after)
  cread : (∀ message ∈ found, message.data.length ≤ bufsz) →
    (ringbufferCread bufsz true).run RingOp.exec ring = (.ofFound found, after)
  creadAdvance : (∀ message ∈ found, message.data.length ≤ bufsz) →
    (do let result ← ringbufferCread bufsz false
        let success ← ringbufferCreadAdvance
        return (result, success)).run RingOp.exec ring =
      ((.ofFound found, found.isSome), after)
  tooSmall : ∀ message ∈ found, bufsz < message.data.length → ∀ advance,
    (ringbufferCread bufsz advance).run RingOp.exec ring =
      (.tooSmall message.data.length, ring)
  unavailable : found = none → after = ring

/-- Whatever a ringbuffer contains, all readers find the message that the stream of
its readable bytes begins with, and leave the stream behind that message. -/
theorem readers_agree (bufsz : Nat) :
    ReadersAgree ring bufsz (Message.decode ring.readable) ring.skip ∧
      ring.skip.readable = ring.readable.drop
        ((Message.decode ring.readable).elim 0 fun message => message.bytes.length) := by
  have cread : ∀ advance,
      (∀ message ∈ Message.decode ring.readable, message.data.length ≤ bufsz) →
      (ringbufferCread bufsz advance).run RingOp.exec ring =
        (.ofFound (Message.decode ring.readable),
          if advance then ring.skip else ring) := by
    intro advance large
    apply run_readMessage
    intro message decoded
    simpa using large message decoded
  refine ⟨?_, readable_skip ring⟩
  constructor
  · exact run_ringbufferLuaread ring true
  · rw [Program.run_bind, run_ringbufferLuaread, Program.run_bind]
    change (((_, (advanceMessage.run RingOp.exec ring).1),
      (advanceMessage.run RingOp.exec ring).2))
      = _
    rw [run_advanceMessage]
  · exact cread true
  · intro large
    rw [Program.run_bind, cread false large, Program.run_bind]
    change (((_, (advanceMessage.run RingOp.exec ring).1),
      (advanceMessage.run RingOp.exec ring).2))
      = _
    rw [run_advanceMessage]
  · intro message decoded small advance
    exact run_readMessage_refused ring advance decoded small
  · exact skip_of_none ring

end

end LuaJack.Ringbuffer
