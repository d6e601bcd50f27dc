import LuaJack.Ringbuffer.Alone
import LuaJack.Ringbuffer.Delivery
import Mathlib.Data.BitVec

/-!
# What the header of a message cannot carry

The header stores the length of the data in a `uint32_t` and the tag in an
`int32_t`, whereas the callers hand over a `size_t` and a `lua_Integer`.
-/

namespace LuaJack.Ringbuffer

open Atomic

/-! ## What a write appends -/

section

variable (ring : Ring)

/-- Storing into consecutive cells fills them, wherever the segment lies. -/
theorem run_memcpy {cell start : Nat} {bytes : List UInt8}
    (position : ∀ i < bytes.length, cell + i = (start + i) % ring.size) :
    (memcpy cell bytes).run RingOp.exec ring = ((), ring.fill start bytes) := by
  induction bytes generalizing ring cell start with
  | nil => rfl
  | cons byte bytes ih =>
      have first : cell = (start + 0) % ring.size := position 0 (Nat.succ_pos _)
      have others : ∀ i < bytes.length, cell + 1 + i = (start + 1 + i) % ring.size := by
        intro i lt
        have next := position (i + 1) (Nat.succ_lt_succ lt)
        rw [Nat.add_assoc, Nat.add_assoc, Nat.add_comm 1 i, next]
      have tail := ih (ring.store cell byte) others
      rw [memcpy, Program.perform_bind, Program.run_act,
        Circular.fill, ← Nat.add_zero start, ← first]
      exact tail

/-- The data is appended, wherever the array wraps. -/
theorem run_writeData_push {data : List UInt8} {len : Nat} (available : len ≤ data.length)
    (room : len ≤ ring.writeSpace) :
    (writeData data len).run RingOp.exec ring =
      (.written, (ring.push (data.take len)).2) := by
  have covers := ring.writeVector_covers
  have total := covers.total
  have length : (data.take len).length = len := List.length_take_of_le available
  have pushed : (ring.push (data.take len)).2 =
      (ring.fill ring.write (data.take len)).writeAdvance len := by
    simp only [Circular.push, length, Nat.min_eq_left room, List.take_take, Nat.min_self]
  rw [pushed]
  change Program.run RingOp.exec
    (if ring.writeVector.1.len + ring.writeVector.2.len < len then _ else _) ring = _
  rw [if_neg (by omega)]
  split
  next fits =>
    have copied : (memcpy ring.writeVector.1.start (data.take len)).run RingOp.exec ring =
        ((), ring.fill ring.write (data.take len)) := by
      apply run_memcpy
      intro i lt
      exact covers.first i (by omega)
    rw [Program.run_bind, copied]
    rfl
  next wraps =>
    have firstLength : (data.take ring.writeVector.1.len).length =
        ring.writeVector.1.len :=
      List.length_take_of_le (by omega)
    have secondLength : ((data.drop ring.writeVector.1.len).take
        (len - ring.writeVector.1.len)).length = len - ring.writeVector.1.len := by
      rw [List.length_take, List.length_drop]
      omega
    have first : (memcpy ring.writeVector.1.start (data.take ring.writeVector.1.len)).run
        RingOp.exec ring =
          ((), ring.fill ring.write (data.take ring.writeVector.1.len)) := by
      apply run_memcpy
      intro i lt
      exact covers.first i (by omega)
    have second : (memcpy ring.writeVector.2.start
        ((data.drop ring.writeVector.1.len).take (len - ring.writeVector.1.len))).run
          RingOp.exec
        (ring.fill ring.write (data.take ring.writeVector.1.len)) =
        ((), (ring.fill ring.write (data.take ring.writeVector.1.len)).fill
          (ring.write + ring.writeVector.1.len)
          ((data.drop ring.writeVector.1.len).take (len - ring.writeVector.1.len))) := by
      apply run_memcpy
      intro i lt
      rw [Circular.fill_size]
      exact covers.second i (by omega)
    have joined : data.take len = data.take ring.writeVector.1.len ++
        (data.drop ring.writeVector.1.len).take (len - ring.writeVector.1.len) := by
      rw [← List.take_add, Nat.add_sub_cancel' (by omega)]
    rw [Program.run_bind, first, Program.run_bind, second, joined, Circular.fill_append,
      firstLength]
    rfl

/-- A write appends the header and as many bytes as the header announces, or is
refused and changes nothing. -/
theorem run_writeMessage_any {hdr : Hdr} {data : List UInt8}
    (available : hdr.len.toNat ≤ data.length) :
    if ring.writeSpace < Hdr.size + hdr.len.toNat then
      (writeMessage hdr data).run RingOp.exec ring = (.noSpace, ring)
    else
      ∃ after, (writeMessage hdr data).run RingOp.exec ring = (.written, after) ∧
        after.readable = ring.readable ++ hdr.bytes ++ data.take hdr.len.toNat := by
  have run : (writeMessage hdr data).run RingOp.exec ring = Program.run RingOp.exec
    (if ring.writeSpace < Hdr.size + hdr.len.toNat then _ else _) ring := rfl
  rw [run]
  split
  next full => rfl
  next room =>
    have fits : hdr.bytes.length ≤ ring.writeSpace := by
      rw [Hdr.bytes_length]
      omega
    obtain ⟨count, readable, size⟩ := ring.push_of_fits fits
    rw [Hdr.bytes_length] at count
    change ∃ after, Program.run RingOp.exec
      (if (ring.push hdr.bytes).1 ≠ Hdr.size then _ else _)
        (ring.push hdr.bytes).2 = _ ∧ _
    rw [if_neg (not_not_intro count)]
    split
    next isEmpty =>
      refine ⟨_, rfl, ?_⟩
      rw [readable, isEmpty, List.take_zero, List.append_nil]
    next =>
      have rest : hdr.len.toNat ≤ (ring.push hdr.bytes).2.writeSpace := by
        rw [Circular.writeSpace_eq, readable, size, List.length_append,
          Circular.readable_length, Hdr.bytes_length]
        have := ring.readSpace_add_writeSpace
        omega
      have enough : (data.take hdr.len.toNat).length ≤
          (ring.push hdr.bytes).2.writeSpace :=
        Nat.le_trans (List.length_take_le ..) rest
      refine ⟨_, run_writeData_push _ available rest, ?_⟩
      rw [(Circular.push_of_fits _ enough).2.1, readable]

/-- The call stores all of the data behind a header that announces it, or nothing,
depending on the free space alone; and it reports which. -/
structure StoresWhole (tag : BitVec 32) (data : List UInt8)
    (result : WriteOutcome × Ring) :
    Prop where
  succeeds : result.1 = .written ↔ Hdr.size + data.length ≤ ring.writeSpace
  stored : result.1 = .written →
    result.2.readable =
      ring.readable ++ (Hdr.mk tag (BitVec.ofNat 32 data.length)).bytes ++ data
  refused : result.1 ≠ .written → result.2 = ring

/-- The `uint32_t` of the header holds the length, or even what is left of the length
there does not fit. -/
def LengthKept (len : Nat) : Prop :=
  len < 2 ^ 32 ∨ ring.writeSpace < Hdr.size + len % 2 ^ 32

/-- A write that announces the length modulo 2^32. -/
theorem storesWhole_writeMessage (tag : BitVec 32) (data : List UInt8) :
    StoresWhole ring tag data
        ((writeMessage ⟨tag, BitVec.ofNat 32 data.length⟩ data).run RingOp.exec ring) ↔
      LengthKept ring data.length := by
  have narrow : (BitVec.ofNat 32 data.length).toNat = data.length % 2 ^ 32 :=
    BitVec.toNat_ofNat ..
  have available : (BitVec.ofNat 32 data.length).toNat ≤ data.length := by
    rw [narrow]
    exact Nat.mod_le ..
  have run := @run_writeMessage_any ring ⟨tag, BitVec.ofNat 32 data.length⟩ data available
  simp only [narrow] at run
  split at run
  next full =>
    rw [run]
    apply iff_of_true
    · have tooLong : ¬Hdr.size + data.length ≤ ring.writeSpace := by
        have := Nat.mod_le data.length (2 ^ 32)
        omega
      constructor
      · exact ⟨nofun, fun fits => (tooLong fits).elim⟩
      · exact nofun
      · exact fun _ => rfl
    · exact .inr full
  next room =>
    obtain ⟨after, run, readable⟩ := run
    rw [run]
    constructor
    · intro whole
      have stored := whole.stored rfl
      simp only [readable] at stored
      have same := congrArg List.length (List.append_cancel_left stored)
      rw [List.length_take_of_le (Nat.mod_le ..)] at same
      left
      rw [← same]
      exact Nat.mod_lt _ (Nat.two_pow_pos 32)
    · rintro (short | full)
      · rw [Nat.mod_eq_of_lt short] at readable room
        constructor
        · exact iff_of_true rfl (Nat.le_of_not_lt room)
        · intro _
          rw [readable, List.take_length]
        · exact fun refused => (refused rfl).elim
      · exact (room full).elim

theorem ringbufferLuawrite_eq (tag : LuaInteger) (data : Option (List UInt8)) :
    ringbufferLuawrite (some tag) data =
      writeMessage ⟨tag.setWidth 32, BitVec.ofNat 32 (data.getD []).length⟩
        (data.getD []) := by
  cases data with
  | none => rfl
  | some data => rfl

theorem ringbufferCwrite_eq (tag : BitVec 32) (data : Option (List UInt8)) :
    ringbufferCwrite tag data =
      writeMessage ⟨tag, BitVec.ofNat 32 (data.getD []).length⟩ (data.getD []) := by
  cases data with
  | none => rfl
  | some data => rfl

/-- Both writers store all of the data or nothing exactly when the header keeps the
length. -/
theorem storesWhole_iff (luaTag : LuaInteger)
    (tag : BitVec 32) (data : Option (List UInt8)) :
    (StoresWhole ring (luaTag.setWidth 32) (data.getD [])
        ((ringbufferLuawrite (some luaTag) data).run RingOp.exec ring) ↔
      LengthKept ring (data.getD []).length) ∧
    (StoresWhole ring tag (data.getD [])
        ((ringbufferCwrite tag data).run RingOp.exec ring) ↔
      LengthKept ring (data.getD []).length) := by
  constructor
  · rw [ringbufferLuawrite_eq]
    exact storesWhole_writeMessage ring _ _
  · rw [ringbufferCwrite_eq]
    exact storesWhole_writeMessage ring _ _

/-- A string of 2^32 bytes is sent as a message without data. -/
theorem long_not_stored :
    ¬StoresWhole (Circular.create 16 (by decide) 0) ((7 : LuaInteger).setWidth 32)
      (List.replicate (2 ^ 32) 0)
      ((ringbufferLuawrite (some 7) (some (List.replicate (2 ^ 32) 0))).run RingOp.exec
        (Circular.create 16 (by decide) 0)) := by
  rw [ringbufferLuawrite_eq, Option.getD_some,
    storesWhole_writeMessage, List.length_replicate]
  unfold LengthKept
  decide

end

/-! ## Tags -/

/-- The `int32_t` of the header holds the tag. -/
def TagKept (tag : LuaInteger) : Prop := -2 ^ 31 ≤ tag.toInt ∧ tag.toInt < 2 ^ 31

instance (tag : LuaInteger) : Decidable (TagKept tag) :=
  inferInstanceAs (Decidable (_ ∧ _))

/-- Narrowing a tag to the header and widening it again. -/
theorem signExtend_setWidth_iff (tag : LuaInteger) :
    (tag.setWidth 32).signExtend 64 = tag ↔ TagKept tag := by
  rw [← BitVec.toInt_inj, BitVec.toInt_signExtend_of_le (by decide),
    BitVec.toInt_setWidth,
    BitVec.toInt_eq_toNat_bmod, TagKept, BitVec.toInt_eq_toNat_bmod]
  have := tag.isLt
  simp only [Int.bmod_def]
  omega

/-- A message is the first one when as many have been consumed as were sent before it. -/
theorem Mailbox.first_of_consumptions {before between : List Event} {event : Event}
    {message : Message} {start middle last : Mailbox}
    (legal : Mailbox.after [] before = some start)
    (accepted : start.accept event = some middle)
    (sent : event.sent = some message) (later : middle.after between = some last)
    (matching : (consumptions (before ++ between)).length = (written before).length) :
    last = message :: written between := by
  rcases written_eq legal with ⟨received, split, agree⟩
  rcases written_eq later with ⟨consumed, split', agree'⟩
  have appended : middle = start ++ [message] := by
    rcases accept_eq_some accepted with
      ⟨other, isSent, _, rfl⟩ | ⟨_, _, notSent, _⟩ | ⟨notSent, _⟩
    · rw [sent, Option.some.injEq] at isSent
      rw [isSent]
    · rw [sent] at notSent
      cases notSent
    · rw [sent] at notSent
      cases notSent
  have count : (consumptions before).length + (consumptions between).length =
      received.length + start.length := by
    rw [← List.length_append, ← List.length_append, ← split, List.nil_append, ← matching]
    simp only [consumptions, List.filterMap_append]
  have same : start.length = consumed.length := by
    rw [agree.length_eq, agree'.length_eq] at count
    omega
  rw [appended, List.append_assoc] at split'
  exact (List.append_inj_right split' same).symm

/-- In a sequence of events, a write from Lua has succeeded, and this is what the
read or peek from Lua that is due to find its message has returned. -/
def Matched (events : List Event) (tag : LuaInteger) (data : Option (List UInt8))
    (result : Option (LuaInteger × List UInt8)) : Prop :=
  ∃ before between rest short advance,
    events = before ++ .wrote (.luawrite (some tag) data short) .written ::
      (between ++ .luaread advance result :: rest) ∧
    (consumptions (before ++ between)).length = (written before).length

/-- The matching read returns the data, and the tag as the header has it. -/
theorem Matched.result_eq {events : List Event} {mailbox : Mailbox} {tag : LuaInteger}
    {data : Option (List UInt8)} {result : Option (LuaInteger × List UInt8)}
    (legal : Mailbox.after [] events = some mailbox)
    (matched : Matched events tag data result) :
    result = some ((tag.setWidth 32).signExtend 64, data.getD []) := by
  rcases matched with ⟨before, between, rest, short, advance, rfl, matching⟩
  simp only [Mailbox.after_append, Mailbox.after_cons, Option.bind_eq_some_iff] at legal
  rcases legal with ⟨start, first, middle, accepted, last, later, _, read, _⟩
  have isFirst := Mailbox.first_of_consumptions first accepted rfl later matching
  subst isFirst
  cases result with
  | none =>
      rcases Mailbox.vacant_eq_some read with ⟨impossible, _⟩
      cases impossible
  | some result =>
      cases result with
      | mk found content =>
          simp only [Mailbox.accept, Mailbox.take] at read
          split at read
          next seen =>
            simp only [Bool.decide_and, Bool.and_eq_true, decide_eq_true_eq] at seen
            rw [seen.1, seen.2]
          next => cases read

/-- Whatever messages surround it, a message arrives with its data, and with its tag
exactly when the header keeps that. -/
theorem tag_returned_iff {ring : Ring}
    {config : Config Side RingOp RingOp.Answer Event Ring}
    {tag : LuaInteger} {data : Option (List UInt8)}
    {result : Option (LuaInteger × List UInt8)}
    (empty : ring.readable = []) (run : ringbuffer.Reaches ring config)
    (matched : Matched (config.log.map Prod.snd) tag data result) :
    result = some (tag, data.getD []) ↔ TagKept tag := by
  rcases history_of_reaches empty run with ⟨mailbox, legal⟩
  rw [matched.result_eq legal, Option.some.injEq, Prod.mk.injEq, signExtend_setWidth_iff]
  exact and_iff_left rfl

/-- The tag -1 arrives behind another message. -/
theorem tag_returned_iff_negative :
    ∃ config, ringbuffer.Reaches (Circular.create 32 (by decide) 0) config ∧
      Matched (config.log.map Prod.snd) (-1) (some [4, 5]) (some (-1, [4, 5])) ∧
      (some (-1, [4, 5]) = some ((-1 : LuaInteger), ([4, 5] : List UInt8)) ↔
        TagKept (-1)) := by
  have run : ringbuffer.Reaches (Circular.create 32 (by decide) 0) _ :=
    (((Relation.ReflTransGen.refl.trans
      (steps_of_call .writer rfl ⟨.cwrite 7 (some [1, 2, 3]) (by decide), rfl⟩)).trans
      (steps_of_call .writer rfl
        ⟨.luawrite (some (-1)) (some [4, 5]) (by decide), rfl⟩)).trans
      (steps_of_call .reader rfl ⟨.creadAdvance, rfl⟩)).trans
      (steps_of_call .reader rfl ⟨.luaread true, rfl⟩)
  have matched : Matched _ (-1) (some [4, 5]) (some (-1, [4, 5])) :=
    ⟨[.wrote (.cwrite 7 (some [1, 2, 3]) (by decide)) .written], [.advanced true], [],
      by decide, true, rfl, rfl⟩
  exact ⟨_, run, matched, tag_returned_iff rfl run matched⟩

/-- The tag 2^31 is accepted, and arrives as -2^31. -/
theorem tag_altered :
    ∃ config, ringbuffer.Reaches (Circular.create 16 (by decide) 0) config ∧
      Matched (config.log.map Prod.snd) (2 ^ 31) none (some (-2 ^ 31, [])) ∧
      some (-2 ^ 31, []) ≠ some ((2 ^ 31 : LuaInteger), ([] : List UInt8)) := by
  have run : ringbuffer.Reaches (Circular.create 16 (by decide) 0) _ :=
    (Relation.ReflTransGen.refl.trans
      (steps_of_call .writer rfl ⟨.luawrite (some (2 ^ 31)) none (by decide), rfl⟩)).trans
      (steps_of_call .reader rfl ⟨.luaread true, rfl⟩)
  have matched : Matched _ (2 ^ 31) none (some (-2 ^ 31, [])) :=
    ⟨[], [], [], by decide, true, rfl, rfl⟩
  exact ⟨_, run, matched, by decide⟩

end LuaJack.Ringbuffer
