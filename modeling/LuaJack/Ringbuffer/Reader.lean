import LuaJack.Ringbuffer.Phases

/-!
# The reader of a ringbuffer

A message is looked for in two steps: first its header, then the number of bytes
behind it.  Every step keeps the invariant, whatever the writer does in between.
-/

namespace LuaJack.Ringbuffer

open Atomic

section Reader

variable {α : Type} {post : α → ReaderPhase → Prop} {phase : ReaderPhase}

/-- The reader keeps the invariant. -/
abbrev ReaderKeeps (post : α → ReaderPhase → Prop) (phase : ReaderPhase)
    (program : RingProgram α) : Prop :=
  discipline.Keeps ringbuffer.meaning .reader post phase program

/-- What the reader has to show for a program that begins with an operation. -/
theorem keeps_reader {op : RingOp} {rest : op.Answer → RingProgram α}
    (settled : phase.Settled)
    (step : ∀ writer unread ring log answer, writer.Settled →
      Consistent writer phase unread ring log → answer = (op.exec ring).1 →
      ∃ phase' unread', Consistent writer phase' unread' (op.exec ring).2 log ∧
        ReaderKeeps post phase' (rest answer)) :
    ReaderKeeps post phase (ringOp op >>= rest) := by
  refine ⟨settled, ?_⟩
  intro phases before log answer after turn performed
  rcases turn.holds with ⟨unread, holds⟩
  rw [turn.isGhost] at holds
  have other := turn.others .writer (by decide)
  rcases step _ _ _ _ answer other holds (congrArg Prod.fst performed) with
    ⟨phase', unread', holds', keeps⟩
  rw [← performed] at holds'
  exact ⟨phase', ⟨unread', holds'⟩, keeps⟩

/-! ## Looking for a message -/

/-- The reader has the complete first message before it. -/
def ReaderPhase.Shows (message : Message) (phase : ReaderPhase) : Prop :=
  phase = .found message ∨ ∃ vec, phase = .viewed message vec

/-- Taking the message that the reader has before it. -/
theorem keeps_take {message : Message} {rest : Unit → RingProgram α}
    (shows : phase.Shows message) (keeps : ReaderKeeps post (.took message) (rest ())) :
    ReaderKeeps post phase
      (ringOp (.readAdvance (Hdr.size + message.data.length)) >>= rest) := by
  have settled : phase.Settled := by
    rcases shows with rfl | ⟨vec, rfl⟩ <;> trivial
  apply keeps_reader settled
  intro writer unread ring log _ other holds _
  have first : unread.head? = some message := by
    rcases shows with rfl | ⟨vec, rfl⟩
    · exact holds.readerKnows
    · exact holds.readerKnows.1
  rcases List.head?_eq_some_iff.mp first with ⟨rest', rfl⟩
  exact ⟨.took message, rest', holds.readerTakes settled, keeps⟩

/-- What the reader knows after it has looked at the header of a message. -/
theorem Consistent.header_eq {writer : WriterPhase} {reader : ReaderPhase}
    {unread : List Message} {ring : Ring} {log : List (Side × Event)}
    (holds : Consistent writer reader unread ring log) (settled : writer.Settled) :
    (ring.peek Hdr.size).length ≠ Hdr.size ∧ unread = [] ∨
    ∃ message, (unread ++ writer.current).head? = some message ∧
      ring.peek Hdr.size = message.hdr.bytes := by
  cases unread with
  | cons message rest =>
      right
      refine ⟨message, rfl, ?_⟩
      rw [Circular.peek, holds.readable_eq]
      exact message.take_hdr _
  | nil =>
      rw [Circular.peek, holds.bytes]
      cases writer with
      | published message => exact settled.elim
      | idle | room space =>
          left
          exact ⟨Nat.ne_of_lt (Nat.succ_pos _), rfl⟩
      | opened message | staged message vec count =>
          right
          exact ⟨message, rfl, List.take_of_length_le (Nat.le_of_eq (Hdr.bytes_length _))⟩

/-- The number of bytes in the ringbuffer tells whether the message with a given
header is complete. -/
theorem Consistent.complete_iff {writer : WriterPhase} {reader : ReaderPhase}
    {unread : List Message} {ring : Ring} {log : List (Side × Event)} {message : Message}
    (holds : Consistent writer reader unread ring log) (settled : writer.Settled)
    (first : (unread ++ writer.current).head? = some message) :
    (ring.readSpace < Hdr.size + message.data.length ∧ unread = []) ∨
    (Hdr.size + message.data.length ≤ ring.readSpace ∧ unread.head? = some message) := by
  cases unread with
  | cons message rest =>
      right
      cases first
      exact ⟨holds.le_readSpace, rfl⟩
  | nil =>
      left
      refine ⟨?_, rfl⟩
      rw [← Circular.readable_length, holds.bytes]
      have knows := holds.writerKnows
      cases writer with
      | published message => exact settled.elim
      | idle | room space => cases first
      | opened message | staged message vec count =>
          cases first
          show (message.hdr.bytes).length < _
          rw [Hdr.bytes_length]
          exact Nat.lt_add_of_pos_right knows.1

/-- First look: the ringbuffer is too empty for a header, or here is one. -/
theorem keeps_peek {rest : List UInt8 → RingProgram α}
    (ifNone : ∀ header : List UInt8, header.length ≠ Hdr.size →
      ReaderKeeps post .vacant (rest header))
    (ifSome : ∀ hdr : Hdr, ReaderKeeps post (.peeked hdr) (rest hdr.bytes)) :
    ReaderKeeps post .idle (ringOp (.peek Hdr.size) >>= rest) := by
  have settled : ReaderPhase.idle.Settled := trivial
  apply keeps_reader settled
  intro writer unread ring log header other holds isHeader
  have peeked : header = ring.peek Hdr.size := isHeader
  rcases holds.header_eq other with ⟨short, rfl⟩ | ⟨message, first, whole⟩
  · exact ⟨.vacant, [], holds.readerLearns rfl rfl, ifNone header (peeked ▸ short)⟩
  · refine ⟨.peeked message.hdr, unread, holds.readerLearns ⟨message, first, rfl⟩ rfl, ?_⟩
    rw [peeked, whole]
    exact ifSome message.hdr

/-- Second look: the data behind the header is still missing, or it is there. -/
theorem keeps_readSpace {hdr : Hdr} {rest : Nat → RingProgram α}
    (ifNone : ∀ cnt, cnt < Hdr.size + hdr.len.toNat → ReaderKeeps post .vacant (rest cnt))
    (ifSome : ∀ (message : Message) cnt, message.hdr = hdr →
      Hdr.size + message.data.length ≤ cnt →
        ReaderKeeps post (.found message) (rest cnt)) :
    ReaderKeeps post (.peeked hdr) (ringOp .readSpace >>= rest) := by
  have settled : (ReaderPhase.peeked hdr).Settled := trivial
  apply keeps_reader settled
  intro writer unread ring log cnt other holds isCnt
  have space : cnt = ring.readSpace := isCnt
  rcases holds.readerKnows with ⟨message, first, rfl⟩
  rcases holds.complete_iff other first with ⟨missing, rfl⟩ | ⟨enough, first⟩
  · refine ⟨.vacant, [], holds.readerLearns rfl rfl, ifNone cnt ?_⟩
    rw [space, Message.hdr_len_toNat]
    exact missing
  · refine ⟨.found message, unread, holds.readerLearns first rfl,
      ifSome message cnt rfl ?_⟩
    rw [space]
    exact enough

/-! ## Copying the data -/

/-- The bytes of the first message lie behind the read position. -/
theorem Consistent.cells_eq {writer : WriterPhase} {reader : ReaderPhase}
    {rest : List Message} {ring : Ring} {log : List (Side × Event)} {message : Message}
    (holds : Consistent writer reader (message :: rest) ring log) {offset : Nat}
    (inside : offset < message.data.length) :
    ring.cells ((ring.read + (Hdr.size + offset)) % ring.size) =
      message.data[offset] := by
  have lt : Hdr.size + offset < ring.readSpace :=
    Nat.lt_of_lt_of_le (Nat.add_lt_add_left inside _) holds.le_readSpace
  have loaded := ring.getElem?_readable lt
  have shown : ring.readable[Hdr.size + offset]? = some message.data[offset] := by
    rw [← List.getElem?_drop, holds.readable_eq, Message.drop_hdr,
      List.getElem?_append_left inside, List.getElem?_eq_getElem inside]
  rw [shown, Option.some.injEq] at loaded
  exact loaded.symm

/-- Loading through the read vector gives the data of the message. -/
theorem keeps_pushlstring {message : Message}
    {vec : Segment × Segment} {cell offset len : Nat}
    (inside : offset + len ≤ message.data.length)
    (position : ∀ (ring : Ring) total, Hdr.size + message.data.length ≤ total →
      Circular.Covers ring ring.read total vec →
      ∀ i < len, cell + i = (ring.read + (Hdr.size + (offset + i))) % ring.size) :
    ReaderKeeps (fun bytes phase => bytes = (message.data.drop offset).take len ∧
        phase = .viewed message vec)
      (.viewed message vec) (pushlstring cell len) := by
  induction len generalizing cell offset with
  | zero => exact ⟨rfl, rfl⟩
  | succ len ih =>
      have settled : (ReaderPhase.viewed message vec).Settled := trivial
      have here : offset < message.data.length := by omega
      apply keeps_reader settled
      intro writer unread ring log byte other holds isByte
      refine ⟨.viewed message vec, unread, holds, ?_⟩
      apply Discipline.Keeps.bind
      · apply @ih (cell + 1) (offset + 1) (by omega)
        intro ring total enough covers i lt
        have := position ring total enough covers (i + 1) (Nat.succ_lt_succ lt)
        rw [Nat.add_assoc, Nat.add_assoc, Nat.add_comm 1 i, this]
      · intro bytes phase found
        rcases found with ⟨rfl, rfl⟩
        refine ⟨?_, rfl⟩
        rcases holds.readerKnows with ⟨first, total, enough, covers⟩
        rcases List.head?_eq_some_iff.mp first with ⟨rest, rfl⟩
        have cell_eq := position ring total enough covers 0 (Nat.succ_pos _)
        have loaded : byte = message.data[offset] := by
          rw [← holds.cells_eq here, isByte]
          show ring.cells cell = _
          rw [← Nat.add_zero cell, cell_eq, Nat.add_zero]
        rw [List.drop_eq_getElem_cons here, List.take_succ_cons, loaded]

/-- All the data is copied, however the read vector is split. -/
theorem keeps_readData {message : Message} {vec : Segment × Segment} :
    ReaderKeeps (fun data phase => data = message.data ∧ phase = .viewed message vec)
      (.viewed message vec) (readData vec message.data.length) := by
  have short := message.short
  unfold readData
  split
  next fits =>
    apply Discipline.Keeps.imp
    · apply keeps_pushlstring (Nat.le_of_eq (Nat.zero_add _))
      intro ring total _ covers i lt
      rw [Nat.add_assoc, Nat.zero_add]
      exact covers.first _ (by omega)
    · intro data phase found
      simpa using found
  next beyond =>
    split
    next wide =>
      have narrow : (vec.1.len - Hdr.size) % 2 ^ 32 = vec.1.len - Hdr.size :=
        Nat.mod_eq_of_lt (by omega)
      rw [narrow]
      apply Discipline.Keeps.bind
      · apply @keeps_pushlstring message vec _ 0 _ (by omega)
        intro ring total _ covers i lt
        rw [Nat.add_assoc, Nat.zero_add]
        exact covers.first _ (by omega)
      · intro first phase loaded
        rcases loaded with ⟨rfl, rfl⟩
        apply Discipline.Keeps.bind
        · apply @keeps_pushlstring message vec _ (vec.1.len - Hdr.size) _ (by omega)
          intro ring total enough covers i lt
          have sum := covers.total
          rw [covers.second i (by omega)]
          congr 1
          omega
        · intro second phase loaded
          rcases loaded with ⟨rfl, rfl⟩
          refine ⟨?_, rfl⟩
          rw [List.drop_zero, ← List.length_drop, List.take_length, List.take_append_drop]
    next inHeader =>
      have narrow : (Hdr.size - vec.1.len) % 2 ^ 32 = Hdr.size - vec.1.len := by
        apply Nat.mod_eq_of_lt
        exact Nat.lt_of_le_of_lt (Nat.sub_le ..) (by decide)
      rw [narrow]
      apply Discipline.Keeps.imp
      · apply keeps_pushlstring (Nat.le_of_eq (Nat.zero_add _))
        intro ring total enough covers i lt
        have sum := covers.total
        rw [Nat.add_assoc, covers.second _ (by omega)]
        congr 1
        omega
      · intro data phase found
        simpa using found

/-! ## The calls -/

/-- How a read ends, with a caller's buffer of size `bufsz` or without one. -/
def ReadDone (bufsz : Option Nat) (advance : Bool) (outcome : ReadOutcome)
    (phase : ReaderPhase) : Prop :=
  (outcome = .empty ∧ phase = .vacant) ∨
  (∃ message, bufsz.isSome ∧ outcome = .tooSmall message.data.length ∧
    phase.Shows message) ∨
  (∃ message, outcome = .message message.tag message.data ∧
    if advance then phase = .took message else phase.Shows message)

/-- The end of a read: the message is shown, and consumed if asked for. -/
theorem keeps_finish {message : Message} {bufsz : Option Nat}
    {advance : Bool} {count : Nat}
    (shows : phase.Shows message) (whole : count = Hdr.size + message.data.length) :
    ReaderKeeps (ReadDone bufsz advance) phase
      (if advance then do
        ringOp (.readAdvance count)
        return .message message.tag message.data
      else
        return .message message.tag message.data) := by
  subst whole
  cases advance with
  | true => exact keeps_take shows (.inr (.inr ⟨message, rfl, rfl⟩))
  | false => exact .inr (.inr ⟨message, rfl, shows⟩)

/-- A read shows the first message, or finds that there is none. -/
theorem keeps_readMessage (bufsz : Option Nat) (advance : Bool) :
    ReaderKeeps (ReadDone bufsz advance) .idle (readMessage bufsz advance) := by
  apply keeps_peek
  · intro header short
    rw [if_pos short]
    exact .inl ⟨rfl, rfl⟩
  · intro hdr
    rw [if_neg (not_not_intro (Hdr.bytes_length _)), Hdr.ofBytes_bytes]
    apply keeps_readSpace
    · intro cnt missing
      rw [if_pos missing]
      exact .inl ⟨rfl, rfl⟩
    · rintro message cnt rfl enough
      rw [Message.hdr_len_toNat, if_neg (Nat.not_lt.mpr enough)]
      split
      next small =>
        refine .inr (.inl ⟨message, ?_, rfl, .inl rfl⟩)
        cases bufsz with
        | none => cases small
        | some size => rfl
      next =>
      split
      next isEmpty =>
        have noData : message.data = [] := List.eq_nil_of_length_eq_zero isEmpty
        have finish := @keeps_finish (.found message) message bufsz advance Hdr.size
          (.inl rfl) (by rw [isEmpty, Nat.add_zero])
        rw [noData] at finish
        exact finish
      next =>
      have settled : (ReaderPhase.found message).Settled := trivial
      apply keeps_reader settled
      intro writer unread ring log vec other holds isVec
      have covers : Circular.Covers ring ring.read ring.readSpace vec := by
        rw [isVec]
        exact Circular.readVector_covers ring
      have first : unread.head? = some message := holds.readerKnows
      refine ⟨.viewed message vec, unread, ?_, ?_⟩
      · rcases List.head?_eq_some_iff.mp first with ⟨rest, rfl⟩
        exact holds.readerLearns ⟨rfl, _, holds.le_readSpace, covers⟩ rfl
      · apply Discipline.Keeps.bind keeps_readData
        intro data phase copied
        rcases copied with ⟨rfl, rfl⟩
        exact keeps_finish (.inr ⟨vec, rfl⟩) rfl

/-- The reader skips the first message, or finds that there is none. -/
theorem keeps_advanceMessage :
    ReaderKeeps (fun success phase => if success then ∃ message, phase = .took message
      else phase = .vacant) .idle advanceMessage := by
  apply keeps_peek
  · intro header short
    rw [if_neg short]
    rfl
  · intro hdr
    rw [if_pos (Hdr.bytes_length _), Hdr.ofBytes_bytes]
    apply keeps_readSpace
    · intro cnt missing
      rw [if_neg (Nat.not_le.mpr missing)]
      rfl
    · rintro message cnt rfl enough
      rw [Message.hdr_len_toNat, if_pos enough]
      exact keeps_take (.inl rfl) ⟨message, rfl⟩

/-- A call of the reader may return when what it reports is what a mailbox with
the messages that it knows of reports. -/
theorem returns_reader {event : Event}
    (accepted : ∀ (ring : Ring) complete present, phase.Holds ring complete present →
      Mailbox.accept (phase.taken ++ complete) event = some complete) :
    discipline.Returns .reader event phase := by
  intro phases ring log turn
  rcases turn.holds with ⟨unread, holds⟩
  rw [turn.isGhost] at holds
  exact ⟨_, holds.readerReports (accepted _ _ _ holds.readerKnows)⟩

/-- A call that has found nothing may report that. -/
theorem returns_vacant {event : Event} (isVacant : phase = .vacant)
    (accepted : Mailbox.accept [] event = some []) :
    discipline.Returns .reader event phase := by
  subst isVacant
  apply returns_reader
  intro ring complete present isEmpty
  rw [isEmpty]
  exact accepted

/-- A call that has shown the first message may report what it has seen of it. -/
theorem returns_shown {event : Event} {message : Message} (shows : phase.Shows message)
    (accepted : ∀ rest, Mailbox.accept (message :: rest) event = some (message :: rest)) :
    discipline.Returns .reader event phase := by
  apply returns_reader
  intro ring complete present holds
  have first : complete.head? = some message := by
    rcases shows with rfl | ⟨vec, rfl⟩
    · exact holds
    · exact holds.1
  rcases List.head?_eq_some_iff.mp first with ⟨rest, rfl⟩
  rcases shows with rfl | ⟨vec, rfl⟩ <;> exact accepted rest

/-- A call that has consumed the first message may report that. -/
theorem returns_took {event : Event} {message : Message} (took : phase = .took message)
    (accepted : ∀ rest, Mailbox.accept (message :: rest) event = some rest) :
    discipline.Returns .reader event phase := by
  subst took
  apply returns_reader
  intro ring complete present _
  exact accepted complete

/-- Every call of the reader keeps the invariant. -/
theorem keeps_readerCall (call : ReaderCall) :
    ReaderKeeps (discipline.Returns .reader) .idle call.program := by
  have advancing : ReaderKeeps (discipline.Returns .reader) .idle
      (do return .advanced (← advanceMessage)) := by
    apply Discipline.Keeps.bind keeps_advanceMessage
    intro success phase done
    cases success with
    | true =>
        rcases done with ⟨message, took⟩
        exact returns_took took fun _ => rfl
    | false => exact returns_vacant done rfl
  cases call with
  | luareadAdvance | creadAdvance => exact advancing
  | luaread advance =>
      have keeps : ReaderKeeps
          (fun result => discipline.Returns .reader (.luaread advance result))
          .idle (ringbufferLuaread advance) := by
        apply Discipline.Keeps.bind (keeps_readMessage none advance)
        intro outcome phase done
        rcases done with ⟨rfl, vacant⟩ | ⟨message, absent, _⟩ | ⟨message, rfl, shows⟩
        · exact returns_vacant vacant rfl
        · cases absent
        · cases advance with
          | true =>
              apply returns_took shows
              intro rest
              simp [Mailbox.accept, Mailbox.take]
          | false =>
              apply returns_shown shows
              intro rest
              simp [Mailbox.accept, Mailbox.take]
      exact keeps.bind fun _ _ reported => reported
  | cread bufsz advance =>
      apply Discipline.Keeps.bind (keeps_readMessage (some bufsz) advance)
      intro outcome phase done
      rcases done with ⟨rfl, vacant⟩ | ⟨message, _, rfl, shows⟩ | ⟨message, rfl, shows⟩
      · exact returns_vacant vacant rfl
      · apply returns_shown shows
        intro rest
        simp [Mailbox.accept, Mailbox.take]
      · cases advance with
        | true =>
            apply returns_took shows
            intro rest
            simp [Mailbox.accept, Mailbox.take]
        | false =>
            apply returns_shown shows
            intro rest
            simp [Mailbox.accept, Mailbox.take]

end Reader

end LuaJack.Ringbuffer
