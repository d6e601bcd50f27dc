import LuaJack.Ringbuffer.Phases

/-!
# The writer of a ringbuffer

A message is published in two steps: first its header, then its data.  Every
step keeps the invariant, whatever the reader does in between.
-/

namespace LuaJack.Ringbuffer

open Atomic

section Writer

variable {α : Type} {post : α → WriterPhase → Prop} {phase : WriterPhase}

/-- The writer keeps the invariant. -/
abbrev WriterKeeps (post : α → WriterPhase → Prop) (phase : WriterPhase)
    (program : RingProgram α) : Prop :=
  discipline.Keeps ringbuffer.meaning .writer post phase program

/-- What the writer has to show for a program that begins with an operation. -/
theorem keeps_writer {op : RingOp} {rest : op.Answer → RingProgram α}
    (settled : phase.Settled)
    (step : ∀ reader unread ring log answer, reader.Settled →
      Consistent phase reader unread ring log → answer = (op.exec ring).1 →
      ∃ phase', Consistent phase' reader unread (op.exec ring).2 log ∧
        WriterKeeps post phase' (rest answer)) :
    WriterKeeps post phase (ringOp op >>= rest) := by
  refine ⟨settled, ?_⟩
  intro phases before log answer after turn performed
  rcases turn.holds with ⟨unread, holds⟩
  rw [turn.isGhost] at holds
  have other := turn.others .reader (by decide)
  rcases step _ _ _ _ answer other holds (congrArg Prod.fst performed) with
    ⟨phase', holds', keeps⟩
  rw [← performed] at holds'
  exact ⟨phase', ⟨unread, holds'⟩, keeps⟩

/-- Storing data through the write vector extends the staged part. -/
theorem keeps_memcpy {message : Message} {vec : Segment × Segment} {cell count : Nat}
    {bytes : List UInt8} (source : bytes <+: message.data.drop count)
    (position : ∀ (ring : Ring) total, Circular.Covers ring ring.write total vec →
      ∀ i < bytes.length, cell + i = (ring.write + (count + i)) % ring.size) :
    WriterKeeps (fun _ phase => phase = .staged message vec (count + bytes.length))
      (.staged message vec count) (memcpy cell bytes) := by
  induction bytes generalizing cell count with
  | nil => rfl
  | cons byte bytes ih =>
      rcases source with ⟨rest, source⟩
      have inside : count < message.data.length := by
        have := congrArg List.length source
        simp only [List.length_append, List.length_cons, List.length_drop] at this
        omega
      rw [List.drop_eq_getElem_cons inside, List.cons_append, List.cons.injEq] at source
      rcases source with ⟨rfl, source⟩
      have settled : (WriterPhase.staged message vec count).Settled := trivial
      apply keeps_writer settled
      intro reader unread ring log _ other holds _
      rcases holds.writerKnows with ⟨nonempty, space, _, ⟨total, covers⟩, window⟩
      have bound := Circular.readSpace_add_writeSpace ring
      have cell_eq : cell = (ring.write + count) % ring.size := by
        simpa using position ring total covers 0 (Nat.succ_pos _)
      refine ⟨.staged message vec (count + 1), ?_, ?_⟩
      · show Consistent (.staged message vec (count + 1)) reader unread
          (ring.store cell message.data[count]) log
        apply holds.writerStep other (Circular.store_size ..) (Circular.store_read ..)
        · rw [cell_eq, Circular.readable_store ring _ (by omega)]
          exact holds.bytes
        · refine ⟨nonempty, space, inside,
            ⟨total, covers.total, covers.first, covers.second⟩, ?_⟩
          rw [cell_eq, Circular.store_write,
            Circular.window_store ring _ _ _ (by omega), window]
          exact List.take_append_getElem inside
        · exact List.prefix_refl _
      · rw [List.length_cons, Nat.add_comm bytes.length, ← Nat.add_assoc]
        apply ih ⟨rest, source⟩
        intro ring total covers i lt
        have := position ring total covers (i + 1) (Nat.succ_lt_succ lt)
        rw [Nat.add_assoc, Nat.add_comm 1 i, this, Nat.add_assoc count, Nat.add_comm 1 i]

/-- A write ends with the message published, or without it. -/
def WriteDone (message : Message) (outcome : WriteOutcome) (phase : WriterPhase) : Prop :=
  (outcome = .written ∧ phase = .published message) ∨
  (outcome = .noSpace ∧ ∃ space, phase = .room space)

/-- Once all data is staged, advancing publishes the message. -/
theorem keeps_publish {message : Message} {vec : Segment × Segment} :
    WriterKeeps (WriteDone message) (.staged message vec message.data.length)
      (do ringOp (.writeAdvance message.data.length); return .written) := by
  have settled : (WriterPhase.staged message vec message.data.length).Settled := trivial
  apply keeps_writer settled
  intro reader unread ring log _ other holds _
  rcases holds.writerKnows with ⟨_, space, _, _, window⟩
  refine ⟨.published message, ?_, .inl ⟨rfl, rfl⟩⟩
  show Consistent (.published message) reader unread
      (ring.writeAdvance message.data.length) log
  apply holds.writerStep other (Circular.writeAdvance_size ..)
    (Circular.writeAdvance_read ..)
  · rw [Circular.readable_writeAdvance ring space, window, List.take_length, holds.bytes]
    simp [WriterPhase.inflight, WriterPhase.header, Message.bytes]
  · trivial
  · exact List.prefix_refl _

/-- The data of an opened message is copied and published. -/
theorem keeps_writeData {message : Message} :
    WriterKeeps (WriteDone message) (.opened message)
      (writeData message.data message.data.length) := by
  have settled : (WriterPhase.opened message).Settled := trivial
  apply keeps_writer settled
  intro reader unread ring log vec other holds isVec
  have covers : Circular.Covers ring ring.write ring.writeSpace vec := by
    rw [isVec]
    exact Circular.writeVector_covers ring
  rcases holds.writerKnows with ⟨nonempty, space⟩
  refine ⟨.staged message vec 0, ?_, ?_⟩
  · exact holds.writerLearns other ⟨nonempty, space, Nat.zero_le _, ⟨_, covers⟩, rfl⟩ rfl
      (List.prefix_refl _) rfl
  · have total := covers.total
    clear isVec
    split
    next short => omega
    next enough =>
    split
    next fits =>
      rw [List.take_length]
      apply Discipline.Keeps.bind
      · apply keeps_memcpy
        · exact List.prefix_refl _
        · intro ring total covers i lt
          rw [Nat.zero_add]
          exact covers.first i (Nat.lt_of_lt_of_le lt fits)
      · intro _ _ staged
        rw [staged, Nat.zero_add]
        exact keeps_publish
    next wraps =>
      have taken : (message.data.take vec.1.len).length = vec.1.len := by
        rw [List.length_take]
        omega
      have left : ((message.data.drop vec.1.len).take
          (message.data.length - vec.1.len)).length =
          message.data.length - vec.1.len := by
        rw [List.length_take, List.length_drop, Nat.min_self]
      apply Discipline.Keeps.bind
      · apply keeps_memcpy
        · exact List.take_prefix ..
        · intro ring total covers i lt
          rw [Nat.zero_add]
          exact covers.first i (Nat.lt_of_lt_of_le lt (List.length_take_le ..))
      · intro _ _ staged
        rw [staged, Nat.zero_add, taken]
        apply Discipline.Keeps.bind
        · apply keeps_memcpy
          · exact List.take_prefix ..
          · intro _ _ covers i lt
            rw [left] at lt
            rw [← Nat.add_assoc]
            exact covers.second i (by omega)
        · intro _ _ staged
          rw [staged, left, Nat.add_sub_cancel' (Nat.le_of_not_le wraps)]
          exact keeps_publish

/-- Pushing the header of a message, when there is space for all of it. -/
theorem Consistent.push_hdr {message : Message} {space : Nat} {reader : ReaderPhase}
    {unread : List Message} {ring : Ring} {log : List (Side × Event)}
    (holds : Consistent (.room space) reader unread ring log) (settled : reader.Settled)
    (enough : Hdr.size + message.data.length ≤ space) (phase' : WriterPhase)
    (bytes : Message.stream phase'.inflight ++ phase'.header = message.hdr.bytes)
    (knows : message.data.length ≤ (ring.push message.hdr.bytes).2.writeSpace →
      phase'.Holds (ring.push message.hdr.bytes).2) :
    Consistent phase' reader unread (ring.push message.hdr.bytes).2 log := by
  have free : space ≤ ring.writeSpace := holds.writerKnows
  have fits : message.hdr.bytes.length ≤ ring.writeSpace := by
    rw [Hdr.bytes_length]
    omega
  have pushed := ring.push_of_fits fits
  apply holds.writerStep settled pushed.2.2 (Circular.push_read ..)
  · rw [pushed.2.1, holds.bytes, Message.stream_append, Message.stream_append,
      List.append_assoc, List.append_assoc, List.append_assoc, bytes]
    rfl
  · apply knows
    rw [Circular.writeSpace_eq, pushed.2.2, pushed.2.1,
      List.length_append, Hdr.bytes_length]
    rw [Circular.writeSpace_eq] at free
    omega
  · exact List.nil_prefix

/-- A write of a message publishes it, unless there is not enough space. -/
theorem keeps_writeMessage (message : Message) :
    WriterKeeps (WriteDone message) .idle (writeMessage message.hdr message.data) := by
  have settled : WriterPhase.idle.Settled := trivial
  apply keeps_writer settled
  intro reader unread ring log (space : Nat) other holds isSpace
  refine ⟨.room space, ?_, ?_⟩
  · exact holds.writerLearns other (Nat.le_of_eq isSpace) rfl (List.prefix_refl _) rfl
  · clear isSpace
    rw [Message.hdr_len_toNat]
    split
    next => exact .inr ⟨rfl, space, rfl⟩
    next enough =>
    have settled : (WriterPhase.room space).Settled := trivial
    have enough := Nat.le_of_not_lt enough
    apply keeps_writer settled
    intro reader unread ring log cnt other holds isCnt
    have fits : message.hdr.bytes.length ≤ ring.writeSpace := by
      have free : space ≤ ring.writeSpace := holds.writerKnows
      rw [Hdr.bytes_length]
      omega
    have whole : cnt = Hdr.size := isCnt.trans (ring.push_of_fits fits).1
    cases isEmpty : message.data with
    | nil =>
        refine ⟨.published message, ?_, ?_⟩
        · apply holds.push_hdr other enough
          · simp [WriterPhase.inflight, WriterPhase.header, Message.bytes, isEmpty]
          · intro _
            trivial
        · rw [if_neg (not_not_intro whole)]
          exact .inl ⟨rfl, rfl⟩
    | cons byte bytes =>
        have nonempty : 0 < message.data.length := by
          rw [isEmpty]
          exact Nat.succ_pos _
        refine ⟨.opened message, ?_, ?_⟩
        · apply holds.push_hdr other enough
          · rfl
          · intro space
            exact ⟨nonempty, space⟩
        · rw [if_neg (not_not_intro whole), ← isEmpty, if_neg nonempty.ne']
          exact keeps_writeData

/-- A call of the writer may return in a phase in which it has published exactly
what it reports to have sent. -/
theorem returns_writer {event : Event} (closed : phase.header = [])
    (whole : phase.current = phase.inflight)
    (accepted : ∀ mailbox, Mailbox.accept mailbox event =
      some (mailbox ++ phase.inflight)) :
    discipline.Returns .writer event phase := by
  intro phases ring log turn
  rcases turn.holds with ⟨unread, holds⟩
  rw [turn.isGhost] at holds
  have other := turn.others .reader (by decide)
  exact ⟨_, holds.writerReports other closed whole (accepted unread)⟩

theorem returns_wrote {call : WriterCall} {message : Message} {outcome : WriteOutcome}
    (isMessage : call.message? = some message)
    (written : WriteDone message outcome phase) :
    discipline.Returns .writer (.wrote call outcome) phase := by
  rcases written with ⟨rfl, rfl⟩ | ⟨rfl, space, rfl⟩
  · apply returns_writer rfl rfl
    intro mailbox
    simp [Mailbox.accept, isMessage, WriterPhase.inflight]
  · apply returns_writer rfl rfl
    intro mailbox
    simp [Mailbox.accept, WriterPhase.inflight]

/-- Every call of the writer keeps the invariant. -/
theorem keeps_writerCall (call : WriterCall) :
    WriterKeeps (discipline.Returns .writer) .idle call.program := by
  cases isMessage : call.message? with
  | none =>
      cases call with
      | luawrite tag data short =>
          cases tag with
          | none =>
              apply returns_writer rfl rfl
              intro mailbox
              simp [Mailbox.accept, WriterPhase.inflight]
          | some tag => cases isMessage
      | cwrite tag data short => cases isMessage
  | some message =>
      have keeps : WriterKeeps (WriteDone message) .idle call.write := by
        have := keeps_writeMessage message
        cases call with
        | luawrite tag data short =>
            cases tag with
            | none => cases isMessage
            | some tag =>
                cases isMessage
                cases data <;> exact this
        | cwrite tag data short =>
            cases isMessage
            cases data <;> exact this
      apply Discipline.Keeps.bind keeps
      intro outcome phase written
      exact returns_wrote isMessage written

end Writer

end LuaJack.Ringbuffer
