import LuaJack.Buffer.Calls
import Mathlib.Algebra.Ring.Int.Defs

/-!
# Positions stay in range

Whatever arguments the script passes to the calls, the position of a port whose buffer has
been retrieved is not behind the end, no sample outside the buffer is accessed, and a call
that raises an error moves no position.
-/

namespace LuaJack.Buffer

open Atomic

variable {Sample Events α β : Type}

/-! ## What is available -/

section Avail

variable {pud : Pud Sample Events} {n : BitVec 32}

theorem avail_toNat (pud : Pud Sample Events) :
    pud.avail.toNat = pud.nframes.toNat - pud.bufp.toNat := by
  unfold Pud.avail
  split
  next inside => exact BitVec.toNat_sub_of_le inside
  next outside =>
    have behind := BitVec.not_le.mp outside
    rw [BitVec.lt_def] at behind
    exact (Nat.sub_eq_zero_of_le (Nat.le_of_lt behind)).symm

/-- A position that is available is inside the buffer. -/
theorem inside_of_lt_avail (less : n.toNat < pud.avail.toNat) :
    (pud.bufp + n).toNat < pud.nframes.toNat := by
  rw [avail_toNat] at less
  have bound := pud.nframes.isLt
  rw [BitVec.toNat_add]
  omega

/-- Advancing by no more than what is available does not leave the buffer. -/
theorem advance_le (le : n.toNat ≤ pud.avail.toNat) (inside : pud.bufp ≤ pud.nframes) :
    pud.bufp + n ≤ pud.nframes := by
  rw [avail_toNat] at le
  rw [BitVec.le_def] at inside ⊢
  have bound := pud.nframes.isLt
  rw [BitVec.toNat_add]
  omega

end Avail

/-! ## What the calls do to a port -/

/-- A call has used a port with a retrieved buffer correctly. -/
structure Moves (before after : Pud Sample Events) : Prop where
  cud : after.cud = before.cud
  type : after.type = before.type
  nframes : after.nframes = before.nframes
  buf : after.buf.isSome = before.buf.isSome
  bufp : before.bufp ≤ before.nframes → after.bufp ≤ after.nframes
  touched : ∀ index ∈ after.touched, index ∈ before.touched ∨
    before.buf.isSome = true ∧ before.type = .audio ∧ index < before.nframes.toNat

namespace Moves

variable {first second third pud : Pud Sample Events}

theorem refl (pud : Pud Sample Events) : Moves pud pud :=
  ⟨rfl, rfl, rfl, rfl, id, fun _ member => .inl member⟩

theorem trans (one : Moves first second) (two : Moves second third) :
    Moves first third where
  cud := two.cud.trans one.cud
  type := two.type.trans one.type
  nframes := two.nframes.trans one.nframes
  buf := two.buf.trans one.buf
  bufp := fun inside => two.bufp (one.bufp inside)
  touched := by
    intro index member
    rcases two.touched index member with member | ⟨isSome, isAudio, less⟩
    · exact one.touched index member
    · right
      rw [← one.buf, ← one.type, ← one.nframes]
      exact ⟨isSome, isAudio, less⟩

/-- Only the position changes. -/
theorem of_bufp {bufp : BitVec 32}
    (inside : pud.bufp ≤ pud.nframes → bufp ≤ pud.nframes) :
    Moves pud { pud with bufp } :=
  ⟨rfl, rfl, rfl, rfl, inside, fun _ member => .inl member⟩

/-- Events are stored. -/
theorem of_events {memory : Memory Sample Events} (retrieved : pud.buf.isSome = true) :
    Moves pud { pud with buf := some memory } :=
  ⟨rfl, rfl, rfl, retrieved.symm, id, fun _ member => .inl member⟩

end Moves

/-- A call uses the port correctly, and moves the position only if it succeeds. -/
structure Moved (pud : Pud Sample Events) (result : Except String α × Pud Sample Events) :
    Prop where
  moves : Moves pud result.2
  fails : ∀ message, result.1 = .error message → result.2.bufp = pud.bufp

section Rules

variable {pud after : Pud Sample Events} {check : PudCall Sample Events α}
variable {rest : α → PudCall Sample Events β}

theorem moved_ok {value : α} (moves : Moves pud after) : Moved pud (.ok value, after) :=
  ⟨moves, fun _ fails => by cases fails⟩

theorem moved_error (message : String) :
    Moved pud ((.error message : Except String α), pud) :=
  ⟨.refl pud, fun _ _ => rfl⟩

/-- A check changes nothing. -/
theorem moved_check (same : (check pud).2 = pud)
    (continues : ∀ value, check pud = (.ok value, pud) → Moved pud (rest value pud)) :
    Moved pud ((check >>= rest) pud) := by
  rcases Fallible.check_cases same with ⟨value, isOk⟩ | ⟨message, fails⟩
  · rw [Fallible.bind_of_ok isOk]
    exact continues value isOk
  · rw [Fallible.bind_of_error fails]
    exact moved_error message

theorem checkBuffer_of_buf {memory : Memory Sample Events}
    (isBuf : pud.buf = some memory) :
    checkBuffer pud = (.ok memory, pud) := by
  simp only [checkBuffer, isBuf]

theorem checkIsInput_of_input (isInput : pud.direction = .input) :
    checkIsInput pud = (.ok (), pud) := by
  rw [checkIsInput, if_pos isInput]

theorem checkIsInput_of_output (isOutput : pud.direction = .output) :
    checkIsInput pud = (.error "operation allowed only on input ports", pud) := by
  rw [checkIsInput, isOutput, if_neg (by decide)]

theorem checkIsOutput_of_input (isInput : pud.direction = .input) :
    checkIsOutput pud = (.error "operation allowed only on output ports", pud) := by
  rw [checkIsOutput, isInput, if_neg (by decide)]

theorem checkIsOutput_of_output (isOutput : pud.direction = .output) :
    checkIsOutput pud = (.ok (), pud) := by
  rw [checkIsOutput, if_pos isOutput]

theorem checkBuffer_ok {memory : Memory Sample Events}
    (isOk : checkBuffer pud = (.ok memory, pud)) :
    pud.buf = some memory := by
  unfold checkBuffer at isOk
  cases isBuf : pud.buf with
  | none =>
      rw [isBuf] at isOk
      cases isOk
  | some found =>
      rw [isBuf] at isOk
      cases isOk
      rfl

theorem moved_checkBuffer {rest : Memory Sample Events → PudCall Sample Events β}
    (continues : ∀ memory, pud.buf = some memory → Moved pud (rest memory pud)) :
    Moved pud ((checkBuffer >>= rest) pud) := by
  apply moved_check
  · unfold checkBuffer
    split <;> rfl
  · exact fun memory isOk => continues memory (checkBuffer_ok isOk)

theorem moved_optInteger {arg : OptInteger} {default : BitVec 32}
    {rest : BitVec 32 → PudCall Sample Events β}
    (continues : ∀ n, Moved pud (rest n pud)) :
    Moved pud ((optInteger arg default >>= rest) pud) :=
  moved_check rfl fun n _ => continues n

end Rules

/-! ## Audio ports -/

/-- Samples inside the buffer are accessed. -/
structure Accesses (before after : Pud Sample Events) : Prop where
  others : ∃ buf touched, after = { before with buf, touched }
  buf : after.buf.isSome = before.buf.isSome
  touched : ∀ index ∈ after.touched, index ∈ before.touched ∨ index < before.nframes.toNat

namespace Accesses

variable {first second third pud : Pud Sample Events}

theorem refl (pud : Pud Sample Events) : Accesses pud pud :=
  ⟨⟨_, _, rfl⟩, rfl, fun _ member => .inl member⟩

theorem nframes (accesses : Accesses first second) : second.nframes = first.nframes := by
  rcases accesses.others with ⟨_, _, rfl⟩
  rfl

theorem trans (one : Accesses first second) (two : Accesses second third) :
    Accesses first third where
  others := by
    rcases one.others with ⟨_, _, rfl⟩
    exact two.others
  buf := two.buf.trans one.buf
  touched := by
    intro index member
    rcases two.touched index member with member | less
    · exact one.touched index member
    · rw [one.nframes] at less
      exact .inr less

theorem of_touched {buf : Option (Memory Sample Events)} {touched : List Nat}
    (isSome : buf.isSome = pud.buf.isSome)
    (within : ∀ index ∈ touched, index < pud.nframes.toNat) :
    Accesses pud { pud with buf, touched := pud.touched ++ touched } where
  others := ⟨_, _, rfl⟩
  buf := isSome
  touched := by
    intro index member
    rcases List.mem_append.mp member with old | isNew
    · exact .inl old
    · exact .inr (within index isNew)

theorem store {index : Nat} (less : index < pud.nframes.toNat) (sample : Sample) :
    Accesses pud (store index sample pud).2 := by
  apply of_touched Option.isSome_map
  intro other member
  rw [List.mem_singleton.mp member]
  exact less

theorem load {index : Nat} (less : index < pud.nframes.toNat)
    (memory : Memory Sample Events) :
    Accesses pud (load memory index pud).2 := by
  apply of_touched rfl
  intro other member
  rw [List.mem_singleton.mp member]
  exact less

theorem fill {first count : Nat} (le : first + count ≤ pud.nframes.toNat)
    (sample : Nat → Sample) :
    Accesses pud (fill first count sample pud).2 := by
  apply of_touched Option.isSome_map
  intro index member
  rw [List.mem_range'_1] at member
  exact Nat.lt_of_lt_of_le member.2 le

/-- After the accesses the position changes. -/
theorem moves (accesses : Accesses first second) (retrieved : first.buf.isSome = true)
    (isAudio : first.type = .audio) {bufp : BitVec 32}
    (inside : first.bufp ≤ first.nframes → bufp ≤ first.nframes) :
    Moves first { second with bufp } := by
  have isSome := accesses.buf
  have touched := accesses.touched
  rcases accesses.others with ⟨_, _, rfl⟩
  exact ⟨rfl, rfl, rfl, isSome, inside, fun index member =>
    (touched index member).imp_right fun less => ⟨retrieved, isAudio, less⟩⟩

end Accesses

section Audio

variable {pud : Pud Sample Events} {bufp space count : BitVec 32}

/-- Whatever the arguments are, `AudioWrite` stores samples only where there is space. -/
theorem writeLoop_ok (args : List (Option Sample)) {n : BitVec 32} (le : n ≤ space)
    (within : ∀ k < space, (bufp + k).toNat < pud.nframes.toNat) :
    ∃ written after, written ≤ space ∧ Accesses pud after ∧
      writeLoop bufp space n args pud = (.ok written, after) := by
  induction args generalizing n pud with
  | nil => exact ⟨n, pud, le, .refl pud, rfl⟩
  | cons arg args ih =>
      cases arg with
      | none => exact ⟨n, pud, le, .refl pud, rfl⟩
      | some sample =>
          rw [writeLoop]
          by_cases less : n < space
          · rw [if_pos less]
            have stores := Accesses.store (within n less) sample
            have next : n + 1 ≤ space := by bv_omega
            have later : ∀ k < space, (bufp + k).toNat <
                (store (bufp + n).toNat sample pud).2.nframes.toNat := within
            rcases ih next later with ⟨written, after, isLess, accesses, isAfter⟩
            exact ⟨written, after, isLess, stores.trans accesses, isAfter⟩
          · rw [if_neg less]
            exact ⟨n, pud, le, .refl pud, rfl⟩

/-- `AudioRead` loads samples only from where there are some. -/
theorem readLoop_ok (memory : Memory Sample Events) {remaining : Nat} {n : BitVec 32}
    (sum : n.toNat + remaining = count.toNat)
    (within : ∀ k < count, (bufp + k).toNat < pud.nframes.toNat) :
    ∃ samples after, Accesses pud after ∧
      readLoop memory bufp remaining n pud = (.ok samples, after) := by
  induction remaining generalizing n pud with
  | zero => exact ⟨[], pud, .refl pud, rfl⟩
  | succ remaining ih =>
      have less : n < count := by
        rw [BitVec.lt_def]
        omega
      have next : (n + 1).toNat + remaining = count.toNat := by bv_omega
      have loads := Accesses.load (within n less) memory
      have later : ∀ k < count, (bufp + k).toNat <
          (load memory (bufp + n).toNat pud).2.nframes.toNat := within
      rcases ih next later with ⟨samples, after, accesses, isAfter⟩
      refine ⟨memory.samples (bufp + n).toNat :: samples, after, loads.trans accesses, ?_⟩
      have loaded : load memory (bufp + n).toNat pud =
          (.ok (memory.samples (bufp + n).toNat),
            (load memory (bufp + n).toNat pud).2) := rfl
      rw [readLoop, Fallible.bind_of_ok loaded, Fallible.bind_of_ok isAfter]
      rfl

/-- The smaller of two numbers, however they are compared. -/
theorem ite_le {n limit : BitVec 32} {condition : Prop} [Decidable condition]
    (le : condition → n ≤ limit) : (if condition then n else limit) ≤ limit := by
  split
  next holds => exact le holds
  next => exact BitVec.le_refl limit

variable (isAudio : pud.type = .audio)
include isAudio

/-- Samples have been accessed, and the position is advanced. -/
theorem moved_advance {after : Pud Sample Events} (accesses : Accesses pud after)
    (retrieved : pud.buf.isSome = true) {n : BitVec 32} (le : n ≤ pud.avail)
    (values : List (Value Sample)) :
    Moved pud ((do advance n; return values : PudCall Sample Events _) after) := by
  have moves := accesses.moves retrieved isAudio (advance_le le)
  rcases accesses.others with ⟨_, _, rfl⟩
  exact moved_ok moves

theorem moved_audioWrite (args : List (Option Sample)) :
    Moved pud (audioWrite args pud) := by
  apply moved_checkBuffer
  intro memory isBuf
  have retrieved : pud.buf.isSome = true := by rw [isBuf]; rfl
  apply moved_check rfl
  intro _ _
  rw [Fallible.asks_bind]
  have zero : (0 : BitVec 32) ≤ pud.avail := Nat.zero_le _
  rcases writeLoop_ok args zero fun k less => inside_of_lt_avail less with
    ⟨written, after, le, accesses, isAfter⟩
  simp only [id]
  rw [Fallible.bind_of_ok isAfter]
  exact moved_advance isAudio accesses retrieved le _

theorem moved_audioClear [Zero Sample] (arg : OptInteger) :
    Moved pud (audioClear arg pud) := by
  apply moved_checkBuffer
  intro memory isBuf
  have retrieved : pud.buf.isSome = true := by rw [isBuf]; rfl
  apply moved_check rfl
  intro _ _
  rw [Fallible.asks_bind]
  apply moved_optInteger
  intro n
  simp only [id]
  have le : (if n < pud.avail then n else pud.avail) ≤ pud.avail := ite_le BitVec.le_of_lt
  generalize (if n < pud.avail then n else pud.avail) = count at le
  by_cases positive : 0 < count
  · rw [if_pos positive]
    have inside : pud.bufp.toNat + count.toNat ≤ pud.nframes.toNat := by
      rw [BitVec.le_def, avail_toNat] at le
      rw [BitVec.lt_def] at positive
      have isPositive : 0 < count.toNat := positive
      omega
    exact moved_advance isAudio (.fill inside fun _ => 0) retrieved le _
  · rw [if_neg positive]
    exact moved_advance isAudio (.refl pud) retrieved le _

theorem moved_audioRead (arg : OptInteger) (checkstack : BitVec 32 → Bool) :
    Moved pud (audioRead arg checkstack pud) := by
  apply moved_optInteger
  intro n
  apply moved_checkBuffer
  intro memory isBuf
  have retrieved : pud.buf.isSome = true := by rw [isBuf]; rfl
  apply moved_check rfl
  intro _ _
  rw [Fallible.asks_bind]
  simp only [id]
  by_cases atEnd : pud.avail = 0
  · rw [if_pos atEnd]
    exact moved_ok (.refl pud)
  · rw [if_neg atEnd]
    have le : (if n ≤ pud.avail then n else pud.avail) ≤ pud.avail := ite_le id
    generalize (if n ≤ pud.avail then n else pud.avail) = count at le
    cases checkstack count with
    | false => exact moved_error _
    | true =>
        rw [if_pos rfl]
        have within (k : BitVec 32) (less : k < count) :
            (pud.bufp + k).toNat < pud.nframes.toNat :=
          inside_of_lt_avail (Nat.lt_of_lt_of_le less le)
        have sum : (0 : BitVec 32).toNat + count.toNat = count.toNat := Nat.zero_add _
        rcases readLoop_ok memory sum within with
          ⟨samples, after, accesses, isAfter⟩
        rw [Fallible.bind_of_ok isAfter]
        exact moved_advance isAudio accesses retrieved le _

omit isAudio in
theorem moved_audioSeek (arg : Option LuaInteger) : Moved pud (audioSeek arg pud) := by
  apply moved_checkBuffer
  intro memory isBuf
  rw [Fallible.asks_bind]
  cases arg with
  | none => exact moved_ok (.refl pud)
  | some pos =>
      simp only [id]
      by_cases outside : pud.nframes.setWidth 64 < pos
      · rw [if_pos outside]
        exact moved_error _
      · rw [if_neg outside]
        have inside : pos.setWidth 32 ≤ pud.nframes := by bv_omega
        exact moved_ok (.of_bufp fun _ => inside)

end Audio

/-! ## MIDI ports -/

section Midi

variable {pud : Pud Sample Events} (midi : MidiApi Events)

theorem moved_midiWrite (time : CheckInteger) (data : Except String (List UInt8)) :
    Moved pud (midiWrite midi time data pud) := by
  apply moved_checkBuffer
  intro memory isBuf
  have retrieved : pud.buf.isSome = true := by rw [isBuf]; rfl
  apply moved_check rfl
  intro _ _
  cases time with
  | error message => exact moved_error message
  | ok time =>
      cases data with
      | error message => exact moved_error message
      | ok data =>
          simp only
          split
          · exact moved_error _
          · split
            · exact moved_ok (.refl pud)
            · cases midi.eventReserve memory.events (time.setWidth 32) data.length with
              | none => exact moved_ok (.refl pud)
              | some reserved => exact moved_ok (.of_events retrieved)

theorem moved_midiRead (arg : OptInteger) : Moved pud (midiRead midi arg pud) := by
  apply moved_checkBuffer
  intro memory isBuf
  apply moved_check rfl
  intro _ _
  rw [Fallible.asks_bind]
  apply moved_optInteger
  intro index
  simp only [id]
  by_cases atEnd : pud.avail = 0
  · rw [if_pos atEnd]
    exact moved_ok (.refl pud)
  · rw [if_neg atEnd]
    have le : (1 : BitVec 32).toNat ≤ pud.avail.toNat := by bv_omega
    have moves : Moves pud { pud with bufp := pud.bufp + 1 } := .of_bufp (advance_le le)
    cases midi.eventGet memory.events index with
    | none => exact moved_ok moves
    | some event => exact moved_ok moves

theorem moved_midiSeek (arg : Option LuaInteger) :
    Moved pud (midiSeek arg pud) := by
  apply moved_checkBuffer
  intro memory isBuf
  apply moved_check rfl
  intro _ _
  rw [Fallible.asks_bind]
  cases arg.map (BitVec.setWidth 32) with
  | none => exact moved_ok (.refl pud)
  | some index =>
      simp only [id]
      by_cases outside : pud.nframes < index
      · rw [if_pos outside]
        exact moved_error _
      · rw [if_neg outside]
        exact moved_ok (.of_bufp fun _ => BitVec.not_lt.mp outside)

end Midi

/-! ## Copies -/

/-- What the checks of a copy have found out when they succeed. -/
structure Pair.Checked (type : PortType) (memory srcmemory : Memory Sample Events)
    (pair : Pair Sample Events) : Prop where
  srctype : pair.srcpud.type = type
  srcdirection : pair.srcpud.direction = .input
  direction : pair.pud.direction = .output
  buf : pair.pud.buf = some memory
  srcbuf : pair.srcpud.buf = some srcmemory

theorem checkPorts_of_checked {type : PortType} {memory srcmemory : Memory Sample Events}
    {pair : Pair Sample Events} (checked : pair.Checked type memory srcmemory) :
    checkPorts type pair = (.ok (memory, srcmemory), pair) := by
  have isOk : onPud checkBuffer pair = (.ok memory, pair) := by
    rw [onPud, checkBuffer_of_buf checked.buf]
  have isSrcOk : onSrcpud checkBuffer pair = (.ok srcmemory, pair) := by
    rw [onSrcpud, checkBuffer_of_buf checked.srcbuf]
  unfold checkPorts
  rw [Fallible.asks_bind]
  simp only [id]
  rw [if_neg (not_not.mpr checked.srctype), if_neg (not_not.mpr checked.srcdirection),
    if_neg (not_not.mpr checked.direction), Fallible.bind_of_ok isOk,
    Fallible.bind_of_ok isSrcOk]
  rfl

/-- The checks of a copy either fail, and change nothing, or they succeed. -/
theorem checkPorts_cases (type : PortType) (pair : Pair Sample Events) :
    (∃ message, checkPorts type pair = (.error message, pair)) ∨
      ∃ memory srcmemory, pair.Checked type memory srcmemory := by
  unfold checkPorts
  rw [Fallible.asks_bind]
  simp only [id]
  by_cases srctype : pair.srcpud.type = type
  · rw [if_neg (not_not.mpr srctype)]
    by_cases srcdirection : pair.srcpud.direction = .input
    · rw [if_neg (not_not.mpr srcdirection)]
      by_cases direction : pair.pud.direction = .output
      · rw [if_neg (not_not.mpr direction)]
        cases buf : pair.pud.buf with
        | none =>
            have fails : onPud checkBuffer pair =
                (.error "missing get_buffer() call?", pair) := by
              simp only [onPud, checkBuffer, buf]
            rw [Fallible.bind_of_error fails]
            exact .inl ⟨_, rfl⟩
        | some memory =>
            cases srcbuf : pair.srcpud.buf with
            | some srcmemory =>
                exact .inr ⟨memory, srcmemory, srctype, srcdirection,
                  direction, buf, srcbuf⟩
            | none =>
                have isOk : onPud checkBuffer pair = (.ok memory, pair) := by
                  rw [onPud, checkBuffer_of_buf buf]
                have fails : onSrcpud checkBuffer pair =
                    (.error "missing get_buffer() call?", pair) := by
                  simp only [onSrcpud, checkBuffer, srcbuf]
                rw [Fallible.bind_of_ok isOk, Fallible.bind_of_error fails]
                exact .inl ⟨_, rfl⟩
      · rw [if_pos direction]
        exact .inl ⟨_, rfl⟩
    · rw [if_pos srcdirection]
      exact .inl ⟨_, rfl⟩
  · rw [if_pos srctype]
    exact .inl ⟨_, rfl⟩

/-- A call uses two ports correctly, and moves the positions only if it succeeds. -/
structure PairMoved (pair : Pair Sample Events)
    (result : Except String α × Pair Sample Events) :
    Prop where
  pud : Moves pair.pud result.2.pud
  srcpud : Moves pair.srcpud result.2.srcpud
  fails : ∀ message, result.1 = .error message →
    result.2.pud.bufp = pair.pud.bufp ∧ result.2.srcpud.bufp = pair.srcpud.bufp

section Copies

variable {pair after : Pair Sample Events}

theorem pairMoved_ok {value : α} (pud : Moves pair.pud after.pud)
    (srcpud : Moves pair.srcpud after.srcpud) : PairMoved pair (.ok value, after) :=
  ⟨pud, srcpud, fun _ fails => by cases fails⟩

theorem pairMoved_error (message : String) :
    PairMoved pair ((.error message : Except String α), pair) :=
  ⟨.refl _, .refl _, fun _ _ => ⟨rfl, rfl⟩⟩

/-- What the checks of a copy establish. -/
theorem pairMoved_checkPorts {type : PortType}
    {rest : Memory Sample Events × Memory Sample Events → PairCall Sample Events α}
    (continues : ∀ memory srcmemory, pair.Checked type memory srcmemory →
      PairMoved pair (rest (memory, srcmemory) pair)) :
    PairMoved pair ((checkPorts type >>= rest) pair) := by
  rcases checkPorts_cases type pair with ⟨message, fails⟩ | ⟨memory, srcmemory, checked⟩
  · rw [Fallible.bind_of_error fails]
    exact pairMoved_error message
  · rw [Fallible.bind_of_ok (checkPorts_of_checked checked)]
    exact continues memory srcmemory checked

theorem pairMoved_optInteger {arg : OptInteger} {default : BitVec 32}
    {rest : BitVec 32 → PairCall Sample Events α}
    (continues : ∀ n, PairMoved pair (rest n pair)) :
    PairMoved pair ((optInteger arg default >>= rest) pair) := by
  cases arg with
  | error message => exact pairMoved_error message
  | ok value => exact continues _

/-- A copy accesses samples at the start of both buffers, which reach as far as the
positions could be advanced. -/
theorem pairMoved_audioCopy (arg : OptInteger) (isAudio : pair.pud.type = .audio) :
    PairMoved pair (audioCopy arg pair) := by
  apply pairMoved_checkPorts
  intro memory srcmemory checked
  have retrieved : pair.pud.buf.isSome = true := by
    rw [checked.buf]
    rfl
  have srcRetrieved : pair.srcpud.buf.isSome = true := by
    rw [checked.srcbuf]
    rfl
  simp only [Fallible.asks_bind, id]
  split
  · exact pairMoved_ok (.refl _) (.refl _)
  · generalize isMax : (if pair.pud.avail < pair.srcpud.avail then pair.pud.avail
      else pair.srcpud.avail) = countmax
    apply pairMoved_optInteger
    intro n
    generalize isCount : (if countmax < n then countmax else n) = count
    have le : count.toNat ≤ pair.pud.avail.toNat ∧
        count.toNat ≤ pair.srcpud.avail.toNat := by
      rw [← isCount, ← isMax]
      simp only [BitVec.lt_def]
      split <;> split <;> omega
    have fits := avail_toNat pair.pud
    have srcFits := avail_toNat pair.srcpud
    by_cases positive : 0 < count
    · rw [if_pos positive]
      have accesses : Accesses pair.pud
          (fill 0 count.toNat srcmemory.samples pair.pud).2 :=
        .fill (by omega) _
      have srcAccesses : Accesses pair.srcpud
          (fill 0 count.toNat srcmemory.samples pair.srcpud).2 :=
        .fill (by omega) _
      exact pairMoved_ok (accesses.moves retrieved isAudio (advance_le le.1))
        (srcAccesses.moves srcRetrieved checked.srctype (advance_le le.2))
    · rw [if_neg positive]
      exact pairMoved_ok (.refl _) (.refl _)

/-- The loop of `MidiCopy` moves the position of the source no farther than there are
events. -/
theorem copyLoop_ok (midi : MidiApi Events)
    (srcevents : Events) {remaining : Nat} {i : BitVec 32}
    {memory : Memory Sample Events} (retrieved : pair.pud.buf.isSome = true)
    (le : remaining ≤ pair.srcpud.avail.toNat) :
    ∃ copied after, Moves pair.pud after.pud ∧ Moves pair.srcpud after.srcpud ∧
      copyLoop midi srcevents remaining i memory pair = (.ok copied, after) := by
  induction remaining generalizing i memory pair with
  | zero => exact ⟨i, pair, .refl _, .refl _, rfl⟩
  | succ remaining ih =>
      rw [copyLoop, Fallible.asks_bind]
      simp only [id]
      cases midi.eventGet srcevents pair.srcpud.bufp with
      | none => exact ⟨i, pair, .refl _, .refl _, rfl⟩
      | some event =>
          simp only
          cases midi.eventWrite memory.events event with
          | none => exact ⟨i, pair, .refl _, .refl _, rfl⟩
          | some events =>
              have fits := avail_toNat pair.srcpud
              have one : (1 : BitVec 32).toNat = 1 := rfl
              have advanced : Moves pair.srcpud (advance 1 pair.srcpud).2 :=
                .of_bufp (advance_le (by omega))
              have later : remaining ≤ (advance 1 pair.srcpud).2.avail.toNat := by
                rw [avail_toNat]
                show remaining ≤ pair.srcpud.nframes.toNat - (pair.srcpud.bufp + 1).toNat
                rw [BitVec.toNat_add]
                omega
              have stored : Moves pair.pud
                  (setMemory { memory with events } pair.pud).2 :=
                .of_events retrieved
              have continues := @ih ⟨(setMemory { memory with events } pair.pud).2,
                (advance 1 pair.srcpud).2⟩ (i + 1) { memory with events } rfl later
              rcases continues with ⟨copied, after, moves, srcMoves, isAfter⟩
              exact ⟨copied, after, stored.trans moves, advanced.trans srcMoves, isAfter⟩

theorem pairMoved_midiCopy (midi : MidiApi Events) (arg : OptInteger) :
    PairMoved pair (midiCopy midi arg pair) := by
  apply pairMoved_checkPorts
  intro memory srcmemory checked
  have retrieved : pair.pud.buf.isSome = true := by
    rw [checked.buf]
    rfl
  simp only [Fallible.asks_bind, id]
  split
  · exact pairMoved_ok (.refl _) (.refl _)
  · apply pairMoved_optInteger
    intro n
    have le : (if pair.srcpud.avail < n then pair.srcpud.avail else n).toNat ≤
        pair.srcpud.avail.toNat := by
      split
      next => exact Nat.le_refl _
      next notLess => exact BitVec.not_lt.mp notLess
    rcases copyLoop_ok midi srcmemory.events retrieved le with
      ⟨copied, after, moves, srcMoves, isAfter⟩
    rw [Fallible.bind_of_ok isAfter]
    exact pairMoved_ok moves srcMoves

end Copies

/-! ## All ports -/

/-- What holds of a port of a client. The positions of a port whose buffer has not been
retrieved mean nothing. -/
structure Pud.Sound (cud : Cud) (pud : Pud Sample Events) : Prop where
  idle : pud.buf = none → pud.touched = []
  inside : pud.buf.isSome = true → cud.processCallback = true
  bufp : pud.buf.isSome = true → pud.bufp ≤ pud.nframes
  nframes : pud.buf.isSome = true → pud.type = .audio → pud.nframes = cud.nframes
  touched : ∀ index ∈ pud.touched, index < cud.nframes.toNat

/-- What holds of all ports. -/
def State.Sound (state : State Sample Events) : Prop :=
  ∀ key pud, state.puds key = some pud → pud.Sound (state.cuds pud.cud)

/-- A call leaves a port of a client in order, and moves the position only if it
succeeds. -/
structure Kept (cud : Cud) (pud : Pud Sample Events)
    (result : Except String α × Pud Sample Events) : Prop where
  owner : result.2.cud = pud.cud
  sound : result.2.Sound cud
  fails : ∀ message, result.1 = .error message → result.2.bufp = pud.bufp

section Port

variable {cud : Cud} {pud after : Pud Sample Events}

/-- A port whose buffer has not been retrieved. -/
theorem Pud.Sound.of_idle (isNone : pud.buf = none) (untouched : pud.touched = []) :
    pud.Sound cud where
  idle := fun _ => untouched
  inside := by
    intro isSome
    rw [isNone] at isSome
    cases isSome
  bufp := by
    intro isSome
    rw [isNone] at isSome
    cases isSome
  nframes := by
    intro isSome
    rw [isNone] at isSome
    cases isSome
  touched := by
    intro index member
    rw [untouched] at member
    cases member

theorem Pud.Sound.moves (sound : pud.Sound cud) (moves : Moves pud after) :
    after.Sound cud where
  idle := by
    intro isNone
    apply List.eq_nil_iff_forall_not_mem.mpr
    intro index member
    have wasNone : pud.buf = none := by
      rw [← Option.not_isSome_iff_eq_none, ← moves.buf, isNone]
      exact Bool.false_ne_true
    rcases moves.touched index member with old | ⟨isSome, _, _⟩
    · rw [sound.idle wasNone] at old
      cases old
    · rw [wasNone] at isSome
      cases isSome
  inside := fun isSome => sound.inside (moves.buf ▸ isSome)
  bufp := fun isSome => moves.bufp (sound.bufp (moves.buf ▸ isSome))
  nframes := by
    intro isSome isAudio
    rw [moves.nframes]
    exact sound.nframes (moves.buf ▸ isSome) (moves.type ▸ isAudio)
  touched := by
    intro index member
    rcases moves.touched index member with old | ⟨isSome, isAudio, less⟩
    · exact sound.touched index old
    · rw [sound.nframes isSome isAudio] at less
      exact less

theorem kept_of_moved {result : Except String α × Pud Sample Events}
    (sound : pud.Sound cud) (moved : Moved pud result) : Kept cud pud result :=
  ⟨moved.moves.cud, sound.moves moved.moves, moved.fails⟩

/-- A port whose buffer has just been retrieved is at its start. -/
theorem Pud.Sound.of_start {memory : Memory Sample Events} (untouched : pud.touched = [])
    (inside : cud.processCallback = true) {nframes : BitVec 32}
    (isFrames : pud.type = .audio → nframes = cud.nframes) :
    Pud.Sound cud { pud with nframes, buf := some memory, bufp := 0 } where
  idle := fun isNone => by cases isNone
  inside := fun _ => inside
  bufp := fun _ => Nat.zero_le _
  nframes := fun _ => isFrames
  touched := by
    intro index member
    rw [untouched] at member
    cases member

theorem kept_getBuffer (midi : MidiApi Events) (buf : Option (Memory Sample Events))
    (sound : pud.Sound cud) (inside : cud.processCallback = true) :
    Kept cud pud (getBuffer midi cud.nframes buf pud) := by
  cases isBuf : pud.buf with
  | some memory =>
      have fails : getBuffer midi cud.nframes buf pud =
          (.error "buffer already retrieved", pud) := by
        unfold getBuffer
        rw [Fallible.asks_bind, isBuf]
        rfl
      rw [fails]
      exact ⟨rfl, sound, fun _ _ => rfl⟩
  | none =>
      have untouched := sound.idle isBuf
      rcases pud with ⟨valid, owner, type, direction, _, nframes, bufp, touched⟩
      cases isBuf
      cases buf with
      | none => exact ⟨rfl, .of_idle rfl untouched, fun _ _ => rfl⟩
      | some memory =>
          cases type with
          | audio =>
              exact ⟨rfl, .of_start untouched inside fun _ =>
                rfl, fun _ fails => by cases fails⟩
          | midi =>
              have notAudio {nframes : BitVec 32} (isAudio : PortType.midi = .audio) :
                  nframes = cud.nframes := by cases isAudio
              cases direction with
              | input =>
                  exact ⟨rfl, .of_start untouched inside notAudio,
                    fun _ fails => by cases fails⟩
              | output =>
                  exact ⟨rfl, .of_start untouched inside notAudio,
                    fun _ fails => by cases fails⟩

end Port

/-! ## Calls -/

/-- A call leaves all ports in order, and moves positions only if it succeeds. -/
structure Safe (state : State Sample Events)
    (result : Except String α × State Sample Events) :
    Prop where
  sound : result.2.Sound
  fails : ∀ message, result.1 = .error message →
    ∀ key, (result.2.puds key).map Pud.bufp = (state.puds key).map Pud.bufp

section Calls

variable {state : State Sample Events} {key srckey : Addr}
  {pud srcpud : Pud Sample Events}

theorem safe_error (sound : state.Sound) (message : String) :
    Safe state ((.error message : Except String α), state) :=
  ⟨sound, fun _ _ _ => rfl⟩

theorem pudCheck_ok (found : state.puds key = some pud) (isValid : pud.valid = true) :
    pudCheck (.ok key) state = (.ok (key, pud), state) := by
  simp only [pudCheck, found, isValid]
  rfl

theorem pudCheck_closed (found : state.puds key = some pud)
    (isClosed : pud.valid = false) :
    pudCheck (.ok key) state = (.error "invalid port reference", state) := by
  simp only [pudCheck, found, isClosed]
  rfl

theorem checkProcess_inside (inside : (state.cuds pud.cud).processCallback = true) :
    checkProcess pud state = (.ok (state.cuds pud.cud).nframes, state) := by
  simp only [checkProcess, inside]
  rfl

theorem checkProcess_outside (isOutside : (state.cuds pud.cud).processCallback = false) :
    checkProcess pud state =
      (.error "function available only in process callback", state) := by
  simp only [checkProcess, isOutside]
  rfl

/-- A reference is that of a valid port, or it is an error. -/
theorem pudCheck_cases (arg : CheckInteger) (state : State Sample Events) :
    (∃ message, pudCheck arg state = (.error message, state)) ∨
      ∃ key pud, state.puds key = some pud ∧
        pudCheck arg state = (.ok (key, pud), state) := by
  cases arg with
  | error message => exact .inl ⟨message, rfl⟩
  | ok key =>
      cases found : state.puds key with
      | none =>
          left
          refine ⟨"invalid port reference", ?_⟩
          simp only [pudCheck, found]
      | some pud =>
          cases isValid : pud.valid with
          | false => exact .inl ⟨_, pudCheck_closed found isValid⟩
          | true => exact .inr ⟨key, pud, found, pudCheck_ok found isValid⟩

theorem safe_pudCheck {arg : CheckInteger}
    {rest : Addr × Pud Sample Events → Call Sample Events α} (sound : state.Sound)
    (continues : ∀ key pud, state.puds key = some pud →
      Safe state (rest (key, pud) state)) :
    Safe state ((pudCheck arg >>= rest) state) := by
  rcases pudCheck_cases arg state with ⟨message, fails⟩ | ⟨key, pud, found, isPort⟩
  · rw [Fallible.bind_of_error fails]
    exact safe_error sound _
  · rw [Fallible.bind_of_ok isPort]
    exact continues key pud found

theorem safe_checkProcess {rest : BitVec 32 → Call Sample Events α} (sound : state.Sound)
    (continues : (state.cuds pud.cud).processCallback = true →
      Safe state (rest (state.cuds pud.cud).nframes state)) :
    Safe state ((checkProcess pud >>= rest) state) := by
  cases inside : (state.cuds pud.cud).processCallback with
  | false =>
      rw [Fallible.bind_of_error (checkProcess_outside inside)]
      exact safe_error sound _
  | true =>
      rw [Fallible.bind_of_ok (checkProcess_inside inside)]
      exact continues inside

/-- A port that is found after an update is the new one or has been there. -/
theorem found_update {puds : Addr → Option (Pud Sample Events)} {other : Addr}
    {found : Pud Sample Events}
    (isFound : Function.update puds key (some pud) other = some found) :
    found = pud ∨ puds other = some found := by
  by_cases isKey : other = key
  · rw [isKey, Function.update_self, Option.some.injEq] at isFound
    exact .inl isFound.symm
  · rw [Function.update_of_ne isKey] at isFound
    exact .inr isFound

theorem State.Sound.update (sound : state.Sound)
    (isSound : pud.Sound (state.cuds pud.cud)) :
    State.Sound { state with puds := Function.update state.puds key (some pud) } := by
  intro other found isFound
  rcases found_update isFound with rfl | isFound
  · exact isSound
  · exact sound other found isFound

theorem bufp_update {puds : Addr → Option (Pud Sample Events)}
    (same : (puds key).map Pud.bufp = some pud.bufp) (other : Addr) :
    (Function.update puds key (some pud) other).map Pud.bufp =
      (puds other).map Pud.bufp := by
  by_cases isKey : other = key
  · rw [isKey, Function.update_self]
    exact same.symm
  · rw [Function.update_of_ne isKey]

theorem safe_onPort {call : PudCall Sample Events α} (sound : state.Sound)
    (found : state.puds key = some pud)
    (kept : Kept (state.cuds pud.cud) pud (call pud)) :
    Safe state (onPort key pud call state) where
  sound := by
    apply sound.update
    rw [kept.owner]
    exact kept.sound
  fails := by
    intro message fails
    apply bufp_update
    rw [found]
    exact congrArg some (kept.fails message fails).symm

/-- Even if both ports were the same, they would be left in order. -/
theorem safe_onPorts {call : PairCall Sample Events α} (sound : state.Sound)
    (found : state.puds key = some pud) (srcFound : state.puds srckey = some srcpud)
    (moved : PairMoved ⟨pud, srcpud⟩ (call ⟨pud, srcpud⟩)) :
    Safe state (onPorts key srckey ⟨pud, srcpud⟩ call state) where
  sound := by
    have first : State.Sound { state with
        puds := Function.update state.puds key (some (call ⟨pud, srcpud⟩).2.pud) } := by
      apply sound.update
      rw [moved.pud.cud]
      exact (sound key pud found).moves moved.pud
    apply first.update
    rw [moved.srcpud.cud]
    exact (sound srckey srcpud srcFound).moves moved.srcpud
  fails := by
    intro message fails other
    rcases moved.fails message fails with ⟨same, srcSame⟩
    have kept : (state.puds key).map Pud.bufp = some (call ⟨pud, srcpud⟩).2.pud.bufp := by
      rw [found]
      exact congrArg some same.symm
    have first := bufp_update kept
    rw [← first other]
    apply bufp_update
    rw [first srckey, srcFound]
    exact congrArg some srcSame.symm

theorem safe_switch {port : CheckInteger}
    {audio midi : Addr → Pud Sample Events → Call Sample Events α} (sound : state.Sound)
    (audioSafe : ∀ key pud, state.puds key = some pud → pud.type = .audio →
      Safe state (audio key pud state))
    (midiSafe : ∀ key pud, state.puds key = some pud → Safe state (midi key pud state)) :
    Safe state (switch port audio midi state) := by
  apply safe_pudCheck sound
  intro key pud found
  apply safe_checkProcess sound
  intro _
  cases isType : pud.type with
  | audio => exact audioSafe key pud found isType
  | midi => exact midiSafe key pud found

/-- A call on one port that uses it correctly is safe. -/
theorem safe_of_moved {call : PudCall Sample Events α} (sound : state.Sound)
    (found : state.puds key = some pud) (moved : Moved pud (call pud)) :
    Safe state (onPort key pud call state) :=
  safe_onPort sound found (kept_of_moved (sound key pud found) moved)

/-- The calls are safe, whatever their arguments are. -/
theorem safe_call [Zero Sample] (midi : MidiApi Events)
    (operation : Operation Sample Events)
    (sound : state.Sound) : Safe state (operation.call midi state) := by
  cases operation with
  | getBuffer port buf =>
      apply safe_pudCheck sound
      intro key pud found
      apply safe_checkProcess sound
      intro inside
      exact safe_onPort sound found (kept_getBuffer midi buf (sound key pud found) inside)
  | write port args time data =>
      rw [Operation.call]
      apply safe_switch sound
      · intro key pud found isAudio
        exact safe_of_moved sound found (moved_audioWrite isAudio args)
      · intro key pud found
        exact safe_of_moved sound found (moved_midiWrite midi time data)
  | clear port count =>
      rw [Operation.call]
      apply safe_switch sound
      · intro key pud found isAudio
        exact safe_of_moved sound found (moved_audioClear isAudio count)
      · intro key pud found
        exact safe_of_moved sound found (moved_error _)
  | read port count checkstack =>
      rw [Operation.call]
      apply safe_switch sound
      · intro key pud found isAudio
        exact safe_of_moved sound found (moved_audioRead isAudio count checkstack)
      · intro key pud found
        exact safe_of_moved sound found (moved_midiRead midi count)
  | seek port position =>
      rw [Operation.call]
      apply safe_switch sound
      · intro key pud found _
        exact safe_of_moved sound found (moved_audioSeek position)
      · intro key pud found
        exact safe_of_moved sound found (moved_midiSeek position)
  | copy port source count =>
      rw [Operation.call]
      apply safe_switch sound
      · intro key pud found isAudio
        apply safe_pudCheck sound
        intro srckey srcpud srcFound
        exact safe_onPorts sound found srcFound (pairMoved_audioCopy count isAudio)
      · intro key pud found
        apply safe_pudCheck sound
        intro srckey srcpud srcFound
        exact safe_onPorts sound found srcFound (pairMoved_midiCopy midi count)

end Calls

/-! ## Runs -/

section Runs

variable {midi : MidiApi Events} {state next : State Sample Events}

/-- A port of a client outside its process callback has no buffer. -/
theorem Pud.Sound.outside {cud : Cud} {pud : Pud Sample Events} (sound : pud.Sound cud)
    (isOutside : cud.processCallback = false) : pud.buf = none := by
  cases isBuf : pud.buf with
  | none => rfl
  | some memory =>
      have inside := sound.inside (by rw [isBuf]; rfl)
      rw [isOutside] at inside
      cases inside

/-- Closing a port does not change what is behind it. -/
theorem sound_close (key : Addr) (sound : state.Sound) :
    State.Sound { state with
      puds := Function.update state.puds key
        ((state.puds key).map fun pud => { pud with valid := false }) } := by
  cases found : state.puds key with
  | none =>
      have same : Function.update state.puds key none = state.puds := by
        rw [← found, Function.update_eq_self]
      rw [Option.map_none, same]
      exact sound
  | some pud =>
      have closed := sound key pud found
      exact @State.Sound.update _ _ _ key { pud with valid := false } sound
        ⟨closed.idle, closed.inside, closed.bufp, closed.nframes, closed.touched⟩

/-- The ports of a client that enters its process callback have no buffers yet. -/
theorem sound_enter {cud : Addr} (nframes : BitVec 32) (sound : state.Sound)
    (isOutside : (state.cuds cud).processCallback = false) :
    State.Sound { state with
      cuds := Function.update state.cuds cud ⟨true, nframes⟩ } := by
  intro key pud found
  have before := sound key pud found
  by_cases isOwner : pud.cud = cud
  · rw [isOwner] at before
    have isNone := before.outside isOutside
    exact .of_idle isNone (before.idle isNone)
  · show pud.Sound (Function.update state.cuds cud ⟨true, nframes⟩ pud.cud)
    rw [Function.update_of_ne isOwner]
    exact before

/-- When the process callback of a client returns, its ports lose their buffers. -/
theorem sound_leave (cud : Addr) (sound : state.Sound) :
    State.Sound { state with
      puds := fun key => (state.puds key).map fun pud =>
        if pud.cud = cud then pud.drop else pud
      cuds := Function.update state.cuds cud ⟨false, 0⟩ } := by
  intro key pud found
  rcases Option.map_eq_some_iff.mp found with ⟨before, isBefore, isPud⟩
  by_cases isOwner : before.cud = cud
  · rw [if_pos isOwner] at isPud
    rw [← isPud]
    exact .of_idle rfl rfl
  · rw [if_neg isOwner] at isPud
    rw [← isPud]
    show before.Sound (Function.update state.cuds cud ⟨false, 0⟩ before.cud)
    rw [Function.update_of_ne isOwner]
    exact sound key before isBefore

theorem sound_initial : (State.initial : State Sample Events).Sound := by
  intro key pud found
  cases found

variable [Zero Sample]

/-- Everything that happens leaves all ports in order. -/
theorem sound_step (action : Action Sample Events) (sound : state.Sound)
    (performed : cycles midi action state = some next) : next.Sound := by
  cases action with
  | register key cud type direction =>
      simp only [cycles] at performed
      split at performed
      · cases performed
        exact sound.update (.of_idle rfl rfl)
      · cases performed
  | close key =>
      cases performed
      exact sound_close key sound
  | enter cud nframes =>
      simp only [cycles] at performed
      split at performed
      next allowed =>
        rw [Bool.and_eq_true, Bool.not_eq_true', Bool.not_eq_true'] at allowed
        cases performed
        exact sound_enter nframes sound allowed.2
      · cases performed
  | call operation =>
      cases performed
      exact (safe_call midi operation sound).sound
  | leave cud =>
      simp only [cycles] at performed
      split at performed
      · cases performed
        exact sound_leave cud sound
      · cases performed
  | abort cud =>
      simp only [cycles] at performed
      split at performed
      · cases performed
        exact sound
      · cases performed

/-- All ports are in order after every run. -/
theorem sound_run {actions : List (Action Sample Events)}
    (run : (cycles midi).run actions .initial = some state) : state.Sound :=
  Machine.invariant_of_any_run
    (fun action _ _ sound performed => sound_step action sound performed)
    sound_initial run

end Runs

end LuaJack.Buffer
