import LuaJack.Buffer.Ports
import LuaJack.Cells
import Mathlib.Data.Int.Basic
import Mathlib.Logic.Nontrivial.Basic

/-!
# Copies of samples

`AudioCopy` copies samples between the starts of two buffers, whatever the positions of
the ports are.  It does what `AudioRead` and `AudioWrite` do together only if this
cannot be seen. -/

namespace LuaJack.Buffer

open Cells

variable {Sample Events : Type}

/-! ## Samples that are read and written one after the other -/

section Loops

variable {pud : Pud Sample Events} {memory : Memory Sample Events}
  {bufp space : BitVec 32}

/-- What the loop of `AudioRead` returns. -/
theorem readLoop_samples {remaining : Nat} {n : BitVec 32}
    (fits : bufp.toNat + n.toNat + remaining ≤ pud.nframes.toNat) :
    ∃ touched, readLoop memory bufp remaining n pud =
      (.ok (extract memory.samples (bufp.toNat + n.toNat) remaining),
        { pud with touched }) := by
  induction remaining generalizing n pud with
  | zero => exact ⟨pud.touched, rfl⟩
  | succ remaining ih =>
      have bound := pud.nframes.isLt
      have isIndex : (bufp + n).toNat = bufp.toNat + n.toNat := by bv_omega
      have isNext : bufp.toNat + (n + 1).toNat = bufp.toNat + n.toNat + 1 := by bv_omega
      have loaded : load memory (bufp + n).toNat pud =
          (.ok (memory.samples (bufp.toNat + n.toNat)),
          { pud with touched := pud.touched ++ [(bufp + n).toNat] }) := by
        rw [← isIndex]
        rfl
      have later : bufp.toNat + (n + 1).toNat + remaining ≤ pud.nframes.toNat := by omega
      rcases @ih { pud with touched := pud.touched ++ [(bufp + n).toNat] }
        (n + 1) later with
        ⟨touched, isAfter⟩
      refine ⟨touched, ?_⟩
      rw [readLoop, Fallible.bind_of_ok loaded,
        Fallible.bind_of_ok isAfter, isNext, extract_succ]
      rfl

/-- What the loop of `AudioWrite` stores while there is space. -/
theorem writeLoop_samples {list : List Sample}
    {n : BitVec 32} (isBuf : pud.buf = some memory)
    (le : n.toNat + list.length ≤ space.toNat)
    (fits : 0 < space.toNat → bufp.toNat + space.toNat ≤ pud.nframes.toNat) :
    ∃ touched, writeLoop bufp space n (list.map some) pud =
      (.ok (n + .ofNat 32 list.length),
        { pud with
          buf := some { memory with
            samples := place memory.samples (bufp.toNat + n.toNat) list }
          touched }) := by
  induction list generalizing n pud memory with
  | nil =>
      refine ⟨pud.touched, ?_⟩
      rw [place_nil, ← isBuf]
      exact congrArg (fun n => (Except.ok n, pud)) (BitVec.add_zero n).symm
  | cons sample list ih =>
      rw [List.length_cons] at le
      have bound := pud.nframes.isLt
      have less : n < space := by
        rw [BitVec.lt_def]
        omega
      have inside := fits (by omega)
      have isIndex : (bufp + n).toNat = bufp.toNat + n.toNat := by bv_omega
      have isNext : (n + 1).toNat = n.toNat + 1 := by bv_omega
      have isSum : n + 1 + .ofNat 32 list.length = n + .ofNat 32 (list.length + 1) := by
        rw [BitVec.ofNat_add, BitVec.add_assoc]
        exact congrArg (n + ·) (BitVec.add_comm _ _)
      have later : (n + 1).toNat + list.length ≤ space.toNat := by omega
      rcases @ih (store (bufp + n).toNat sample pud).2
        { memory with samples := Function.update memory.samples (bufp + n).toNat sample }
          (n + 1)
        (by rw [store, Fallible.modify_apply, isBuf]; rfl) later fits with
          ⟨touched, isAfter⟩
      refine ⟨touched, ?_⟩
      rw [List.map_cons, writeLoop, if_pos less]
      show writeLoop bufp space (n + 1) (list.map some)
          (store (bufp + n).toNat sample pud).2 = _
      rw [isAfter, isSum, isNext, isIndex, place_cons, Nat.add_assoc]
      rfl

variable (isBuf : pud.buf = some memory)
include isBuf

/-- What `AudioRead` returns when it is not at the end and the Lua stack can grow. -/
theorem audioRead_samples (isInput : pud.direction = .input) {value : LuaInteger}
    {count : BitVec 32} {checkstack : BitVec 32 → Bool} (notAtEnd : pud.avail ≠ 0)
    (isCount : (if value.setWidth 32 ≤ pud.avail then value.setWidth 32 else pud.avail) =
      count)
    (grows : checkstack count = true) :
    ∃ touched, audioRead (.ok (some value)) checkstack pud =
      (.ok ((extract memory.samples pud.bufp.toNat count.toNat).map .number),
        { pud with bufp := pud.bufp + count, touched }) := by
  have isInteger : optInteger (.ok (some value)) 1 pud =
      (.ok (value.setWidth 32), pud) := rfl
  have isAvail := avail_toNat pud
  have positive : pud.avail.toNat ≠ 0 :=
    fun isZero => notAtEnd (BitVec.eq_of_toNat_eq isZero)
  have le : count.toNat ≤ pud.avail.toNat := by
    rw [← isCount]
    split
    next le => exact BitVec.le_def.mp le
    next => exact Nat.le_refl _
  have zero : (0 : BitVec 32).toNat = 0 := rfl
  have fits : pud.bufp.toNat + (0 : BitVec 32).toNat + count.toNat ≤
      pud.nframes.toNat := by omega
  rcases @readLoop_samples _ _ pud memory pud.bufp count.toNat 0 fits with
    ⟨touched, isRead⟩
  refine ⟨touched, ?_⟩
  unfold audioRead
  rw [Fallible.bind_of_ok isInteger, Fallible.bind_of_ok (checkBuffer_of_buf isBuf),
    Fallible.bind_of_ok (checkIsInput_of_input isInput), Fallible.asks_bind]
  simp only [id]
  rw [if_neg notAtEnd, isCount, if_pos grows, Fallible.bind_of_ok isRead]
  rfl

/-- What `AudioWrite` stores while there is space. -/
theorem audioWrite_samples (isOutput : pud.direction = .output) {list : List Sample}
    (le : list.length ≤ pud.avail.toNat) :
    ∃ touched, audioWrite (list.map some) pud =
      (.ok [.integer (.ofNat 64 list.length)],
        { pud with
          buf := some { memory with samples := place memory.samples pud.bufp.toNat list }
          bufp := pud.bufp + .ofNat 32 list.length
          touched }) := by
  have isAvail := avail_toNat pud
  have bound := pud.avail.isLt
  have zero : (0 : BitVec 32).toNat = 0 := rfl
  have fits : 0 < pud.avail.toNat → pud.bufp.toNat + pud.avail.toNat ≤
      pud.nframes.toNat := by
    omega
  rcases @writeLoop_samples _ _ pud memory pud.bufp pud.avail list 0 isBuf
    (by omega) fits with
    ⟨touched, isWritten⟩
  refine ⟨touched, ?_⟩
  have isSum : 0 + BitVec.ofNat 32 list.length = .ofNat 32 list.length :=
    BitVec.zero_add _
  have isLength : (BitVec.ofNat 32 list.length).setWidth 64 = .ofNat 64 list.length := by
    bv_omega
  rw [isSum, zero, Nat.add_zero] at isWritten
  unfold audioWrite
  rw [Fallible.bind_of_ok (checkBuffer_of_buf isBuf),
    Fallible.bind_of_ok (checkIsOutput_of_output isOutput), Fallible.asks_bind]
  simp only [id]
  rw [Fallible.bind_of_ok isWritten]
  rw [isLength]
  rfl

end Loops

/-! ## Copies -/

/-- What `AudioRead` returns as an argument of `AudioWrite`. -/
def Value.sample? : Value Sample → Option Sample
  | .number sample => some sample
  | _ => none

/-- The entry of a port, without the record of accesses. -/
def Pud.entry (pud : Pud Sample Events) : Pud Sample Events := { pud with touched := [] }

namespace Pair

variable (pair : Pair Sample Events)

/-- The samples that are left to copy. -/
def transferred (count : BitVec 32) : Nat :=
  min count.toNat (min pair.srcpud.avail.toNat pair.pud.avail.toNat)

/-- A copy may be made from the one port to the other. -/
structure Copyable (memory srcmemory : Memory Sample Events) : Prop where
  type : pair.pud.type = .audio
  srctype : pair.srcpud.type = .audio
  direction : pair.pud.direction = .output
  srcdirection : pair.srcpud.direction = .input
  buf : pair.pud.buf = some memory
  srcbuf : pair.srcpud.buf = some srcmemory

/-- The ports after samples have been transferred. -/
def after (memory : Memory Sample Events) (samples : Nat → Sample) (count : Nat) :
    Pair Sample Events where
  pud := { pair.pud with
    buf := some { memory with samples }
    bufp := pair.pud.bufp + .ofNat 32 count }
  srcpud := { pair.srcpud with bufp := pair.srcpud.bufp + .ofNat 32 count }

end Pair

/-- Read samples with `AudioRead`, and write them with `AudioWrite`. -/
def readWrite (count : BitVec 32) : PairCall Sample Events (List (Value Sample)) := do
  let pair ← Fallible.asks id
  let remaining := BitVec.ofNat 64 (pair.transferred count)
  let values ← onSrcpud (audioRead (.ok (some remaining)) fun _ => true)
  onPud (audioWrite (values.map Value.sample?))

/-- Two calls return the same and leave the same entries of both ports. -/
structure SameEffect
    (one two : Except String (List (Value Sample)) × Pair Sample Events) :
    Prop where
  returned : one.1 = two.1
  pud : one.2.pud.entry = two.2.pud.entry
  srcpud : one.2.srcpud.entry = two.2.srcpud.entry

section Copies

variable {pair : Pair Sample Events} {memory srcmemory : Memory Sample Events}
  {count : BitVec 32}

/-- The effect of a copy that stores the samples from some index on. -/
structure Transfers (pair : Pair Sample Events) (memory : Memory Sample Events)
    (samples : Nat → Sample) (count : Nat)
    (result : Except String (List (Value Sample)) × Pair Sample Events) : Prop where
  returned : result.1 = .ok [.integer (.ofNat 64 count)]
  pud : result.2.pud.entry = (pair.after memory samples count).pud.entry
  srcpud : result.2.srcpud.entry = (pair.after memory samples count).srcpud.entry

theorem Pair.Copyable.checked (copyable : pair.Copyable memory srcmemory) :
    pair.Checked .audio memory srcmemory where
  srctype := copyable.srctype
  srcdirection := copyable.srcdirection
  direction := copyable.direction
  buf := copyable.buf
  srcbuf := copyable.srcbuf

/-- The samples that `fill` leaves. -/
theorem fill_samples (sample samples : Nat → Sample) (first count : Nat) :
    (fun index => if first ≤ index ∧ index < first + count then sample index
      else samples index) =
      place samples first (extract sample first count) := by
  funext index
  rw [place_extract]
  split
  next inside => rw [Nat.add_sub_of_le inside.1]
  next => rfl

/-- Nothing is transferred. -/
theorem transfers_none (copyable : pair.Copyable memory srcmemory) :
    Transfers pair memory memory.samples 0 (.ok [.integer 0], pair) where
  returned := rfl
  pud := by
    have isBufp : pair.pud.bufp + .ofNat 32 0 = pair.pud.bufp := BitVec.add_zero _
    simp only [Pud.entry, Pair.after, isBufp, copyable.buf]
  srcpud := by
    have isBufp : pair.srcpud.bufp + .ofNat 32 0 = pair.srcpud.bufp := BitVec.add_zero _
    simp only [Pud.entry, Pair.after, isBufp]

/-- `fill` changes nothing but the samples. -/
theorem fill_entry {pud : Pud Sample Events}
    (isBuf : pud.buf = some memory) (first count : Nat)
    (sample : Nat → Sample) : (fill first count sample pud).2.entry =
      { pud with
        buf := some { memory with
          samples := place memory.samples first (extract sample first count) }
        touched := [] } := by
  rw [fill, Fallible.modify_apply, isBuf, Option.map_some, fill_samples]
  rfl

/-- `AudioCopy` stores the first samples of the source at the start of the destination. -/
theorem transfers_audioCopy (copyable : pair.Copyable memory srcmemory)
    (count : BitVec 32) :
    Transfers pair memory
      (place memory.samples 0 (extract srcmemory.samples 0 (pair.transferred count)))
      (pair.transferred count) (audioCopy (.ok (some (count.setWidth 64))) pair) := by
  unfold audioCopy
  rw [Fallible.bind_of_ok (checkPorts_of_checked copyable.checked)]
  simp only [Fallible.asks_bind, id]
  by_cases atEnd : pair.pud.avail = 0 ∨ pair.srcpud.avail = 0
  · have isZero : pair.transferred count = 0 := by
      unfold Pair.transferred
      rcases atEnd with atEnd | atEnd <;> rw [atEnd] <;> simp
    rw [if_pos atEnd, isZero]
    exact transfers_none copyable
  · rw [if_neg atEnd, Fallible.bind_of_ok optInteger_count]
    generalize isLimited : (if (if pair.pud.avail < pair.srcpud.avail then pair.pud.avail
      else pair.srcpud.avail) < count then
        (if pair.pud.avail < pair.srcpud.avail then pair.pud.avail else pair.srcpud.avail)
      else count) = limited
    have isCount : limited.toNat = pair.transferred count := by
      rw [← isLimited]
      unfold Pair.transferred
      simp only [BitVec.lt_def]
      split <;> split <;> omega
    have isLimited : limited = .ofNat 32 (pair.transferred count) := by
      rw [← isCount, BitVec.ofNat_toNat, BitVec.setWidth_eq]
    have isReturned : limited.setWidth 64 = .ofNat 64 (pair.transferred count) := by
      rw [← isCount, BitVec.ofNat_toNat]
    by_cases positive : 0 < limited
    · rw [if_pos positive]
      refine ⟨congrArg (fun value => Except.ok [Value.integer value]) isReturned, ?_, ?_⟩
      · have filled := fill_entry copyable.buf 0 limited.toNat srcmemory.samples
        show { (fill 0 limited.toNat srcmemory.samples pair.pud).2.entry with
          bufp := pair.pud.bufp + limited } = _
        rw [filled, isCount, isLimited]
        rfl
      · have filled := fill_entry copyable.srcbuf 0 limited.toNat srcmemory.samples
        show { (fill 0 limited.toNat srcmemory.samples pair.srcpud).2.entry with
          bufp := pair.srcpud.bufp + limited } = _
        rw [filled, isLimited, ← fill_samples]
        simp only [ite_self, Pair.after, Pud.entry, copyable.srcbuf]
    · rw [if_neg positive]
      have isZero : pair.transferred count = 0 := by
        rw [← isCount]
        bv_omega
      rw [isReturned, isZero]
      exact transfers_none copyable

theorem onSrcpud_ok {α : Type} {call : PudCall Sample Events α} {value : α}
    {srcpud : Pud Sample Events} (isOk : call pair.srcpud = (.ok value, srcpud)) :
    onSrcpud call pair = (.ok value, { pair with srcpud }) := by
  rw [onSrcpud, isOk]

/-- At the end of the buffer `AudioRead` returns nil, and `AudioWrite` has nothing to
write. -/
theorem audioRead_arguments {pud : Pud Sample Events} (isBuf : pud.buf = some memory)
    (isInput : pud.direction = .input) {transferred : Nat}
    (le : transferred ≤ pud.avail.toNat) :
    ∃ values touched, audioRead (.ok (some (.ofNat 64 transferred))) (fun _ => true) pud =
        (.ok values, { pud with bufp := pud.bufp + .ofNat 32 transferred, touched }) ∧
      (audioWrite (values.map Value.sample?) : PudCall Sample Events _) =
        audioWrite ((extract memory.samples pud.bufp.toNat transferred).map some) := by
  have bound := pud.avail.isLt
  have isCount : (BitVec.ofNat 64 transferred).setWidth 32 =
      .ofNat 32 transferred := by bv_omega
  have isNat : (BitVec.ofNat 32 transferred).toNat = transferred := by
    rw [BitVec.toNat_ofNat, Nat.mod_eq_of_lt (by omega)]
  by_cases atEnd : pud.avail = 0
  · have isZero : transferred = 0 := by
      rw [atEnd] at le
      exact Nat.le_zero.mp le
    have isSame : pud.bufp + .ofNat 32 0 = pud.bufp := BitVec.add_zero _
    subst isZero
    refine ⟨[.nil], pud.touched, ?_, rfl⟩
    unfold audioRead
    rw [Fallible.bind_of_ok (rfl : optInteger _ _ pud = (.ok _, pud)),
      Fallible.bind_of_ok (checkBuffer_of_buf isBuf),
      Fallible.bind_of_ok (checkIsInput_of_input isInput), Fallible.asks_bind]
    simp only [id]
    rw [if_pos atEnd, isSame]
    rfl
  · have readLe : (BitVec.ofNat 64 transferred).setWidth 32 ≤ pud.avail := by
      rw [isCount, BitVec.le_def, isNat]
      exact le
    rcases @audioRead_samples _ _ _ _ isBuf isInput _ _ (fun _ => true) atEnd
      (if_pos readLe) rfl with
      ⟨touched, isRead⟩
    rw [isCount, isNat] at isRead
    refine ⟨_, touched, isRead, ?_⟩
    rw [List.map_map]
    rfl

/-- `AudioRead` and `AudioWrite` transfer the samples between the positions. -/
theorem transfers_readWrite (copyable : pair.Copyable memory srcmemory)
    (count : BitVec 32) :
    Transfers pair memory
      (place memory.samples pair.pud.bufp.toNat
        (extract srcmemory.samples pair.srcpud.bufp.toNat (pair.transferred count)))
      (pair.transferred count) (readWrite count pair) := by
  have le : pair.transferred count ≤ pair.srcpud.avail.toNat :=
    (Nat.min_le_right _ _).trans (Nat.min_le_left _ _)
  have dstLe : pair.transferred count ≤ pair.pud.avail.toNat :=
    (Nat.min_le_right _ _).trans (Nat.min_le_right _ _)
  unfold readWrite
  rw [Fallible.asks_bind]
  simp only [id]
  generalize pair.transferred count = transferred at le dstLe
  rcases audioRead_arguments copyable.srcbuf copyable.srcdirection le with
    ⟨values, readTouched, isRead, isArguments⟩
  have isLength : (extract srcmemory.samples pair.srcpud.bufp.toNat transferred).length ≤
      pair.pud.avail.toNat := by
    rw [extract_length]
    exact dstLe
  rcases audioWrite_samples copyable.buf copyable.direction isLength with
    ⟨writeTouched, isWritten⟩
  rw [extract_length] at isWritten
  rw [Fallible.bind_of_ok (onSrcpud_ok isRead), isArguments, onPud, isWritten]
  exact ⟨rfl, rfl, rfl⟩

/-! ## When the effect is the same -/

/-- Samples that are stored at the start and not at the position are in both places
anyway. -/
structure Unnoticed (samples source : Nat → Sample)
    (bufp srcbufp count : Nat) : Prop where
  stored : ∀ index < count,
    (if bufp + index < count then source (bufp + index) else samples (bufp + index)) =
      source (srcbufp + index)
  kept : ∀ index < min count bufp, source index = samples index

theorem place_eq_iff {samples source : Nat → Sample} {bufp srcbufp count : Nat} :
    place samples 0 (extract source 0 count) =
      place samples bufp (extract source srcbufp count) ↔
      Unnoticed samples source bufp srcbufp count := by
  constructor
  · intro same
    have sameAt (index : Nat) := congrFun same index
    simp only [place_extract, Nat.zero_le, true_and, Nat.zero_add, Nat.sub_zero] at sameAt
    constructor
    · intro index less
      have at_ := sameAt (bufp + index)
      have both : bufp ≤ bufp + index ∧ bufp + index < bufp + count :=
        ⟨by omega, by omega⟩
      rw [if_pos both, Nat.add_sub_cancel_left] at at_
      exact at_
    · intro index less
      have at_ := sameAt index
      rw [if_pos (by omega), if_neg (by omega)] at at_
      exact at_
  · intro unnoticed
    funext index
    simp only [place_extract, Nat.zero_le, true_and, Nat.zero_add, Nat.sub_zero]
    by_cases inside : bufp ≤ index ∧ index < bufp + count
    · have stored := unnoticed.stored (index - bufp) (by omega)
      rw [Nat.add_sub_of_le inside.1] at stored
      rw [if_pos inside]
      exact stored
    · rw [if_neg inside]
      split
      next less => exact unnoticed.kept index (by omega)
      next => rfl

/-- Whatever the samples are, only copies between the starts go unnoticed. -/
theorem unnoticed_always_iff [Nontrivial Sample] {bufp srcbufp count : Nat} :
    (∀ samples source : Nat → Sample, Unnoticed samples source bufp srcbufp count) ↔
      count = 0 ∨ bufp = 0 ∧ srcbufp = 0 := by
  constructor
  · intro unnoticed
    rcases exists_pair_ne Sample with ⟨one, other, different⟩
    by_cases isZero : count = 0
    · exact .inl isZero
    have positive : 0 < count := Nat.pos_of_ne_zero isZero
    have isStart : bufp = 0 := by
      by_contra isBehind
      have kept := (unnoticed (fun _ => one) (fun _ => other)).kept 0 (by omega)
      exact different kept.symm
    refine .inr ⟨isStart, ?_⟩
    by_contra isBehind
    -- the source has another sample at its start than everywhere else
    have stored := (unnoticed (fun _ => one)
      (Function.update (fun _ => one) 0 other)).stored 0 positive
    rw [isStart, if_pos positive, Nat.add_zero, Nat.add_zero, Function.update_self,
      Function.update_of_ne isBehind] at stored
    exact different stored.symm
  · rintro (isZero | ⟨isStart, isSrcStart⟩) samples source
    · rw [isZero]
      exact ⟨fun _ less => by omega, fun _ less => by omega⟩
    · rw [isStart, isSrcStart]
      refine ⟨fun index less => ?_, fun _ less => by omega⟩
      rw [Nat.zero_add, if_pos less]

/-- Calls that transfer as many samples differ only in the samples they leave. -/
theorem sameEffect_iff {samples others : Nat → Sample} {transferred : Nat}
    {one two : Except String (List (Value Sample)) × Pair Sample Events}
    (first : Transfers pair memory samples transferred one)
    (second : Transfers pair memory others transferred two) :
    SameEffect one two ↔ samples = others := by
  constructor
  · intro same
    have isPud := same.pud
    rw [first.pud, second.pud] at isPud
    have isBuf := congrArg (fun pud => pud.buf.map Memory.samples) isPud
    exact Option.some.inj isBuf
  · intro same
    exact ⟨first.returned.trans second.returned.symm, by rw [first.pud, second.pud, same],
      first.srcpud.trans second.srcpud.symm⟩

theorem sameEffect_iff_unnoticed (copyable : pair.Copyable memory srcmemory)
    (count : BitVec 32) :
    SameEffect (audioCopy (.ok (some (count.setWidth 64))) pair) (readWrite count pair) ↔
      Unnoticed memory.samples srcmemory.samples
        pair.pud.bufp.toNat pair.srcpud.bufp.toNat
        (pair.transferred count) :=
  (sameEffect_iff (transfers_audioCopy copyable count)
    (transfers_readWrite copyable count)).trans
    place_eq_iff

end Copies

/-- The ports with other samples in their buffers. -/
def Pair.holding (pair : Pair Sample Events) (memory srcmemory : Memory Sample Events)
    (samples source : Nat → Sample) : Pair Sample Events where
  pud := { pair.pud with buf := some { memory with samples } }
  srcpud := { pair.srcpud with buf := some { srcmemory with samples := source } }

/-- A copy has the effect of reading and writing exactly if it goes unnoticed that it
ignores the positions. For all samples it has this effect only if nothing is copied, or
both ports are at the start. -/
theorem copy_agrees_iff [Nontrivial Sample] (pair : Pair Sample Events)
    (memory srcmemory : Memory Sample Events) (copyable : pair.Copyable memory srcmemory)
    (count : BitVec 32) :
    (SameEffect (audioCopy (.ok (some (count.setWidth 64))) pair) (readWrite count pair) ↔
      Unnoticed memory.samples srcmemory.samples
        pair.pud.bufp.toNat pair.srcpud.bufp.toNat
        (pair.transferred count)) ∧
    ((∀ samples source, SameEffect
        (audioCopy (.ok (some (count.setWidth 64)))
          (pair.holding memory srcmemory samples source))
        (readWrite count (pair.holding memory srcmemory samples source))) ↔
      pair.transferred count = 0 ∨ pair.pud.bufp = 0 ∧ pair.srcpud.bufp = 0) := by
  constructor
  · exact sameEffect_iff_unnoticed copyable count
  · have isUnnoticed (samples source : Nat → Sample) : SameEffect
        (audioCopy (.ok (some (count.setWidth 64)))
          (pair.holding memory srcmemory samples source))
        (readWrite count (pair.holding memory srcmemory samples source)) ↔
        Unnoticed samples source pair.pud.bufp.toNat pair.srcpud.bufp.toNat
          (pair.transferred count) :=
      @sameEffect_iff_unnoticed _ _ (pair.holding memory srcmemory samples source)
        { memory with samples } { srcmemory with samples := source }
        ⟨copyable.type, copyable.srctype, copyable.direction,
          copyable.srcdirection, rfl, rfl⟩ count
    have isNat (bufp : BitVec 32) : bufp = 0 ↔ bufp.toNat = 0 :=
      ⟨fun isZero => congrArg BitVec.toNat isZero, fun isZero =>
        BitVec.eq_of_toNat_eq isZero⟩
    simp only [isUnnoticed, isNat]
    exact unnoticed_always_iff

/-- A source with four samples, and a destination where some have been written already. -/
def fourSamples (written : BitVec 32) : Pair Int Unit where
  pud := { (Pud.new 7 .audio .output : Pud Int Unit) with
    buf := some ⟨fun _ => 9, ()⟩, nframes := 4, bufp := written }
  srcpud := { (Pud.new 7 .audio .input : Pud Int Unit) with
    buf := some ⟨fun _ => 5, ()⟩, nframes := 4 }

theorem copyable_fourSamples (written : BitVec 32) :
    (fourSamples written).Copyable ⟨fun _ => 9, ()⟩ ⟨fun _ => 5, ()⟩ :=
  ⟨rfl, rfl, rfl, rfl, rfl, rfl⟩

theorem copy_agrees_iff_fourSamples : SameEffect
    (audioCopy (.ok (some ((3 : BitVec 32).setWidth 64))) (fourSamples 0))
    (readWrite 3 (fourSamples 0)) := by
  apply (copy_agrees_iff (fourSamples 0) _ _ (copyable_fourSamples 0) 3).1.mpr
  constructor
  · decide
  · decide

/-- The copy stores the sample over the one that has been written. -/
theorem copy_overwrites : ¬ SameEffect
    (audioCopy (.ok (some ((1 : BitVec 32).setWidth 64))) (fourSamples 1))
    (readWrite 1 (fourSamples 1)) := by
  intro same
  have isUnnoticed := (sameEffect_iff_unnoticed (copyable_fourSamples 1) 1).mp same
  exact absurd (isUnnoticed.kept 0 (by decide)) (by decide)

end LuaJack.Buffer
