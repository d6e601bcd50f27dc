import LuaJack.Buffer.Copy
import Mathlib.Algebra.GroupWithZero.Nat

/-!
# Transfers in parts

Writing samples in two calls, or reading them in two calls, has the effect of one call,
wherever the end of the buffer is; and clearing samples has the effect of writing
zeros. -/

namespace LuaJack.Buffer

open Cells

variable {Sample Events : Type}

/-! ## What the calls transfer -/

/-- The number of samples that a call says it has written. -/
def Value.count : Value Sample → Nat
  | .integer value => value.toNat
  | .float value => value.toNat
  | _ => 0

/-- The number of samples that calls say they have written. -/
def total (values : List (Value Sample)) : Nat := (values.map Value.count).sum

/-- The samples among the values that calls return. -/
def samples (values : List (Value Sample)) : List Sample := values.filterMap Value.sample?

theorem samples_numbers (list : List Sample) :
    samples (list.map (Value.number : Sample → Value Sample)) = list := by
  rw [samples, List.filterMap_map]
  exact List.filterMap_some

theorem samples_append (one two : List (Value Sample)) :
    samples (one ++ two) = samples one ++ samples two := List.filterMap_append

theorem total_append (one two : List (Value Sample)) :
    total (one ++ two) = total one + total two := by
  rw [total, List.map_append, List.sum_append]
  rfl

/-- Two calls return the same, and leave the same entry of the port. -/
structure SameOutcome {α : Type}
    (one two : Except String α × Pud Sample Events) : Prop where
  returned : one.1 = two.1
  entry : one.2.entry = two.2.entry

section Calls

variable {pud : Pud Sample Events} {memory : Memory Sample Events}

/-- The loop of `AudioWrite` ignores the arguments for which there is no space. -/
theorem writeLoop_take {bufp space : BitVec 32} (list : List Sample) {n : BitVec 32}
    (le : n ≤ space) :
    writeLoop bufp space n (list.map some) pud =
      writeLoop bufp space n ((list.take (space.toNat - n.toNat)).map some) pud := by
  induction list generalizing n pud with
  | nil => rw [List.take_nil]
  | cons sample list ih =>
      by_cases less : n < space
      · have isSucc : space.toNat - n.toNat =
            (space.toNat - (n + 1).toNat) + 1 := by bv_omega
        have next : n + 1 ≤ space := by bv_omega
        rw [isSucc, List.take_succ_cons, List.map_cons,
          List.map_cons, writeLoop, writeLoop, if_pos less, if_pos less]
        exact @ih (store (bufp + n).toNat sample pud).2 (n + 1) next
      · have isZero : space.toNat - n.toNat = 0 := by bv_omega
        rw [isZero, List.take_zero, List.map_cons, writeLoop, if_neg less]
        rfl

variable (isBuf : pud.buf = some memory)
include isBuf

/-- What `AudioWrite` does with a list of numbers of any length. -/
theorem audioWrite_eq (isOutput : pud.direction = .output) (list : List Sample) :
    ∃ touched, audioWrite (list.map some) pud =
      (.ok [.integer (.ofNat 64 (list.take pud.avail.toNat).length)],
        { pud with
          buf := some { memory with
            samples := place memory.samples pud.bufp.toNat (list.take pud.avail.toNat) }
          bufp := pud.bufp + .ofNat 32 (list.take pud.avail.toNat).length
          touched }) := by
  have ignores : audioWrite (list.map some) pud =
      audioWrite ((list.take pud.avail.toNat).map some) pud := by
    unfold audioWrite
    simp only [Fallible.bind_of_ok (checkBuffer_of_buf isBuf),
      Fallible.bind_of_ok (checkIsOutput_of_output isOutput), Fallible.asks_bind, id]
    rw [Fallible.bind_apply, Fallible.bind_apply, writeLoop_take list (Nat.zero_le _)]
    rfl
  rw [ignores]
  exact audioWrite_samples isBuf isOutput (List.length_take_le _ _)

/-- What `AudioClear` does with a count. -/
theorem audioClear_eq [Zero Sample] (isOutput : pud.direction = .output)
    (value : LuaInteger) :
    (audioClear (.ok (some value)) pud).1 =
        .ok [.float (.ofNat 32 (min (value.setWidth 32).toNat pud.avail.toNat))] ∧
      (audioClear (.ok (some value)) pud).2.entry =
        { pud with
          buf := some { memory with
            samples := place memory.samples pud.bufp.toNat
              (List.replicate (min (value.setWidth 32).toNat pud.avail.toNat) 0) }
          bufp := pud.bufp + .ofNat 32 (min (value.setWidth 32).toNat pud.avail.toNat)
          touched := [] } := by
  unfold audioClear
  rw [Fallible.bind_of_ok (checkBuffer_of_buf isBuf),
    Fallible.bind_of_ok (checkIsOutput_of_output isOutput), Fallible.asks_bind]
  simp only [id]
  rw [Fallible.bind_of_ok (optInteger_ok (some value) _ _)]
  simp only [Option.map_some, Option.getD_some]
  generalize isCleared : (if value.setWidth 32 < pud.avail then value.setWidth 32
    else pud.avail) = cleared
  have isNat : cleared.toNat = min (value.setWidth 32).toNat pud.avail.toNat := by
    rw [← isCleared]
    simp only [BitVec.lt_def]
    split <;> omega
  have isSame : BitVec.ofNat 32 cleared.toNat = cleared := by
    rw [BitVec.ofNat_toNat, BitVec.setWidth_eq]
  rw [← isNat, isSame]
  by_cases positive : 0 < cleared
  · rw [if_pos positive]
    have filled := fill_entry isBuf pud.bufp.toNat cleared.toNat (fun _ => (0 : Sample))
    rw [extract_const] at filled
    refine ⟨rfl, ?_⟩
    show { (fill pud.bufp.toNat cleared.toNat (fun _ => 0) pud).2.entry with
      bufp := pud.bufp + cleared } = _
    rw [filled]
  · have isZero : cleared.toNat = 0 := by bv_omega
    rw [if_neg positive, isZero, List.replicate_zero, place_nil, ← isBuf]
    exact ⟨rfl, rfl⟩

/-- The number of samples that `AudioRead` returns, if the Lua stack can grow by this
number. -/
def readCount (pud : Pud Sample Events) (value : LuaInteger) : BitVec 32 :=
  if value.setWidth 32 ≤ pud.avail then value.setWidth 32 else pud.avail

omit isBuf in
theorem readCount_toNat (value : LuaInteger) :
    (readCount pud value).toNat = min (value.setWidth 32).toNat pud.avail.toNat := by
  unfold readCount
  simp only [BitVec.le_def]
  split <;> omega

variable (isInput : pud.direction = .input)
  (value : LuaInteger) {checkstack : BitVec 32 → Bool}
include isInput

theorem audioRead_atEnd (atEnd : pud.avail = 0) :
    audioRead (.ok (some value)) checkstack pud = (.ok [.nil], pud) := by
  unfold audioRead
  rw [Fallible.bind_of_ok (optInteger_ok (some value) _ _),
    Fallible.bind_of_ok (checkBuffer_of_buf isBuf),
    Fallible.bind_of_ok (checkIsInput_of_input isInput), Fallible.asks_bind]
  simp only [id]
  rw [if_pos atEnd]
  rfl

/-- If the Lua stack cannot grow, nothing is read. -/
theorem audioRead_full (notAtEnd : pud.avail ≠ 0)
    (full : checkstack (readCount pud value) = false) :
    audioRead (.ok (some value)) checkstack pud =
      (.error "stack overflow (cannot grow Lua stack)", pud) := by
  unfold audioRead
  rw [Fallible.bind_of_ok (optInteger_ok (some value) _ _),
    Fallible.bind_of_ok (checkBuffer_of_buf isBuf),
    Fallible.bind_of_ok (checkIsInput_of_input isInput), Fallible.asks_bind]
  simp only [id, Option.map_some, Option.getD_some]
  unfold readCount at full
  rw [if_neg notAtEnd, full]
  rfl

/-- If it can grow, the samples from the position on are read. -/
theorem audioRead_eq (grows : pud.avail ≠ 0 → checkstack (readCount pud value) = true) :
    ∃ values touched, audioRead (.ok (some value)) checkstack pud =
        (.ok values, { pud with bufp := pud.bufp + readCount pud value, touched }) ∧
      samples values =
        extract memory.samples pud.bufp.toNat (readCount pud value).toNat := by
  have isCount := @readCount_toNat _ _ pud value
  by_cases atEnd : pud.avail = 0
  · have isZero : readCount pud value = 0 := by
      apply BitVec.eq_of_toNat_eq
      rw [isCount, atEnd]
      exact Nat.min_eq_right (Nat.zero_le _)
    have same : pud.bufp + 0 = pud.bufp := BitVec.add_zero _
    refine ⟨[.nil], pud.touched, ?_, ?_⟩
    · rw [audioRead_atEnd isBuf isInput value atEnd, isZero, same]
    · rw [isZero]
      rfl
  · rcases audioRead_samples isBuf isInput atEnd rfl (grows atEnd) with ⟨touched, isRead⟩
    exact ⟨_, touched, isRead, samples_numbers _⟩

end Calls

/-! ## Transfers in two parts -/

section Parts

variable {pud : Pud Sample Events} {memory : Memory Sample Events}

/-- The position after some of what is available has been transferred. -/
theorem bufp_advance {n : BitVec 32} (le : n.toNat ≤ pud.avail.toNat) :
    (pud.bufp + n).toNat = pud.bufp.toNat + n.toNat := by
  have isAvail := avail_toNat pud
  have bound := pud.nframes.isLt
  have bufpBound := pud.bufp.isLt
  rw [BitVec.toNat_add]
  omega

/-- What is available after some of it has been transferred. -/
theorem avail_advance {buf : Option (Memory Sample Events)}
    {touched : List Nat} {n : BitVec 32} (le : n.toNat ≤ pud.avail.toNat) :
    (Pud.avail { pud with buf, bufp := pud.bufp + n, touched }).toNat =
      pud.avail.toNat - n.toNat := by
  rw [avail_toNat, avail_toNat]
  show pud.nframes.toNat - (pud.bufp + n).toNat = _
  rw [bufp_advance le, Nat.sub_add_eq]

theorem audioWrite_input (args : List (Option Sample)) {memory : Memory Sample Events}
    (isBuf : pud.buf = some memory) (isInput : pud.direction = .input) :
    audioWrite args pud = (.error "operation allowed only on output ports", pud) := by
  rw [audioWrite, Fallible.bind_of_ok (checkBuffer_of_buf isBuf),
    Fallible.bind_of_error (checkIsOutput_of_input isInput)]

theorem total_written {count : Nat} (le : count ≤ pud.avail.toNat) :
    total [(.integer (.ofNat 64 count) : Value Sample)] = count := by
  have bound := pud.avail.isLt
  show (BitVec.ofNat 64 count).toNat + 0 = count
  rw [Nat.add_zero, BitVec.toNat_ofNat, Nat.mod_eq_of_lt (by omega)]

/-- Writing two lists of numbers has the effect of writing them at once. -/
theorem audioWrite_split (isBuf : pud.buf = some memory) (xs ys : List Sample) :
    SameOutcome
      ((do return total (← audioWrite ((xs ++ ys).map some)) : PudCall Sample Events Nat)
        pud)
      ((do
        let one ← audioWrite (xs.map some)
        let two ← audioWrite (ys.map some)
        return total (one ++ two) : PudCall Sample Events Nat) pud) := by
  cases direction : pud.direction with
  | input =>
      rw [Fallible.bind_of_error (audioWrite_input _ isBuf direction),
        Fallible.bind_of_error (audioWrite_input _ isBuf direction)]
      exact ⟨rfl, rfl⟩
  | output =>
      rcases audioWrite_eq isBuf direction (xs ++ ys) with ⟨_, isWhole⟩
      rcases audioWrite_eq isBuf direction xs with ⟨touched, isFirst⟩
      have firstLe : (xs.take pud.avail.toNat).length ≤ pud.avail.toNat :=
        List.length_take_le _ _
      have bound := pud.avail.isLt
      have isNat : (BitVec.ofNat 32 (xs.take pud.avail.toNat).length).toNat =
          (xs.take pud.avail.toNat).length := by
        rw [BitVec.toNat_ofNat, Nat.mod_eq_of_lt (by omega)]
      rcases @audioWrite_eq _ _
        { pud with
          buf := some { memory with
            samples := place memory.samples pud.bufp.toNat (xs.take pud.avail.toNat) }
          bufp := pud.bufp + .ofNat 32 (xs.take pud.avail.toNat).length
          touched }
        _ rfl direction ys with ⟨_, isSecond⟩
      have nextLe : (BitVec.ofNat 32 (xs.take pud.avail.toNat).length).toNat ≤
          pud.avail.toNat := by
        rw [isNat]
        exact firstLe
      have isFirstIndex := bufp_advance nextLe
      rw [avail_advance nextLe, isNat] at isSecond
      have isTake : (xs ++ ys).take pud.avail.toNat = xs.take pud.avail.toNat ++
          ys.take (pud.avail.toNat - (xs.take pud.avail.toNat).length) := by
        rw [List.take_append, List.length_take]
        congr 2
        omega
      rw [Fallible.bind_of_ok isWhole, Fallible.bind_of_ok isFirst,
        Fallible.bind_of_ok isSecond, isTake]
      have secondLe : (ys.take
          (pud.avail.toNat - (xs.take pud.avail.toNat).length)).length ≤
          pud.avail.toNat - (xs.take pud.avail.toNat).length := List.length_take_le _ _
      generalize xs.take pud.avail.toNat =
        one at firstLe isNat nextLe isFirstIndex secondLe
      generalize ys.take (pud.avail.toNat - one.length) = two at secondLe
      rw [isNat] at isFirstIndex
      constructor
      · show Except.ok _ = Except.ok _
        rw [total_append, @total_written _ _ pud _ firstLe,
          @total_written _ _ pud two.length (by omega),
          @total_written _ _ pud (one ++ two).length (by rw [List.length_append]; omega),
          List.length_append]
      · simp only [Fallible.pure_apply, Pud.entry,
          isFirstIndex, place_append, List.length_append,
          BitVec.ofNat_add, BitVec.add_assoc]

theorem audioRead_output (arg : Option LuaInteger) {checkstack : BitVec 32 → Bool}
    (isBuf : pud.buf = some memory) (isOutput : pud.direction = .output) :
    audioRead (.ok arg) checkstack pud =
      (.error "operation allowed only on input ports", pud) := by
  rw [audioRead, Fallible.bind_of_ok (optInteger_ok arg _ _),
    Fallible.bind_of_ok (checkBuffer_of_buf isBuf),
    Fallible.bind_of_error (checkIsInput_of_output isOutput)]

/-- Samples that are read in two parts are those that are read at once. -/
theorem readCount_add {m n : BitVec 32} (fits : m.toNat + n.toNat < 4294967296)
    {middle : Pud Sample Events}
    (isAvail : middle.avail.toNat =
      pud.avail.toNat - (readCount pud (m.setWidth 64)).toNat) :
    (readCount pud ((m + n).setWidth 64)).toNat =
      (readCount pud (m.setWidth 64)).toNat +
        (readCount middle (n.setWidth 64)).toNat := by
  rw [readCount_toNat] at isAvail
  have isSum : (((m + n).setWidth 64).setWidth 32).toNat =
      m.toNat + n.toNat := by bv_omega
  have isFirst : ((m.setWidth 64).setWidth 32).toNat = m.toNat := by bv_omega
  have isSecond : ((n.setWidth 64).setWidth 32).toNat = n.toNat := by bv_omega
  rw [isFirst] at isAvail
  rw [readCount_toNat, readCount_toNat, readCount_toNat,
    isSum, isFirst, isSecond, isAvail]
  omega

/-- If the Lua stack can grow by the number of samples that are read at once, reading
them in two parts has the effect of reading them at once. -/
theorem audioRead_split (isBuf : pud.buf = some memory) {m n : BitVec 32}
    (fits : m.toNat + n.toNat < 4294967296) {checkstack : BitVec 32 → Bool}
    (mono : ∀ fewer more, fewer ≤ more → checkstack more = true → checkstack fewer = true)
    (grows : pud.avail ≠ 0 → checkstack (readCount pud ((m + n).setWidth 64)) = true) :
    SameOutcome
      ((do return samples (← audioRead (.ok (some ((m + n).setWidth 64))) checkstack) :
        PudCall Sample Events (List Sample)) pud)
      ((do
        let one ← audioRead (.ok (some (m.setWidth 64))) checkstack
        let two ← audioRead (.ok (some (n.setWidth 64))) checkstack
        return samples (one ++ two) : PudCall Sample Events (List Sample)) pud) := by
  cases direction : pud.direction with
  | output =>
      rw [Fallible.bind_of_error (audioRead_output _ isBuf direction),
        Fallible.bind_of_error (audioRead_output _ isBuf direction)]
      exact ⟨rfl, rfl⟩
  | input =>
      have firstLe : (readCount pud (m.setWidth 64)).toNat ≤ pud.avail.toNat := by
        rw [readCount_toNat]
        exact Nat.min_le_right _ _
      have isMiddle (touched : List Nat) :
          (Pud.avail { pud with bufp :=
            pud.bufp + readCount pud (m.setWidth 64), touched }).toNat =
            pud.avail.toNat - (readCount pud (m.setWidth 64)).toNat :=
              avail_advance firstLe
      have isSum (touched : List Nat) := readCount_add fits (isMiddle touched)
      rcases audioRead_eq isBuf direction ((m + n).setWidth 64) grows with
        ⟨whole, _, isWhole, wholeSamples⟩
      have firstGrows : pud.avail ≠ 0 →
          checkstack (readCount pud (m.setWidth 64)) = true := by
        intro notAtEnd
        have sum := isSum []
        exact mono _ _ (by rw [BitVec.le_def]; omega) (grows notAtEnd)
      rcases audioRead_eq isBuf direction (m.setWidth 64) firstGrows with
        ⟨first, touched, isFirst, firstSamples⟩
      have sum := isSum touched
      have secondGrows : Pud.avail
            { pud with bufp := pud.bufp + readCount pud (m.setWidth 64), touched } ≠ 0 →
          checkstack (readCount
            { pud with bufp := pud.bufp + readCount pud (m.setWidth 64), touched }
            (n.setWidth 64)) = true := by
        intro notAtEnd
        have isSome : pud.avail ≠ 0 := by
          intro isZero
          apply notAtEnd
          apply BitVec.eq_of_toNat_eq
          rw [isMiddle, isZero]
          exact Nat.zero_sub _
        exact mono _ _ (by rw [BitVec.le_def]; omega) (grows isSome)
      rcases @audioRead_eq _ _
        { pud with bufp := pud.bufp + readCount pud (m.setWidth 64), touched }
          memory isBuf
        direction (n.setWidth 64) checkstack secondGrows with
          ⟨second, _, isSecond, secondSamples⟩
      have isFirstIndex := bufp_advance firstLe
      rw [Fallible.bind_of_ok isWhole, Fallible.bind_of_ok isFirst,
        Fallible.bind_of_ok isSecond]
      constructor
      · show Except.ok _ = Except.ok _
        rw [wholeSamples, samples_append, firstSamples, secondSamples, sum, extract_add,
          isFirstIndex]
      · have isBufp : readCount pud ((m + n).setWidth 64) =
            readCount pud (m.setWidth 64) +
            readCount { pud with bufp :=
              pud.bufp + readCount pud (m.setWidth 64), touched }
              (n.setWidth 64) := by
          apply BitVec.eq_of_toNat_eq
          have bound := (readCount pud ((m + n).setWidth 64)).isLt
          rw [BitVec.toNat_add, ← sum, Nat.mod_eq_of_lt bound]
        simp only [Fallible.pure_apply, Pud.entry, isBufp, BitVec.add_assoc]

/-- If it can grow for the two parts and not for the whole, this has not the same
effect. -/
theorem audioRead_not_split (isBuf : pud.buf = some memory)
    (isInput : pud.direction = .input)
    {whole first second : LuaInteger} {checkstack : BitVec 32 → Bool}
    (notAtEnd : pud.avail ≠ 0) (full : checkstack (readCount pud whole) = false)
    (firstGrows : checkstack (readCount pud first) = true)
    (secondGrows : checkstack (readCount
      { pud with bufp := pud.bufp + readCount pud first } second) = true) :
    ¬ SameOutcome
      ((do return samples (← audioRead (.ok (some whole)) checkstack) :
        PudCall Sample Events (List Sample)) pud)
      ((do
        let one ← audioRead (.ok (some first)) checkstack
        let two ← audioRead (.ok (some second)) checkstack
        return samples (one ++ two) : PudCall Sample Events (List Sample)) pud) := by
  rcases audioRead_eq isBuf isInput first fun _ =>
    firstGrows with ⟨one, touched, isFirst, _⟩
  rcases @audioRead_eq _ _
    { pud with bufp := pud.bufp + readCount pud first, touched } memory
    isBuf isInput second checkstack fun _ => secondGrows with ⟨two, _, isSecond, _⟩
  rw [Fallible.bind_of_error (audioRead_full isBuf isInput whole notAtEnd full),
    Fallible.bind_of_ok isFirst, Fallible.bind_of_ok isSecond]
  intro same
  cases same.returned

/-- Clearing samples has the effect of writing zeros. -/
theorem audioClear_zeros [Zero Sample] (isBuf : pud.buf = some memory)
    (count : BitVec 32) :
    SameOutcome
      ((do return total (← audioClear (.ok (some (count.setWidth 64)))) :
        PudCall Sample Events Nat) pud)
      ((do return total (← audioWrite ((List.replicate count.toNat 0).map some)) :
        PudCall Sample Events Nat) pud) := by
  cases direction : pud.direction with
  | input =>
      have isClear : audioClear (.ok (some (count.setWidth 64))) pud =
          (.error "operation allowed only on output ports", pud) := by
        rw [audioClear, Fallible.bind_of_ok (checkBuffer_of_buf isBuf),
          Fallible.bind_of_error (checkIsOutput_of_input direction)]
      rw [Fallible.bind_of_error isClear, Fallible.bind_of_error
        (audioWrite_input _ isBuf direction)]
      exact ⟨rfl, rfl⟩
  | output =>
      have isCount : (count.setWidth 64).setWidth 32 = count := by
        rw [BitVec.setWidth_setWidth_of_le _ (by decide), BitVec.setWidth_eq]
      have clears := audioClear_eq isBuf direction (count.setWidth 64)
      rcases audioWrite_eq isBuf direction (List.replicate count.toNat 0) with
        ⟨_, isWritten⟩
      rw [List.take_replicate, List.length_replicate, Nat.min_comm] at isWritten
      rw [isCount] at clears
      have le : min count.toNat pud.avail.toNat ≤ pud.avail.toNat := Nat.min_le_right _ _
      generalize min count.toNat pud.avail.toNat = cleared at clears isWritten le
      cases isClear : audioClear (.ok (some (count.setWidth 64))) pud with
      | mk result after =>
          rw [isClear] at clears
          rcases clears with ⟨isResult, isAfter⟩
          cases isResult
          rw [Fallible.bind_of_ok isClear, Fallible.bind_of_ok isWritten]
          constructor
          · have bound := pud.avail.isLt
            show Except.ok ((BitVec.ofNat 32 cleared).toNat + 0) = Except.ok _
            rw [total_written le, BitVec.toNat_ofNat, Nat.mod_eq_of_lt (by omega)]
            rfl
          · exact isAfter

end Parts

/-- Writing and reading in parts, and clearing, have the effect of one transfer; only a
read for which the Lua stack cannot grow raises an error, and changes nothing. -/
theorem transfers_split [Zero Sample] (pud : Pud Sample Events)
    (memory : Memory Sample Events) (isBuf : pud.buf = some memory) :
    (∀ xs ys : List Sample, SameOutcome
      ((do return total (← audioWrite ((xs ++ ys).map some)) : PudCall Sample Events Nat)
        pud)
      ((do
        let one ← audioWrite (xs.map some)
        let two ← audioWrite (ys.map some)
        return total (one ++ two) : PudCall Sample Events Nat) pud)) ∧
    (∀ (m n : BitVec 32) (checkstack : BitVec 32 → Bool), m.toNat + n.toNat < 4294967296 →
      (∀ fewer more, fewer ≤ more → checkstack more = true → checkstack fewer = true) →
      ((pud.avail ≠ 0 → checkstack (readCount pud ((m + n).setWidth 64)) = true) →
      SameOutcome
        ((do return samples (← audioRead (.ok (some ((m + n).setWidth 64))) checkstack) :
          PudCall Sample Events (List Sample)) pud)
        ((do
          let one ← audioRead (.ok (some (m.setWidth 64))) checkstack
          let two ← audioRead (.ok (some (n.setWidth 64))) checkstack
          return samples (one ++ two) : PudCall Sample Events (List Sample)) pud)) ∧
      (pud.direction = .input → pud.avail ≠ 0 →
        checkstack (readCount pud ((m + n).setWidth 64)) = false →
        audioRead (.ok (some ((m + n).setWidth 64))) checkstack pud =
          (.error "stack overflow (cannot grow Lua stack)", pud))) ∧
    ∀ count : BitVec 32, SameOutcome
      ((do return total (← audioClear (.ok (some (count.setWidth 64)))) :
        PudCall Sample Events Nat) pud)
      ((do return total (← audioWrite ((List.replicate count.toNat 0).map some)) :
        PudCall Sample Events Nat) pud) := by
  refine ⟨audioWrite_split isBuf, ?_, audioClear_zeros isBuf⟩
  intro m n checkstack fits mono
  constructor
  · exact fun grows => audioRead_split isBuf fits mono grows
  · exact fun isInput notAtEnd full => audioRead_full isBuf isInput _ notAtEnd full

theorem transfers_split_fourSamples : SameOutcome
    ((do return total (← audioWrite (([1, 2] ++ [3, 4, 5]).map some)) : PudCall
      Int Unit Nat)
      (fourSamples 0).pud)
    ((do
      let one ← audioWrite ([1, 2].map some)
      let two ← audioWrite ([3, 4, 5].map some)
      return total (one ++ two) : PudCall Int Unit Nat) (fourSamples 0).pud) :=
  (transfers_split (fourSamples 0).pud ⟨fun _ => 9, ()⟩ rfl).1 [1, 2] [3, 4, 5]

/-- A source with many samples. -/
def manySamples : Pud Int Unit :=
  { (Pud.new 7 .audio .input : Pud Int Unit) with
    buf := some ⟨fun _ => 5, ()⟩
    nframes := 4096 }

/-- A Lua stack on which there is room for some values. -/
def roomOnStack (count : BitVec 32) : Bool := decide (count ≤ 3000)

/-- There is room for half of the samples at a time, and not for all of them. -/
theorem not_transfers_split : ¬ SameOutcome
    ((do return samples (← audioRead (.ok (some ((2048 + 2048 : BitVec 32).setWidth 64)))
      roomOnStack) : PudCall Int Unit (List Int)) manySamples)
    ((do
      let one ← audioRead (.ok (some ((2048 : BitVec 32).setWidth 64))) roomOnStack
      let two ← audioRead (.ok (some ((2048 : BitVec 32).setWidth 64))) roomOnStack
      return samples (one ++ two) : PudCall Int Unit (List Int)) manySamples) := by
  exact audioRead_not_split rfl rfl (by decide) (by decide) (by decide) (by decide)

end LuaJack.Buffer
