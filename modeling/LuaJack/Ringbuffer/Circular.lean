import Mathlib.Data.List.Range
import Mathlib.Data.Nat.ModEq
import Mathlib.Tactic.Common

/-!
# Circular buffers

A circular buffer is an array of cells with a read and a write position.  It
holds at most one element less than it has cells, so that equal positions mean
an empty buffer.  Both ends are accessed either by copying, or in place through
a vector of two segments that is split at the end of the array.

Everything is stated through *windows*: the elements found by walking a number
of cells from a position, wrapping at the end.  The readable elements are a
window at the read position; the cells that follow, up to the reserved one, are
free.
-/

namespace LuaJack.Ringbuffer

variable {α : Type}

/-- A circular buffer. Only the cells below `size` belong to the array. -/
structure Circular (α : Type) where
  size : Nat
  cells : Nat → α
  read : Nat
  write : Nat
  read_lt : read < size
  write_lt : write < size

/-- A contiguous part of the array, given by its first cell and its length. -/
structure Segment where
  start : Nat
  len : Nat
  deriving DecidableEq, Repr

namespace Circular

theorem size_pos (buffer : Circular α) : 0 < buffer.size :=
  Nat.zero_lt_of_lt buffer.read_lt

/-- The `count` elements found from cell `start` on, wrapping at the end. -/
def window (buffer : Circular α) (start count : Nat) : List α :=
  (List.range count).map fun i => buffer.cells ((start + i) % buffer.size)

/-- Number of elements that can be read. -/
def readSpace (buffer : Circular α) : Nat :=
  (buffer.write + buffer.size - buffer.read) % buffer.size

/-- Number of elements that can be written; one cell stays free. -/
def writeSpace (buffer : Circular α) : Nat :=
  buffer.size - 1 - buffer.readSpace

/-- The elements that can be read, first to last. -/
def readable (buffer : Circular α) : List α :=
  buffer.window buffer.read buffer.readSpace

/-- Split `count` cells from `start` on at the end of the array. -/
def split (buffer : Circular α) (start count : Nat) : Segment × Segment :=
  if buffer.size < start + count then
    (⟨start, buffer.size - start⟩, ⟨0, start + count - buffer.size⟩)
  else
    (⟨start, count⟩, ⟨0, 0⟩)

/-- The segments that hold the readable elements. -/
def readVector (buffer : Circular α) : Segment × Segment :=
  buffer.split buffer.read buffer.readSpace

/-- The segments of the writable cells. -/
def writeVector (buffer : Circular α) : Segment × Segment :=
  buffer.split buffer.write buffer.writeSpace

/-- Overwrite one cell. -/
def store (buffer : Circular α) (cell : Nat) (value : α) : Circular α :=
  { buffer with cells := Function.update buffer.cells cell value }

/-- Overwrite the cells from `start` on, wrapping at the end. -/
def fill (buffer : Circular α) (start : Nat) : List α → Circular α
  | [] => buffer
  | value :: values =>
      (buffer.store (start % buffer.size) value).fill (start + 1) values

/-- Give up the first `count` readable elements. -/
def readAdvance (buffer : Circular α) (count : Nat) : Circular α :=
  { buffer with
    read := (buffer.read + count) % buffer.size
    read_lt := Nat.mod_lt _ buffer.size_pos }

/-- Make the next `count` writable cells readable. -/
def writeAdvance (buffer : Circular α) (count : Nat) : Circular α :=
  { buffer with
    write := (buffer.write + count) % buffer.size
    write_lt := Nat.mod_lt _ buffer.size_pos }

/-- Copy the first `count` readable elements, or as many as there are. -/
def peek (buffer : Circular α) (count : Nat) : List α :=
  buffer.readable.take count

/-- Append as many of the values as there is space for; return how many. -/
def push (buffer : Circular α) (values : List α) : Nat × Circular α :=
  let count := min values.length buffer.writeSpace
  (count, (buffer.fill buffer.write (values.take count)).writeAdvance count)

/-- A new buffer, all of whose cells contain `value`. -/
def create (size : Nat) (positive : 0 < size) (value : α) : Circular α where
  size
  cells := fun _ => value
  read := 0
  write := 0
  read_lt := positive
  write_lt := positive

/-- Move both positions to the first cell. -/
def reset (buffer : Circular α) : Circular α :=
  { buffer with
    read := 0
    write := 0
    read_lt := buffer.size_pos
    write_lt := buffer.size_pos }

/-! ## Fields after an update -/

@[simp] theorem store_size (buffer : Circular α) (cell : Nat) (value : α) :
    (buffer.store cell value).size = buffer.size := rfl

@[simp] theorem store_read (buffer : Circular α) (cell : Nat) (value : α) :
    (buffer.store cell value).read = buffer.read := rfl

@[simp] theorem store_write (buffer : Circular α) (cell : Nat) (value : α) :
    (buffer.store cell value).write = buffer.write := rfl

@[simp] theorem store_readSpace (buffer : Circular α) (cell : Nat) (value : α) :
    (buffer.store cell value).readSpace = buffer.readSpace := rfl

@[simp] theorem store_writeSpace (buffer : Circular α) (cell : Nat) (value : α) :
    (buffer.store cell value).writeSpace = buffer.writeSpace := rfl

@[simp] theorem readAdvance_size (buffer : Circular α) (count : Nat) :
    (buffer.readAdvance count).size = buffer.size := rfl

@[simp] theorem readAdvance_write (buffer : Circular α) (count : Nat) :
    (buffer.readAdvance count).write = buffer.write := rfl

@[simp] theorem writeAdvance_size (buffer : Circular α) (count : Nat) :
    (buffer.writeAdvance count).size = buffer.size := rfl

@[simp] theorem writeAdvance_read (buffer : Circular α) (count : Nat) :
    (buffer.writeAdvance count).read = buffer.read := rfl

@[simp] theorem readAdvance_window (buffer : Circular α) (moved start count : Nat) :
    (buffer.readAdvance moved).window start count = buffer.window start count := rfl

@[simp] theorem writeAdvance_window (buffer : Circular α) (moved start count : Nat) :
    (buffer.writeAdvance moved).window start count = buffer.window start count := rfl

/-! ## Windows -/

@[simp] theorem window_length (buffer : Circular α) (start count : Nat) :
    (buffer.window start count).length = count := by
  simp [window]

@[simp] theorem window_zero (buffer : Circular α) (start : Nat) :
    buffer.window start 0 = [] := rfl

theorem window_add (buffer : Circular α) (start first second : Nat) :
    buffer.window start (first + second) =
      buffer.window start first ++ buffer.window (start + first) second := by
  simp only [window, List.range_add, List.map_append, List.map_map]
  congr 1
  apply List.map_congr_left
  intro i _
  simp only [Function.comp]
  rw [Nat.add_assoc]

@[simp] theorem window_mod (buffer : Circular α) (start count : Nat) :
    buffer.window (start % buffer.size) count = buffer.window start count := by
  simp [window]

theorem window_take (buffer : Circular α) {start count fewer : Nat} (le : fewer ≤ count) :
    (buffer.window start count).take fewer = buffer.window start fewer := by
  have whole : count = fewer + (count - fewer) := by omega
  rw [whole, window_add]
  exact List.take_left' (window_length ..)

theorem window_drop (buffer : Circular α) {start count dropped : Nat}
    (le : dropped ≤ count) :
    (buffer.window start count).drop dropped =
      buffer.window (start + dropped) (count - dropped) := by
  have whole : count = dropped + (count - dropped) := by omega
  conv_lhs => rw [whole, window_add]
  exact List.drop_left' (window_length ..)

/-- Two offsets from one position that are less than a turn apart are different cells. -/
theorem offset_ne {size start i j : Nat} (lt : i < j) (turn : j - i < size) :
    (start + i) % size ≠ (start + j) % size := by
  intro equal
  have divides : size ∣ (start + j) - (start + i) :=
    (Nat.modEq_iff_dvd' (by omega)).mp equal
  have bounded := Nat.le_of_dvd (by omega) divides
  omega

/-- Storing outside a window does not change it. -/
theorem window_store_of_outside (buffer : Circular α)
    (start count offset : Nat) (value : α)
    (outside : count ≤ offset) (turn : offset < buffer.size) :
    (buffer.store ((start + offset) % buffer.size) value).window start count =
      buffer.window start count := by
  apply List.map_congr_left
  intro i inside
  have lt : i < count := List.mem_range.mp inside
  have different : (start + i) % buffer.size ≠ (start + offset) % buffer.size :=
    offset_ne (by omega) (by omega)
  exact Function.update_of_ne different ..

/-- Storing right after a window extends it. -/
theorem window_store (buffer : Circular α) (start count : Nat) (value : α)
    (turn : count < buffer.size) :
    (buffer.store ((start + count) % buffer.size) value).window start (count + 1) =
      buffer.window start count ++ [value] := by
  rw [window_add, window_store_of_outside buffer start count count value le_rfl turn]
  simp [window, store]

/-! ## Spaces -/

theorem readSpace_lt (buffer : Circular α) : buffer.readSpace < buffer.size :=
  Nat.mod_lt _ buffer.size_pos

theorem readSpace_add_writeSpace (buffer : Circular α) :
    buffer.readSpace + buffer.writeSpace + 1 = buffer.size := by
  have := buffer.readSpace_lt
  unfold writeSpace
  omega

/-- The write position lies `readSpace` cells after the read position. -/
theorem write_eq (buffer : Circular α) :
    buffer.write = (buffer.read + buffer.readSpace) % buffer.size := by
  have := buffer.read_lt
  have := buffer.write_lt
  rw [readSpace, Nat.add_mod_mod]
  have turn : buffer.read + (buffer.write + buffer.size - buffer.read) =
      buffer.write + buffer.size := by omega
  rw [turn, Nat.add_mod_right, Nat.mod_eq_of_lt buffer.write_lt]

theorem readSpace_of_write {buffer : Circular α} {space : Nat} (lt : space < buffer.size)
    (position : buffer.write = (buffer.read + space) % buffer.size) :
    buffer.readSpace = space := by
  have read_lt := buffer.read_lt
  rw [readSpace, position]
  by_cases wraps : buffer.read + space < buffer.size
  · rw [Nat.mod_eq_of_lt wraps]
    have : buffer.read + space + buffer.size - buffer.read =
        space + buffer.size := by omega
    rw [this, Nat.add_mod_right, Nat.mod_eq_of_lt lt]
  · have : (buffer.read + space) % buffer.size = buffer.read + space - buffer.size := by
      rw [Nat.mod_eq_sub_mod (by omega), Nat.mod_eq_of_lt (by omega)]
    rw [this]
    have : buffer.read + space - buffer.size + buffer.size - buffer.read =
        space := by omega
    rw [this, Nat.mod_eq_of_lt lt]

@[simp] theorem readable_length (buffer : Circular α) :
    buffer.readable.length = buffer.readSpace :=
  window_length ..

theorem getElem?_readable (buffer : Circular α) {i : Nat} (lt : i < buffer.readSpace) :
    buffer.readable[i]? = some (buffer.cells ((buffer.read + i) % buffer.size)) := by
  simp [readable, window, lt]

/-- The readable elements followed by free cells are one window. -/
theorem readable_append_window (buffer : Circular α) (count : Nat) :
    buffer.readable ++ buffer.window buffer.write count =
      buffer.window buffer.read (buffer.readSpace + count) := by
  rw [window_add, readable]
  congr 1
  conv_lhs => rw [write_eq, window_mod]

@[simp] theorem readable_create (size : Nat) (positive : 0 < size) (value : α) :
    (create size positive value).readable = [] := by
  apply List.eq_nil_of_length_eq_zero
  rw [readable_length, readSpace]
  simp [create]

@[simp] theorem readable_reset (buffer : Circular α) : buffer.reset.readable = [] := by
  apply List.eq_nil_of_length_eq_zero
  rw [readable_length, readSpace]
  simp [reset]

/-! ## Reading -/

theorem readSpace_readAdvance (buffer : Circular α) {count : Nat}
    (le : count ≤ buffer.readSpace) :
    (buffer.readAdvance count).readSpace = buffer.readSpace - count := by
  have := buffer.readSpace_lt
  apply readSpace_of_write
  · simp only [readAdvance_size]
    omega
  · simp only [readAdvance, Nat.mod_add_mod]
    rw [buffer.write_eq]
    congr 1
    omega

theorem writeSpace_readAdvance (buffer : Circular α) {count : Nat}
    (le : count ≤ buffer.readSpace) :
    (buffer.readAdvance count).writeSpace = buffer.writeSpace + count := by
  have := buffer.readSpace_lt
  unfold writeSpace
  rw [readSpace_readAdvance buffer le, readAdvance_size]
  omega

theorem readable_readAdvance (buffer : Circular α) {count : Nat}
    (le : count ≤ buffer.readSpace) :
    (buffer.readAdvance count).readable = buffer.readable.drop count := by
  rw [readable, readSpace_readAdvance buffer le, readable, window_drop buffer le,
    readAdvance_window]
  exact window_mod ..

/-! ## Writing -/

theorem readSpace_writeAdvance (buffer : Circular α) {count : Nat}
    (le : count ≤ buffer.writeSpace) :
    (buffer.writeAdvance count).readSpace = buffer.readSpace + count := by
  have := buffer.readSpace_add_writeSpace
  apply readSpace_of_write
  · simp only [writeAdvance_size]
    omega
  · simp only [writeAdvance]
    rw [buffer.write_eq, Nat.mod_add_mod]
    congr 1
    omega

/-- Advancing the write position appends what the passed cells contain. -/
theorem readable_writeAdvance (buffer : Circular α) {count : Nat}
    (le : count ≤ buffer.writeSpace) :
    (buffer.writeAdvance count).readable =
      buffer.readable ++ buffer.window buffer.write count := by
  rw [readable_append_window, readable, readSpace_writeAdvance buffer le]
  rfl

/-- Storing into a free cell leaves the readable elements alone. -/
theorem readable_store (buffer : Circular α) {offset : Nat} (value : α)
    (free : offset < buffer.writeSpace) :
    (buffer.store ((buffer.write + offset) % buffer.size) value).readable =
      buffer.readable := by
  have := buffer.readSpace_add_writeSpace
  have cell : (buffer.write + offset) % buffer.size =
      (buffer.read + (buffer.readSpace + offset)) % buffer.size := by
    conv_lhs => rw [write_eq, Nat.mod_add_mod, Nat.add_assoc]
  rw [cell, readable, store_read, store_readSpace]
  exact window_store_of_outside buffer _ _ _ value (by omega) (by omega)

@[simp] theorem fill_size (buffer : Circular α) (start : Nat) (values : List α) :
    (buffer.fill start values).size = buffer.size := by
  induction values generalizing buffer start with
  | nil => rfl
  | cons value values ih => rw [fill, ih, store_size]

@[simp] theorem fill_read (buffer : Circular α) (start : Nat) (values : List α) :
    (buffer.fill start values).read = buffer.read := by
  induction values generalizing buffer start with
  | nil => rfl
  | cons value values ih => rw [fill, ih, store_read]

@[simp] theorem fill_write (buffer : Circular α) (start : Nat) (values : List α) :
    (buffer.fill start values).write = buffer.write := by
  induction values generalizing buffer start with
  | nil => rfl
  | cons value values ih => rw [fill, ih, store_write]

@[simp] theorem fill_readSpace (buffer : Circular α) (start : Nat) (values : List α) :
    (buffer.fill start values).readSpace = buffer.readSpace := by
  simp [readSpace]

@[simp] theorem fill_writeSpace (buffer : Circular α) (start : Nat) (values : List α) :
    (buffer.fill start values).writeSpace = buffer.writeSpace := by
  simp [writeSpace]

/-- Filling in two steps. -/
theorem fill_append (buffer : Circular α) (start : Nat) (first second : List α) :
    buffer.fill start (first ++ second) =
      (buffer.fill start first).fill (start + first.length) second := by
  induction first generalizing buffer start with
  | nil => rfl
  | cons value first ih =>
      rw [List.cons_append, fill, fill, ih, List.length_cons, Nat.add_assoc,
        Nat.add_comm 1 first.length]

/-- Filling free cells behind those already staged extends what is staged and
leaves the readable elements alone. -/
theorem fill_staged (buffer : Circular α) (values : List α) (offset : Nat)
    (fits : offset + values.length ≤ buffer.writeSpace) :
    (buffer.fill (buffer.write + offset) values).readable = buffer.readable ∧
    (buffer.fill (buffer.write + offset) values).window buffer.write
      (offset + values.length) =
      buffer.window buffer.write offset ++ values := by
  induction values generalizing buffer offset with
  | nil => simp [fill]
  | cons value values ih =>
      have bound := buffer.readSpace_add_writeSpace
      simp only [List.length_cons] at fits
      rw [fill, Nat.add_assoc]
      let stored := buffer.store ((buffer.write + offset) % buffer.size) value
      have tail := ih stored (offset + 1) (by simp only [stored, store_writeSpace]; omega)
      have staged : stored.window buffer.write (offset + 1) =
          buffer.window buffer.write offset ++ [value] :=
        window_store buffer _ _ value (by omega)
      have kept : stored.readable = buffer.readable :=
        readable_store buffer value (by omega)
      rw [show (stored.write = buffer.write) from rfl, kept, staged] at tail
      refine ⟨tail.1, ?_⟩
      have total : offset + (value :: values).length = offset + 1 + values.length := by
        simp only [List.length_cons]
        omega
      rw [total, tail.2, List.append_assoc]
      rfl

@[simp] theorem push_read (buffer : Circular α) (values : List α) :
    (buffer.push values).2.read = buffer.read := by
  simp [push]

/-- Pushing values for which there is space appends all of them. -/
theorem push_of_fits (buffer : Circular α) {values : List α}
    (fits : values.length ≤ buffer.writeSpace) :
    (buffer.push values).1 = values.length ∧
    (buffer.push values).2.readable = buffer.readable ++ values ∧
    (buffer.push values).2.size = buffer.size := by
  have staged := buffer.fill_staged values 0 (by omega)
  simp only [Nat.add_zero, Nat.zero_add, window_zero, List.nil_append] at staged
  simp only [push, Nat.min_eq_left fits, List.take_length]
  refine ⟨trivial, ?_, by simp⟩
  rw [readable_writeAdvance _ (by simpa using fits), fill_write, staged.1, staged.2]

/-- The spaces are determined by the size and the number of readable elements. -/
theorem writeSpace_eq (buffer : Circular α) :
    buffer.writeSpace = buffer.size - 1 - buffer.readable.length := by
  rw [readable_length, writeSpace]

/-! ## Vectors -/

/-- The two segments cover `count` cells from `start` on. -/
structure Covers (buffer : Circular α) (start count : Nat) (vector : Segment × Segment) :
    Prop where
  total : vector.1.len + vector.2.len = count
  first : ∀ i < vector.1.len, vector.1.start + i = (start + i) % buffer.size
  second : ∀ i < vector.2.len,
    vector.2.start + i = (start + vector.1.len + i) % buffer.size

theorem split_covers (buffer : Circular α)
    {start count : Nat} (inside : start < buffer.size)
    (turn : count < buffer.size) :
    buffer.Covers start count (buffer.split start count) := by
  unfold split
  split
  next wraps =>
    constructor
    · simp only
      omega
    · intro i lt
      simp only at lt ⊢
      rw [Nat.mod_eq_of_lt (by omega)]
    · intro i lt
      simp only at lt ⊢
      have : start + (buffer.size - start) + i = i + buffer.size := by omega
      rw [this, Nat.add_mod_right, Nat.mod_eq_of_lt (by omega), Nat.zero_add]
  next fits =>
    constructor
    · simp
    · intro i lt
      simp only at lt ⊢
      rw [Nat.mod_eq_of_lt (by omega)]
    · intro i lt
      simp at lt

theorem readVector_covers (buffer : Circular α) :
    buffer.Covers buffer.read buffer.readSpace buffer.readVector :=
  buffer.split_covers buffer.read_lt buffer.readSpace_lt

theorem writeVector_covers (buffer : Circular α) :
    buffer.Covers buffer.write buffer.writeSpace buffer.writeVector := by
  have := buffer.readSpace_add_writeSpace
  exact buffer.split_covers buffer.write_lt (by omega)

end Circular

end LuaJack.Ringbuffer
