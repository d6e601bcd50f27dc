import Mathlib.Logic.Function.Basic
import Mathlib.Tactic.Common

/-!
# Cells

Memory as a function from indices to values, with lists of values that are stored in it
and taken from it. -/

namespace LuaJack.Cells

variable {α : Type*} {cells source : Nat → α} {first count : Nat} {list : List α}

/-- The cells after a list of values is stored from an index on. -/
def place (cells : Nat → α) (first : Nat) (list : List α) : Nat → α := fun index =>
  if first ≤ index then list.getD (index - first) (cells index) else cells index

/-- The values from an index on. -/
def extract (cells : Nat → α) (first count : Nat) : List α :=
  (List.range' first count).map cells

@[simp] theorem place_nil : place cells first [] = cells := by
  funext index
  unfold place
  split
  · rfl
  · rfl

/-- The values are stored one after the other. -/
theorem place_cons (value : α) : place cells first (value :: list) =
    place (Function.update cells first value) (first + 1) list := by
  funext index
  unfold place
  rcases Nat.lt_trichotomy index first with before | same | after
  · rw [if_neg (by omega), if_neg (by omega), Function.update_of_ne (Nat.ne_of_lt before)]
  · rw [if_pos (by omega), if_neg (by omega), same, Nat.sub_self, Function.update_self]
    rfl
  · have isSucc : index - first = (index - (first + 1)) + 1 := by omega
    rw [if_pos (by omega), if_pos (by omega), isSucc, List.getD_cons_succ,
      Function.update_of_ne (Nat.ne_of_gt after)]

/-- Values are stored in two parts. -/
theorem place_append (other : List α) : place cells first (list ++ other) =
    place (place cells first list) (first + list.length) other := by
  induction list generalizing cells first with
  | nil => rw [List.nil_append, place_nil, List.length_nil, Nat.add_zero]
  | cons value list ih =>
      rw [List.cons_append, place_cons, ih, place_cons,
        List.length_cons, Nat.add_comm list.length, Nat.add_assoc]

@[simp] theorem extract_length : (extract source first count).length = count := by
  rw [extract, List.length_map, List.length_range']

theorem extract_succ :
    extract source first (count + 1) =
      source first :: extract source (first + 1) count := by
  rw [extract, List.range'_succ]
  rfl

/-- Values are taken in two parts. -/
theorem extract_add (other : Nat) : extract source first (count + other) =
    extract source first count ++ extract source (first + count) other := by
  rw [extract, extract, extract, ← List.map_append, List.range'_append_1]

theorem extract_const (value : α) :
    extract (fun _ => value) first count = List.replicate count value := by
  rw [extract, List.map_const', List.length_range']

theorem extract_getElem? {start : Nat} (index : Nat) :
    (extract source start count)[index]? =
      if index < count then some (source (start + index))
      else none := by
  rw [extract, List.getElem?_map]
  split
  next less => rw [List.getElem?_range' less, Nat.one_mul, Option.map_some]
  next notLess =>
    rw [List.getElem?_eq_none (by rw [List.length_range']; exact Nat.not_lt.mp notLess)]
    rfl

/-- What the cells hold after values are copied from another place. -/
theorem place_extract {start : Nat} (index : Nat) :
    place cells first (extract source start count) index =
      if first ≤ index ∧ index < first + count then source (start + (index - first))
      else cells index := by
  unfold place
  by_cases le : first ≤ index
  · rw [if_pos le, List.getD_eq_getElem?_getD, extract_getElem?]
    by_cases less : index - first < count
    · rw [if_pos less, if_pos ⟨le, by omega⟩]
      rfl
    · rw [if_neg less, if_neg (by omega)]
      rfl
  · rw [if_neg le, if_neg fun both => le both.1]

end LuaJack.Cells
