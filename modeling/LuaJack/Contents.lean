import Mathlib.Data.List.Nodup
import Mathlib.Logic.Function.Basic
import Mathlib.Tactic.Common

/-!
# The contents of a heap

A heap has something at some addresses.  A data structure that is spread over a heap is
the list of its cells, and what is written elsewhere does not concern it.  A function on
a heap goes wrong when it accesses something that is not there, and when it takes more
rounds than it may. -/

namespace LuaJack

universe u v

/-- What can go wrong: an access to something that is not allocated, or too many
rounds. -/
inductive HeapFault where
  | invalid
  | rounds
  deriving DecidableEq, Repr

variable {Address : Type u} {Cell : Type v}

/-- A heap has the listed cells. -/
def Contains (heap : Address → Option Cell) (cells : List (Address × Cell)) : Prop :=
  ∀ cell ∈ cells, heap cell.1 = some cell.2

namespace Contains

variable {heap other : Address → Option Cell} {cells first second : List (Address × Cell)}
variable {address : Address} {content : Cell}

@[simp] theorem nil : Contains heap [] := fun _ member => by cases member

@[simp] theorem cons : Contains heap ((address, content) :: cells) ↔
    heap address = some content ∧ Contains heap cells := by
  simp [Contains]

@[simp] theorem append :
    Contains heap (first ++ second) ↔ Contains heap first ∧ Contains heap second := by
  simp only [Contains, List.mem_append, or_imp, forall_and]

/-- The order of the cells does not matter. -/
theorem perm (same : first.Perm second) : Contains heap first ↔ Contains heap second := by
  simp only [Contains, same.mem_iff]

/-- Only the addresses of the cells matter. -/
theorem congr (contains : Contains heap cells)
    (same : ∀ address ∈ cells.map Prod.fst, other address = heap address) :
    Contains other cells := by
  intro cell member
  rw [same cell.1 (List.mem_map_of_mem member)]
  exact contains cell member

variable [DecidableEq Address]

/-- What is written at another address does not concern the cells. -/
theorem update (contains : Contains heap cells) (absent : address ∉ cells.map Prod.fst)
    (written : Option Cell) : Contains (Function.update heap address written) cells := by
  apply contains.congr
  intro other member
  apply Function.update_of_ne
  rintro rfl
  exact absent member

end Contains

end LuaJack
