import Mathlib.Data.List.Nodup
import Mathlib.Tactic.Common

/-!
# Colored binary trees

A binary tree with red and black nodes, the paths from its root to one of its subtrees,
and the list of its entries from left to right.  Whatever is done to a node is done on
one side or, with left and right exchanged, on the other one, so nodes are built and
taken apart by sides. -/

namespace LuaJack.RedBlack

universe u

/-- The color of a node. -/
inductive Color where
  | black
  | red
  deriving DecidableEq, Repr

/-- A color that is not red is black. -/
theorem Color.eq_black {color : Color} (notRed : color ≠ .red) : color = .black := by
  cases color with
  | black => rfl
  | red => exact absurd rfl notRed

/-- The two sides of a node. -/
inductive Side where
  | left
  | right
  deriving DecidableEq, Repr

/-- The other side. -/
def Side.opposite : Side → Side
  | .left => .right
  | .right => .left

@[simp] theorem Side.opposite_opposite (side : Side) : side.opposite.opposite = side := by
  cases side <;> rfl

@[simp] theorem Side.opposite_ne (side : Side) : side.opposite ≠ side := by
  cases side <;> decide

/-- A side that is not the one is the other. -/
theorem Side.eq_opposite_of_ne {side other : Side} (different : other ≠ side) :
    other = side.opposite := by
  cases side with
  | left =>
      cases other with
      | left => exact absurd rfl different
      | right => rfl
  | right =>
      cases other with
      | left => rfl
      | right => exact absurd rfl different

/-- A binary tree with colored nodes. -/
inductive Tree (α : Type u) where
  | leaf
  | node (color : Color) (left : Tree α) (entry : α) (right : Tree α)

variable {α : Type u}

namespace Tree

/-- A node, given the subtree on some side and the subtree on the opposite side. -/
def make (side : Side) (color : Color) (near : Tree α)
    (entry : α) (far : Tree α) : Tree α :=
  match side with
  | .left => .node color near entry far
  | .right => .node color far entry near

/-- The subtree on a side. -/
def child : Side → Tree α → Tree α
  | _, .leaf => .leaf
  | .left, .node _ left _ _ => left
  | .right, .node _ _ _ right => right

/-- The color of the root; a tree without nodes counts as black. -/
def color : Tree α → Color
  | .leaf => .black
  | .node color _ _ _ => color

/-- Give the root a color. -/
def recolor (color : Color) : Tree α → Tree α
  | .leaf => .leaf
  | .node _ left entry right => .node color left entry right

/-- The entry at the root. -/
def root : Tree α → Option α
  | .leaf => none
  | .node _ _ entry _ => some entry

/-- The entries, from left to right. -/
def toList : Tree α → List α
  | .leaf => []
  | .node _ left entry right => left.toList ++ entry :: right.toList

/-- The number of nodes on the longest way down. -/
def height : Tree α → Nat
  | .leaf => 0
  | .node _ left _ right => max left.height right.height + 1

variable (side : Side) (nodeColor : Color) (near far tree : Tree α) (entry : α)

@[simp] theorem root_make : (make side nodeColor near entry far).root = some entry := by
  cases side <;> rfl

@[simp] theorem color_make : (make side nodeColor near entry far).color = nodeColor := by
  cases side <;> rfl

@[simp] theorem recolor_make (other : Color) :
    (make side nodeColor near entry far).recolor other =
      make side other near entry far := by
  cases side <;> rfl

@[simp] theorem child_make : (make side nodeColor near entry far).child side = near := by
  cases side <;> rfl

@[simp] theorem child_opposite_make :
    (make side nodeColor near entry far).child side.opposite = far := by
  cases side <;> rfl

/-- The same node, seen from the other side. -/
theorem make_opposite :
    make side.opposite nodeColor near entry far = make side nodeColor far entry near := by
  cases side <;> rfl

/-- Every node is made of its two subtrees. -/
theorem node_eq_make (left right : Tree α) : node nodeColor left entry right =
    make side nodeColor ((node nodeColor left entry right).child side) entry
      ((node nodeColor left entry right).child side.opposite) := by
  cases side <;> rfl

/-- A tree with a root is a node. -/
theorem exists_make_of_root {tree : Tree α}
    {entry : α} (isRoot : tree.root = some entry) :
    ∃ near far, tree = make side tree.color near entry far := by
  cases tree with
  | leaf => cases isRoot
  | node color left other right =>
      cases isRoot
      exact ⟨_, _, node_eq_make side color entry left right⟩

/-- A tree whose root is red has a root. -/
theorem exists_root_of_red {tree : Tree α} (isRed : tree.color = .red) :
    ∃ entry, tree.root = some entry := by
  cases tree with
  | leaf => cases isRed
  | node color left entry right => exact ⟨entry, rfl⟩

@[simp] theorem root_recolor (color : Color) : (tree.recolor color).root = tree.root := by
  cases tree <;> rfl

@[simp] theorem toList_recolor (color : Color) :
    (tree.recolor color).toList = tree.toList := by
  cases tree <;> rfl

@[simp] theorem height_recolor (color : Color) :
    (tree.recolor color).height = tree.height := by
  cases tree <;> rfl

@[simp] theorem child_recolor (color : Color) :
    (tree.recolor color).child side = tree.child side := by
  cases tree with
  | leaf => rfl
  | node color left entry right => cases side <;> rfl

/-- A tree that has its color already keeps it. -/
theorem recolor_of_color_eq {color : Color} {tree : Tree α} (same : tree.color = color) :
    tree.recolor color = tree := by
  cases tree with
  | leaf => rfl
  | node other left entry right =>
      cases same
      rfl

@[simp] theorem color_recolor_black : (tree.recolor .black).color = .black := by
  cases tree <;> rfl

theorem height_make : (make side nodeColor near entry far).height =
    max near.height far.height + 1 := by
  cases side with
  | left => rfl
  | right => rw [Nat.max_comm]; rfl

/-- What is listed on the left of an entry that has a tree on some side and another one
on the opposite side. -/
theorem toList_make : (make side nodeColor near entry far).toList =
    match side with
    | .left => near.toList ++ entry :: far.toList
    | .right => far.toList ++ entry :: near.toList := by
  cases side <;> rfl

/-- The root is one of the entries. -/
theorem mem_toList_of_root {tree : Tree α} {entry : α} (isRoot : tree.root = some entry) :
    entry ∈ tree.toList := by
  cases tree with
  | leaf => cases isRoot
  | node color left other right =>
      cases isRoot
      simp [toList]

/-- The entries depend on the subtrees only through their entries. -/
theorem toList_make_congr {side : Side} {first second : Color} {entry : α}
    {near near' far far' : Tree α} (isNear : near.toList = near'.toList)
    (isFar : far.toList = far'.toList) :
    (make side first near entry far).toList =
      (make side second near' entry far').toList := by
  rw [toList_make, toList_make, isNear, isFar]

/-- A rotation to a side leaves the entries in their order. -/
theorem toList_rotate (upper lower upper' lower' : Color) (first second third : Tree α)
    (elm tmp : α) :
    (make side upper' (make side lower' first elm second) tmp third).toList =
      (make side upper first elm (make side lower second tmp third)).toList := by
  cases side <;> simp [toList_make]

end Tree

/-- A step of a path: the node above, the side on which the path leaves it, and its
subtree on the other side. -/
structure Frame (α : Type u) where
  side : Side
  color : Color
  entry : α
  sibling : Tree α

/-- Put a tree below the node. -/
def Frame.plug (frame : Frame α) (tree : Tree α) : Tree α :=
  Tree.make frame.side frame.color tree frame.entry frame.sibling

/-- A way from a subtree up to the root. -/
abbrev Path (α : Type u) := List (Frame α)

namespace Path

/-- The tree that has a subtree at the lower end of the path. -/
def fill : Path α → Tree α → Tree α
  | [], tree => tree
  | frame :: path, tree => fill path (frame.plug tree)

/-- The entry just above. -/
def parent : Path α → Option α
  | [] => none
  | frame :: _ => some frame.entry

/-- The entries on the left of the subtree. -/
def before : Path α → List α
  | [] => []
  | ⟨.left, _, _, _⟩ :: path => before path
  | ⟨.right, _, entry, sibling⟩ :: path => before path ++ (sibling.toList ++ [entry])

/-- The entries on the right of the subtree. -/
def after : Path α → List α
  | [] => []
  | ⟨.left, _, entry, sibling⟩ :: path => entry :: sibling.toList ++ after path
  | ⟨.right, _, _, _⟩ :: path => after path

variable (path : Path α) (tree : Tree α)

@[simp] theorem fill_nil : fill [] tree = tree := rfl

@[simp] theorem fill_cons (frame : Frame α) :
    fill (frame :: path) tree = fill path (frame.plug tree) := rfl

@[simp] theorem fill_append (lower upper : Path α) :
    fill (lower ++ upper) tree = fill upper (fill lower tree) := by
  induction lower generalizing tree with
  | nil => rfl
  | cons frame lower ih => exact ih (frame.plug tree)

theorem before_append (lower upper : Path α) :
    before (lower ++ upper) = before upper ++ before lower := by
  induction lower with
  | nil => simp [before]
  | cons frame lower ih =>
      rcases frame with ⟨side, color, entry, sibling⟩
      cases side with
      | left => exact ih
      | right => simp [before, ih]

theorem after_append (lower upper : Path α) :
    after (lower ++ upper) = after lower ++ after upper := by
  induction lower with
  | nil => rfl
  | cons frame lower ih =>
      rcases frame with ⟨side, color, entry, sibling⟩
      cases side with
      | left => simp [after, ih]
      | right => exact ih

/-- Around a subtree stand the entries of the path. -/
theorem toList_fill :
    (fill path tree).toList = path.before ++ tree.toList ++ path.after := by
  induction path generalizing tree with
  | nil => simp [before, after]
  | cons frame path ih =>
      rcases frame with ⟨side, color, entry, sibling⟩
      rw [fill_cons, ih]
      cases side with
      | left => simp [before, after, Frame.plug, Tree.toList_make]
      | right => simp [before, after, Frame.plug, Tree.toList_make]

/-- Subtrees with the same entries fill a path with the same entries. -/
theorem toList_fill_congr {tree other : Tree α} (same : tree.toList = other.toList) :
    (fill path tree).toList = (fill path other).toList := by
  rw [toList_fill, toList_fill, same]

/-- Every entry of a subtree is an entry of the tree. -/
theorem mem_toList_fill {tree : Tree α} {entry : α} (member : entry ∈ tree.toList) :
    entry ∈ (fill path tree).toList := by
  rw [toList_fill]
  simp [member]

/-- Every entry stands at the lower end of some path. -/
theorem exists_fill {tree : Tree α} {entry : α} (member : entry ∈ tree.toList) :
    ∃ path color left right, tree = fill path (.node color left entry right) := by
  induction tree with
  | leaf => cases member
  | node color left other right leftIH rightIH =>
      simp only [Tree.toList, List.mem_append, List.mem_cons] at member
      rcases member with inLeft | rfl | inRight
      · rcases leftIH inLeft with ⟨path, lower, first, second, isLeft⟩
        refine ⟨path ++ [⟨.left, color, other, right⟩], lower, first, second, ?_⟩
        rw [fill_append, ← isLeft]
        rfl
      · exact ⟨[], color, left, right, rfl⟩
      · rcases rightIH inRight with ⟨path, lower, first, second, isRight⟩
        refine ⟨path ++ [⟨.right, color, other, left⟩], lower, first, second, ?_⟩
        rw [fill_append, ← isRight]
        rfl

/-- A path into a tree is not longer than the tree is high. -/
theorem length_add_height_le : path.length + tree.height ≤ (fill path tree).height := by
  induction path generalizing tree with
  | nil => simp
  | cons frame path ih =>
      have above := ih (frame.plug tree)
      have step : tree.height + 1 ≤ (frame.plug tree).height := by
        rw [Frame.plug, Tree.height_make]
        exact Nat.succ_le_succ (Nat.le_max_left _ _)
      rw [fill_cons, List.length_cons]
      exact Nat.le_trans (by omega) above

end Path

end LuaJack.RedBlack
