import LuaJack.RedBlack.Tree
import Mathlib.Algebra.Group.Nat.Defs

/-!
# Balance of red-black trees

In a red-black tree no red node has a red child, and all ways down pass the same number
of black nodes.  So no way down is much longer than another one, and the height is
logarithmic. -/

namespace LuaJack.RedBlack

universe u

variable {α : Type u}

open RedBlack.Tree

/-- The tree has no red node with a red child, and each way down passes the given number
of black nodes. -/
inductive Balanced : Tree α → Nat → Prop where
  | leaf : Balanced .leaf 0
  | red {left right : Tree α} {entry : α} {blacks : Nat} :
      Balanced left blacks → left.color = .black →
        Balanced right blacks → right.color = .black →
      Balanced (.node .red left entry right) blacks
  | black {left right : Tree α} {entry : α} {blacks : Nat} :
      Balanced left blacks → Balanced right blacks →
      Balanced (.node .black left entry right) (blacks + 1)

/-- A red-black tree. -/
def IsRedBlack (tree : Tree α) :
    Prop := tree.color = .black ∧ ∃ blacks, Balanced tree blacks

namespace Balanced

variable {side : Side} {near far tree : Tree α} {entry : α} {blacks : Nat}

theorem make_red (isNear : Balanced near blacks) (nearBlack : near.color = .black)
    (isFar : Balanced far blacks) (farBlack : far.color = .black) :
    Balanced (make side .red near entry far) blacks := by
  cases side with
  | left => exact .red isNear nearBlack isFar farBlack
  | right => exact .red isFar farBlack isNear nearBlack

theorem make_black (isNear : Balanced near blacks) (isFar : Balanced far blacks) :
    Balanced (make side .black near entry far) (blacks + 1) := by
  cases side with
  | left => exact .black isNear isFar
  | right => exact .black isFar isNear

/-- The subtrees of a red node are balanced, and they are black. -/
theorem of_make_red (isTree : Balanced (make side .red near entry far) blacks) :
    Balanced near blacks ∧ near.color = .black ∧
      Balanced far blacks ∧ far.color = .black := by
  cases side with
  | left =>
      cases isTree with
      | red isLeft leftBlack isRight rightBlack =>
          exact ⟨isLeft, leftBlack, isRight, rightBlack⟩
  | right =>
      cases isTree with
      | red isLeft leftBlack isRight rightBlack =>
          exact ⟨isRight, rightBlack, isLeft, leftBlack⟩

/-- The subtrees of a black node are balanced, with one black node less. -/
theorem of_make_black (isTree : Balanced (make side .black near entry far) (blacks + 1)) :
    Balanced near blacks ∧ Balanced far blacks := by
  cases side with
  | left =>
      cases isTree with
      | black isLeft isRight => exact ⟨isLeft, isRight⟩
  | right =>
      cases isTree with
      | black isLeft isRight => exact ⟨isRight, isLeft⟩

/-- A black node makes for at least one black node. -/
theorem blacks_of_make_black
    (isTree : Balanced (make side .black near entry far) blacks) :
    ∃ fewer, blacks = fewer + 1 := by
  cases side with
  | left =>
      cases isTree with
      | black isLeft isRight => exact ⟨_, rfl⟩
  | right =>
      cases isTree with
      | black isLeft isRight => exact ⟨_, rfl⟩

/-- Blackening a red root adds a black node to all ways. -/
theorem recolor_of_red (isTree : Balanced tree blacks) (isRed : tree.color = .red) :
    Balanced (tree.recolor .black) (blacks + 1) := by
  cases isTree with
  | leaf => cases isRed
  | red isLeft leftBlack isRight rightBlack => exact .black isLeft isRight
  | black isLeft isRight => cases isRed

/-- A tree whose ways pass black nodes is not a leaf. -/
theorem exists_make (isTree : Balanced tree (blacks + 1)) (side : Side) :
    ∃ near entry far, tree = make side tree.color near entry far := by
  cases tree with
  | leaf => cases isTree
  | node color left entry right =>
      exact ⟨_, entry, _, node_eq_make side color entry left right⟩

/-- Every balanced tree with `blacks` black nodes on each way has at least `2 ^ blacks -
1` entries. -/
theorem two_pow_le (isTree : Balanced tree blacks) :
    2 ^ blacks ≤ tree.toList.length + 1 := by
  induction isTree with
  | leaf => simp [toList]
  | red isLeft leftBlack isRight rightBlack leftIH rightIH =>
      simp only [toList, List.length_append, List.length_cons]
      omega
  | black isLeft isRight leftIH rightIH =>
      simp only [toList, List.length_append, List.length_cons, Nat.pow_succ]
      omega

/-- On no way down more than every other node is red. -/
theorem height_le (isTree : Balanced tree blacks) :
    tree.height ≤ 2 * blacks + if tree.color = .red then 1 else 0 := by
  induction isTree with
  | leaf => simp [height]
  | red isLeft leftBlack isRight rightBlack leftIH rightIH =>
      simp only [leftBlack, rightBlack, reduceCtorEq, if_false] at leftIH rightIH
      simp only [height, Tree.color, if_true]
      omega
  | black isLeft isRight leftIH rightIH =>
      simp only [height, Tree.color, reduceCtorEq, if_false]
      split at leftIH <;> split at rightIH <;> omega

end Balanced

/-- A red-black tree is not higher than twice the binary logarithm of its number of
entries. -/
theorem IsRedBlack.height_le {tree : Tree α} (isTree : IsRedBlack tree) :
    tree.height ≤ 2 * Nat.log2 (tree.toList.length + 1) := by
  rcases isTree with ⟨isBlack, blacks, isTree⟩
  have height := isTree.height_le
  have log : blacks ≤ Nat.log2 (tree.toList.length + 1) :=
    (Nat.le_log2 (Nat.succ_ne_zero _)).mpr isTree.two_pow_le
  simp only [isBlack, reduceCtorEq, if_false] at height
  omega

theorem IsRedBlack.leaf : IsRedBlack (.leaf : Tree α) := ⟨rfl, 0, .leaf⟩

/-- The root of a red-black tree is black already. -/
theorem IsRedBlack.recolor {tree : Tree α} (isTree : IsRedBlack tree) :
    IsRedBlack (tree.recolor .black) := by
  rw [recolor_of_color_eq isTree.1]
  exact isTree

/-! ## Paths into red-black trees -/

/-- Below the path fits a balanced tree with a root of the given color and with the
given number of black nodes on each way. -/
inductive Path.Fits : Path α → Color → Nat → Prop where
  | nil (blacks : Nat) : Path.Fits [] .black blacks
  | red {frame : Frame α} {path : Path α} {blacks : Nat} : frame.color = .red →
      Balanced frame.sibling blacks → frame.sibling.color = .black →
        Path.Fits path .red blacks →
      Path.Fits (frame :: path) .black blacks
  | black {frame : Frame α} {path : Path α} {blacks : Nat} (color : Color) :
      frame.color = .black → Balanced frame.sibling blacks →
        Path.Fits path .black (blacks + 1) →
      Path.Fits (frame :: path) color blacks

namespace Path.Fits

variable {frame : Frame α} {path : Path α} {tree : Tree α} {color : Color} {blacks : Nat}

/-- A black root fits everywhere. -/
theorem to_black (fits : Fits path color blacks) : Fits path .black blacks := by
  cases fits with
  | nil => exact .nil blacks
  | red isRed isSibling siblingBlack above =>
      exact .red isRed isSibling siblingBlack above
  | black color isBlack isSibling above => exact .black .black isBlack isSibling above

/-- Below a red node. -/
theorem of_red (fits : Fits (frame :: path) color blacks) (isRed : frame.color = .red) :
    Balanced frame.sibling blacks ∧ frame.sibling.color = .black ∧
      Fits path .red blacks := by
  cases fits with
  | red _ isSibling siblingBlack above => exact ⟨isSibling, siblingBlack, above⟩
  | black color isBlack isSibling above =>
      rw [isRed] at isBlack
      cases isBlack

/-- Below a black node. -/
theorem of_black (fits : Fits (frame :: path) color blacks)
    (isBlack : frame.color = .black) :
    Balanced frame.sibling blacks ∧ Fits path .black (blacks + 1) := by
  cases fits with
  | red isRed isSibling siblingBlack above =>
      rw [isBlack] at isRed
      cases isRed
  | black color _ isSibling above => exact ⟨isSibling, above⟩

/-- A red root fits only below a black node. -/
theorem red_cons (fits : Fits (frame :: path) .red blacks) : frame.color = .black := by
  cases fits with
  | black color isBlack isSibling above => exact isBlack

/-- A red root does not fit at the top. -/
theorem not_red_nil : ¬Fits ([] : Path α) .red blacks := by
  intro fits
  cases fits

/-- A fitting tree makes a red-black tree. -/
theorem fill (fits : Fits path color blacks) (isTree : Balanced tree blacks)
    (isColor : tree.color = color) : IsRedBlack (Path.fill path tree) := by
  induction fits generalizing tree with
  | nil blacks => exact ⟨isColor, blacks, isTree⟩
  | red isRed isSibling siblingBlack above ih =>
      apply ih
      · rw [Frame.plug, isRed]
        exact isTree.make_red isColor isSibling siblingBlack
      · rw [Frame.plug, color_make, isRed]
  | black color isBlack isSibling above ih =>
      apply ih
      · rw [Frame.plug, isBlack]
        exact isTree.make_black isSibling
      · rw [Frame.plug, color_make, isBlack]

/-- All subtrees of a red-black tree are balanced, and fit. -/
theorem of_redBlack (isTree : IsRedBlack (Path.fill path tree)) :
    ∃ blacks, Balanced tree blacks ∧ Fits path tree.color blacks := by
  induction path generalizing tree with
  | nil =>
      rcases isTree with ⟨isBlack, blacks, isTree⟩
      rw [Path.fill_nil] at isBlack
      rw [isBlack]
      exact ⟨blacks, isTree, .nil blacks⟩
  | cons frame path ih =>
      rcases ih isTree with ⟨blacks, isNode, fits⟩
      rw [Frame.plug, color_make] at fits
      rw [Frame.plug] at isNode
      cases isColor : frame.color with
      | red =>
          rw [isColor] at isNode fits
          rcases isNode.of_make_red with ⟨isTree, treeBlack, isSibling, siblingBlack⟩
          rw [treeBlack]
          exact ⟨blacks, isTree, .red isColor isSibling siblingBlack fits⟩
      | black =>
          rw [isColor] at isNode fits
          rcases isNode.blacks_of_make_black with ⟨fewer, rfl⟩
          exact ⟨fewer, isNode.of_make_black.1,
            .black tree.color isColor isNode.of_make_black.2 fits⟩

/-- Whether a path fits does not depend on its entries. -/
theorem rename {lower upper : Path α} (fits : Fits (lower ++ frame :: upper) color blacks)
    (entry : α) : Fits (lower ++ { frame with entry } :: upper) color blacks := by
  induction lower generalizing color blacks with
  | nil =>
      cases fits with
      | red isRed isSibling siblingBlack above =>
          exact .red isRed isSibling siblingBlack above
      | black color isBlack isSibling above => exact .black color isBlack isSibling above
  | cons first lower ih =>
      cases fits with
      | red isRed isSibling siblingBlack above =>
          exact .red isRed isSibling siblingBlack (ih above)
      | black color isBlack isSibling above =>
          exact .black color isBlack isSibling (ih above)

/-- Whether a tree is a red-black tree does not depend on its entries. -/
theorem redBlack_rename
    (isTree : IsRedBlack (Path.fill (frame :: path) tree)) (entry : α) :
    IsRedBlack (Path.fill ({ frame with entry } :: path) tree) := by
  rcases of_redBlack isTree with ⟨blacks, isSubtree, fits⟩
  have renamed : Fits ([] ++ { frame with entry } :: path) tree.color blacks :=
    fits.rename entry
  exact renamed.fill isSubtree rfl

end Path.Fits

end LuaJack.RedBlack
