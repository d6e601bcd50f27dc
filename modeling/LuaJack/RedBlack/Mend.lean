import LuaJack.RedBlack.Balance

/-!
# A red node below a red one

A red node with a red parent is mended on the way up: by recoloring as long as the
sibling of the parent is red, too, and otherwise by at most two rotations. -/

namespace LuaJack.RedBlack

universe u

variable {α : Type u}

open RedBlack.Tree

/-- Two rotations or one make the red parent, or the red child between it and the
grandparent, the black root of the subtree. -/
def turn (grandparent parent : Frame α) (tree : Tree α) : Tree α :=
  if parent.side = grandparent.side then
    make grandparent.side .black tree parent.entry
      (make grandparent.side .red parent.sibling grandparent.entry grandparent.sibling)
  else
    match tree with
    | .leaf => grandparent.plug (parent.plug .leaf)
    | .node color left entry right =>
        make grandparent.side .black
          (make grandparent.side .red parent.sibling parent.entry
            ((node color left entry right).child grandparent.side))
          entry
          (make grandparent.side .red
            ((node color left entry right).child grandparent.side.opposite)
            grandparent.entry grandparent.sibling)

/-- Mend a tree below a path, with a red root that may have a red parent. -/
def mend : Path α → Tree α → Tree α
  | [], tree => tree
  | [frame], tree => frame.plug tree
  | parent :: grandparent :: path, tree =>
      if parent.color = .red then
        if grandparent.sibling.color = .red then
          mend path
            (make grandparent.side .red ({ parent with color := .black }.plug tree)
            grandparent.entry (grandparent.sibling.recolor .black))
        else
          Path.fill path (turn grandparent parent tree)
      else
        Path.fill path (grandparent.plug (parent.plug tree))

/-- A child on the outer side: one rotation. -/
theorem turn_outer {grandparent parent : Frame α} (outer : parent.side = grandparent.side)
    (tree : Tree α) : turn grandparent parent tree =
      make grandparent.side .black tree parent.entry
        (make grandparent.side .red parent.sibling
          grandparent.entry grandparent.sibling) := by
  rw [turn.eq_def, if_pos outer]

/-- A child on the inner side: two rotations. -/
theorem turn_inner {grandparent parent : Frame α} (inner : parent.side ≠ grandparent.side)
    (color : Color) (near far : Tree α) (entry : α) :
    turn grandparent parent (make grandparent.side color near entry far) =
      make grandparent.side .black
        (make grandparent.side .red parent.sibling parent.entry near) entry
        (make grandparent.side .red far grandparent.entry grandparent.sibling) := by
  rw [turn.eq_def, if_neg inner]
  cases grandparent.side <;> rfl

/-- The subtree between parent and grandparent, seen from the side of the parent. -/
theorem plug_of_ne {grandparent parent : Frame α} (inner : parent.side ≠ grandparent.side)
    (tree : Tree α) : parent.plug tree =
      make grandparent.side parent.color parent.sibling parent.entry tree := by
  rw [Frame.plug, Side.eq_opposite_of_ne inner, make_opposite]

theorem toList_turn (grandparent parent : Frame α) (tree : Tree α) :
    (turn grandparent parent tree).toList =
      (grandparent.plug (parent.plug tree)).toList := by
  by_cases outer : parent.side = grandparent.side
  · rw [turn_outer outer, Frame.plug, Frame.plug, outer]
    exact (toList_rotate grandparent.side _ _ _ _ _ _ _ _ _).symm
  · cases tree with
    | leaf => rw [turn.eq_def, if_neg outer]
    | node color left entry right =>
        rw [node_eq_make grandparent.side color entry left right, turn_inner outer]
        generalize (node color left entry right).child grandparent.side = near
        generalize (node color left entry right).child grandparent.side.opposite = far
        have rotated := toList_rotate grandparent.side .black .red .black .red
          (make grandparent.side .red parent.sibling parent.entry near) far
          grandparent.sibling entry grandparent.entry
        rw [← rotated]
        apply toList_make_congr _ rfl
        rw [plug_of_ne outer, toList_rotate grandparent.side parent.color color .red .red]

/-- Mending leaves the entries in their order. -/
theorem toList_mend (path : Path α) (tree : Tree α) :
    (mend path tree).toList = (Path.fill path tree).toList := by
  induction path, tree using mend.induct with
  | case1 tree => rfl
  | case2 frame tree => rfl
  | case3 parent grandparent path tree parentRed uncleRed ih =>
      rw [mend, if_pos parentRed, if_pos uncleRed, ih]
      apply Path.toList_fill_congr
      exact toList_make_congr (toList_make_congr rfl rfl) (toList_recolor _ _)
  | case4 parent grandparent path tree parentRed uncleBlack =>
      rw [mend, if_pos parentRed, if_neg uncleBlack]
      exact Path.toList_fill_congr path (toList_turn grandparent parent tree)
  | case5 parent grandparent path tree parentBlack =>
      rw [mend, if_neg parentBlack]
      rfl

theorem balanced_turn {grandparent parent : Frame α} {tree : Tree α} {blacks : Nat}
    (isUncle : Balanced grandparent.sibling blacks)
    (uncleBlack : grandparent.sibling.color = .black)
    (isSibling : Balanced parent.sibling blacks)
    (siblingBlack : parent.sibling.color = .black)
    (isTree : Balanced tree blacks) (isRed : tree.color = .red) :
    Balanced (turn grandparent parent tree) (blacks + 1) ∧
      (turn grandparent parent tree).color = .black := by
  by_cases outer : parent.side = grandparent.side
  · rw [turn_outer outer]
    refine ⟨?_, color_make _ _ _ _ _⟩
    exact isTree.make_black (isSibling.make_red siblingBlack isUncle uncleBlack)
  · cases tree with
    | leaf => cases isRed
    | node color left entry right =>
        cases isRed
        rw [node_eq_make grandparent.side .red entry left right] at isTree ⊢
        rw [turn_inner outer]
        refine ⟨?_, color_make _ _ _ _ _⟩
        rcases isTree.of_make_red with ⟨isNear, nearBlack, isFar, farBlack⟩
        exact (isSibling.make_red siblingBlack isNear nearBlack).make_black
          (isFar.make_red farBlack isUncle uncleBlack)

/-- Mending makes a red-black tree, up to the color of its root. -/
theorem redBlack_mend {path : Path α} {tree : Tree α} {blacks : Nat}
    (fits : path.Fits .black blacks) (isTree : Balanced tree blacks)
    (isRed : tree.color = .red) :
    IsRedBlack ((mend path tree).recolor .black) := by
  induction path, tree using mend.induct generalizing blacks with
  | case1 tree =>
      exact ⟨color_recolor_black tree, blacks + 1, isTree.recolor_of_red isRed⟩
  | case2 frame tree =>
      cases isColor : frame.color with
      | red => exact absurd (fits.of_red isColor).2.2 Path.Fits.not_red_nil
      | black =>
          have above := fits.of_black isColor
          have isPlug : Balanced (make frame.side .black tree frame.entry frame.sibling)
              (blacks + 1) :=
            isTree.make_black above.1
          rw [mend, Frame.plug, isColor]
          exact IsRedBlack.recolor ⟨color_make _ _ _ _ _, blacks + 1, isPlug⟩
  | case3 parent grandparent path tree parentRed uncleRed ih =>
      rcases fits.of_red parentRed with ⟨isSibling, siblingBlack, above⟩
      rcases above.of_black above.red_cons with ⟨isUncle, further⟩
      rw [mend, if_pos parentRed, if_pos uncleRed]
      apply ih further
      · exact (isTree.make_black isSibling).make_red (color_make _ _ _ _ _)
          (isUncle.recolor_of_red uncleRed) (color_recolor_black _)
      · exact color_make _ _ _ _ _
  | case4 parent grandparent path tree parentRed uncleBlack =>
      rcases fits.of_red parentRed with ⟨isSibling, siblingBlack, above⟩
      rcases above.of_black above.red_cons with ⟨isUncle, further⟩
      have turned :=
        balanced_turn isUncle (Color.eq_black uncleBlack) isSibling siblingBlack
        isTree isRed
      rw [mend, if_pos parentRed, if_neg uncleBlack]
      exact (further.fill turned.1 turned.2).recolor
  | case5 parent grandparent path tree parentBlack =>
      have isBlack := Color.eq_black parentBlack
      rw [mend, if_neg parentBlack]
      have above := fits.of_black isBlack
      exact (Path.Fits.fill (.black .red isBlack above.1 above.2) isTree isRed).recolor

end LuaJack.RedBlack
