import LuaJack.RedBlack.Balance

/-!
# A subtree that lacks a black node

A subtree whose ways down pass one black node less than those of its sibling is refilled
on the way up: by taking a black node from the sibling as well as long as it has no red
child, and otherwise by at most three rotations. -/

namespace LuaJack.RedBlack

universe u

variable {α : Type u}

open RedBlack.Tree

/-- Whether a subtree is complete, or still lacks a black node. -/
inductive Settled (α : Type u) where
  | complete (tree : Tree α)
  | lacking (tree : Tree α)

/-- The entries of both kinds of subtrees. -/
def Settled.tree : Settled α → Tree α
  | .complete tree => tree
  | .lacking tree => tree

/-- Settle a lack below a frame whose sibling is black. -/
def settle (frame : Frame α) (tree : Tree α) : Settled α :=
  match frame.sibling with
  | .leaf => .lacking (frame.plug tree)
  | .node color left entry right =>
      let near := (node color left entry right).child frame.side
      let far := (node color left entry right).child frame.side.opposite
      if far.color = .red then
        .complete (make frame.side frame.color
          (make frame.side .black tree frame.entry near) entry (far.recolor .black))
      else
        match near with
        | .node .red innerLeft inner innerRight =>
            .complete (make frame.side frame.color
              (make frame.side .black tree frame.entry
                ((node .red innerLeft inner innerRight).child frame.side))
              inner
              (make frame.side .black
                ((node .red innerLeft inner innerRight).child frame.side.opposite)
                  entry far))
        | _ => .lacking (make frame.side frame.color tree frame.entry
            (make frame.side .red near entry far))

/-- Refill a tree below a path that lacks a black node. -/
def refill : Path α → Tree α → Tree α
  | [], tree => tree.recolor .black
  | frame :: path, tree =>
      if tree.color = .red then
        Path.fill (frame :: path) (tree.recolor .black)
      else
        match frame.sibling with
        | .node .red left entry right =>
            let near := (node .red left entry right).child frame.side
            let far := (node .red left entry right).child frame.side.opposite
            match settle ⟨frame.side, .red, frame.entry, near⟩ tree with
            | .complete subtree =>
                Path.fill (⟨frame.side, .black, entry, far⟩ :: path) subtree
            | .lacking subtree =>
                Path.fill (⟨frame.side, .black, entry, far⟩ :: path)
                  (subtree.recolor .black)
        | _ =>
            match settle frame tree with
            | .complete subtree => Path.fill path subtree
            | .lacking subtree => refill path subtree

/-- A subtree lacks a black node, or its root is red and can make up for it. -/
def Lacks (tree : Tree α) (blacks : Nat) : Prop :=
  (tree.color = .black → Balanced tree blacks) ∧
    (tree.color = .red → Balanced (tree.recolor .black) (blacks + 1))

section

variable {side : Side} {color shade : Color} {near far tree : Tree α} {entry elm : α}

/-- A red child of the sibling on the far side. -/
theorem settle_far (farRed : far.color = .red) :
    settle ⟨side, color, elm, make side shade near entry far⟩ tree =
      .complete (make side color (make side .black tree elm near) entry
        (far.recolor .black)) := by
  cases side with
  | left => simp [settle, make, child, farRed, Side.opposite]
  | right => simp [settle, make, child, farRed, Side.opposite]

/-- A red child of the sibling on the near side only. -/
theorem settle_near {inner : α} {first second : Tree α} (farBlack : far.color = .black) :
    settle ⟨side, color, elm, make side shade
      (make side .red first inner second) entry far⟩ tree =
      .complete (make side color (make side .black tree elm first) inner
        (make side .black second entry far)) := by
  cases side with
  | left => simp [settle, make, child, farBlack, Side.opposite]
  | right => simp [settle, make, child, farBlack, Side.opposite]

/-- No red child of the sibling. -/
theorem settle_lacking (nearBlack : near.color = .black) (farBlack : far.color = .black) :
    settle ⟨side, color, elm, make side shade near entry far⟩ tree =
      .lacking (make side color tree elm (make side .red near entry far)) := by
  cases near with
  | leaf =>
      cases side with
      | left => simp [settle, make, child, farBlack, Side.opposite]
      | right => simp [settle, make, child, farBlack, Side.opposite]
  | node nearColor left inner right =>
      cases nearBlack
      cases side with
      | left => simp [settle, make, child, farBlack, Side.opposite]
      | right => simp [settle, make, child, farBlack, Side.opposite]

/-- The colors of the two children of a sibling. -/
theorem nephews_cases (side : Side) (near far : Tree α) :
    far.color = .red ∨
    (far.color = .black ∧ ∃ first inner second, near =
      make side .red first inner second) ∨
    (near.color = .black ∧ far.color = .black) := by
  cases farColor : far.color with
  | red => exact .inl rfl
  | black =>
      cases nearColor : near.color with
      | black => exact .inr (.inr ⟨rfl, rfl⟩)
      | red =>
          rcases exists_root_of_red nearColor with ⟨inner, isRoot⟩
          rcases exists_make_of_root side isRoot with ⟨first, second, isNear⟩
          rw [nearColor] at isNear
          exact .inr (.inl ⟨rfl, first, inner, second, isNear⟩)

/-- Settling leaves the entries in their order. -/
theorem toList_settle (frame : Frame α) (tree : Tree α) :
    (settle frame tree).tree.toList = (frame.plug tree).toList := by
  rcases frame with ⟨side, color, elm, sibling⟩
  cases sibling with
  | leaf => rfl
  | node shade left entry right =>
      rw [node_eq_make side shade entry left right]
      generalize (node shade left entry right).child side = near
      generalize (node shade left entry right).child side.opposite = far
      rcases nephews_cases side near far with
        farRed | ⟨farBlack, first, inner, second, rfl⟩ | both
      · rw [settle_far farRed]
        exact (toList_rotate side color shade color .black _ _ _ _ _).trans
          (toList_make_congr rfl (toList_make_congr rfl (toList_recolor _ _)))
      · rw [settle_near farBlack]
        have turned :=
          toList_rotate side .red shade .red .red first second far inner entry
        exact (toList_rotate side color .black color .black _ _ _ _ _).trans
          (toList_make_congr rfl
            ((toList_rotate side _ _ _ _ _ _ _ _ _).symm.trans turned |>.trans
            (toList_rotate side _ _ _ _ _ _ _ _ _).symm))
      · rw [settle_lacking both.1 both.2]
        exact toList_make_congr rfl (toList_make_congr rfl rfl)

end

/-! ## Balance -/

/-- The number of black nodes that a node of some color counts for. -/
def Color.blacks : Color → Nat
  | .black => 1
  | .red => 0

theorem Balanced.make {side : Side} {color : Color}
    {near far : Tree α} {entry : α} {blacks : Nat}
    (isNear : Balanced near blacks) (isFar : Balanced far blacks)
    (bothBlack : color = .red → near.color = .black ∧ far.color = .black) :
    Balanced (make side color near entry far) (blacks + color.blacks) := by
  cases color with
  | black => exact isNear.make_black isFar
  | red => exact isNear.make_red (bothBlack rfl).1 isFar (bothBlack rfl).2

/-- The next step of a path fits, too. -/
theorem Path.Fits.above {frame : Frame α} {path : Path α} {color : Color} {blacks : Nat}
    (fits : Path.Fits (frame :: path) color blacks) :
    Path.Fits path frame.color (blacks + frame.color.blacks) := by
  cases isColor : frame.color with
  | black => exact (fits.of_black isColor).2
  | red => exact (fits.of_red isColor).2.2

/-- The sibling on a path. -/
theorem Path.Fits.sibling {frame : Frame α} {path : Path α} {color : Color} {blacks : Nat}
    (fits : Path.Fits (frame :: path) color blacks) : Balanced frame.sibling blacks := by
  cases isColor : frame.color with
  | black => exact (fits.of_black isColor).1
  | red => exact (fits.of_red isColor).1

/-- A subtree is complete with as many black nodes as the path expects, and otherwise
lacks one. -/
def Settled.Sound (color : Color) (blacks : Nat) : Settled α → Prop
  | .complete tree => Balanced tree (blacks + 1 + color.blacks) ∧ tree.color = color
  | .lacking tree => Lacks tree (blacks + color.blacks) ∧ tree.color = color

theorem sound_settle {frame : Frame α} {tree : Tree α} {blacks : Nat}
    (isSibling : Balanced frame.sibling (blacks + 1))
    (siblingBlack : frame.sibling.color = .black)
    (isTree : Balanced tree blacks) : (settle frame tree).Sound frame.color blacks := by
  rcases frame with ⟨side, color, elm, sibling⟩
  rcases isSibling.exists_make side with ⟨near, entry, far, isMake⟩
  simp only at isSibling siblingBlack isMake ⊢
  rw [siblingBlack] at isMake
  subst isMake
  rcases isSibling.of_make_black with ⟨isNear, isFar⟩
  rcases nephews_cases side near far with
    farRed | ⟨farBlack, first, inner, second, rfl⟩ | both
  · rw [settle_far farRed]
    refine ⟨(isTree.make_black isNear).make (isFar.recolor_of_red farRed) ?_,
      color_make _ _ _ _ _⟩
    exact fun _ => ⟨color_make _ _ _ _ _, color_recolor_black _⟩
  · rw [settle_near farBlack]
    rcases isNear.of_make_red with ⟨isFirst, _, isSecond, _⟩
    refine ⟨(isTree.make_black isFirst).make (isSecond.make_black isFar) ?_,
      color_make _ _ _ _ _⟩
    exact fun _ => ⟨color_make _ _ _ _ _, color_make _ _ _ _ _⟩
  · rw [settle_lacking both.1 both.2]
    have isSibling : Balanced (Tree.make side .red near entry far) blacks :=
      isNear.make_red both.1 isFar both.2
    cases color with
    | black =>
        refine ⟨⟨fun _ => isTree.make_black isSibling, ?_⟩, color_make _ _ _ _ _⟩
        intro isRed
        rw [color_make] at isRed
        cases isRed
    | red =>
        refine ⟨⟨?_, ?_⟩, color_make _ _ _ _ _⟩
        · intro isBlack
          rw [color_make] at isBlack
          cases isBlack
        · intro _
          rw [recolor_make]
          exact isTree.make_black isSibling

/-! ## The whole way up -/

section

variable {frame : Frame α} {path : Path α} {tree : Tree α}

theorem refill_of_red (isRed : tree.color = .red) :
    refill (frame :: path) tree = Path.fill (frame :: path) (tree.recolor .black) := by
  rw [refill.eq_def]
  simp only [isRed, if_true]

/-- Below a black sibling. -/
theorem refill_of_black (isBlack : tree.color = .black)
    (siblingBlack : frame.sibling.color = .black) :
    refill (frame :: path) tree =
      match settle frame tree with
      | .complete subtree => Path.fill path subtree
      | .lacking subtree => refill path subtree := by
  rw [refill.eq_def]
  simp only [isBlack, reduceCtorEq, if_false]
  split
  · rename_i isSibling
    rw [isSibling] at siblingBlack
    cases siblingBlack
  · rfl

/-- Below a red sibling, which is rotated upwards first. -/
theorem refill_of_red_sibling {side : Side}
    {color : Color} {elm entry : α} {near far : Tree α} (isBlack : tree.color = .black) :
    refill (⟨side, color, elm, make side .red near entry far⟩ :: path) tree =
      match settle ⟨side, .red, elm, near⟩ tree with
      | .complete subtree => Path.fill (⟨side, .black, entry, far⟩ :: path) subtree
      | .lacking subtree =>
          Path.fill (⟨side, .black, entry, far⟩ :: path) (subtree.recolor .black) := by
  rw [refill.eq_def]
  simp only [isBlack, reduceCtorEq, if_false]
  cases side <;> rfl

end

/-- Refilling leaves the entries in their order. -/
theorem toList_refill (path : Path α) (tree : Tree α) :
    (refill path tree).toList = (Path.fill path tree).toList := by
  induction path generalizing tree with
  | nil => exact toList_recolor tree .black
  | cons frame path ih =>
      cases isColor : tree.color with
      | red =>
          rw [refill_of_red isColor]
          exact Path.toList_fill_congr _ (toList_recolor tree .black)
      | black =>
          cases siblingColor : frame.sibling.color with
          | black =>
              have settled := toList_settle frame tree
              rw [refill_of_black isColor siblingColor]
              cases isSettled : settle frame tree with
              | complete subtree =>
                  rw [isSettled] at settled
                  exact Path.toList_fill_congr path settled
              | lacking subtree =>
                  rw [isSettled] at settled
                  exact (ih subtree).trans (Path.toList_fill_congr path settled)
          | red =>
              rcases frame with ⟨side, color, elm, sibling⟩
              rcases exists_root_of_red siblingColor with ⟨entry, isRoot⟩
              rcases exists_make_of_root side isRoot with ⟨near, far, isSibling⟩
              simp only at siblingColor isSibling
              rw [siblingColor] at isSibling
              subst isSibling
              have settled := toList_settle ⟨side, .red, elm, near⟩ tree
              have lower : (settle ⟨side, .red, elm, near⟩ tree).tree.toList =
                  (Frame.plug ⟨side, .red, elm, near⟩ tree).toList := settled
              have rotated :=
                toList_rotate side color .red .black .red tree near far elm entry
              rw [refill_of_red_sibling isColor]
              cases isSettled : settle ⟨side, .red, elm, near⟩ tree with
              | complete subtree =>
                  rw [isSettled] at lower
                  refine Path.toList_fill_congr path ?_
                  exact (toList_make_congr lower rfl).trans rotated
              | lacking subtree =>
                  rw [isSettled] at lower
                  refine Path.toList_fill_congr path ?_
                  exact (toList_make_congr
                    ((toList_recolor subtree .black).trans lower) rfl).trans
                    rotated

/-- Refilling makes a red-black tree. -/
theorem redBlack_refill {path : Path α} {tree : Tree α} {blacks : Nat}
    (fits : Path.Fits path .black (blacks + 1)) (lacks : Lacks tree blacks) :
    IsRedBlack (refill path tree) := by
  induction path generalizing tree blacks with
  | nil =>
      cases isColor : tree.color with
      | red => exact ⟨color_recolor_black tree, blacks + 1, lacks.2 isColor⟩
      | black => exact IsRedBlack.recolor ⟨isColor, blacks, lacks.1 isColor⟩
  | cons frame path ih =>
      cases isColor : tree.color with
      | red =>
          rw [refill_of_red isColor]
          exact fits.fill (lacks.2 isColor) (color_recolor_black tree)
      | black =>
          have isTree := lacks.1 isColor
          cases siblingColor : frame.sibling.color with
          | black =>
              have sound := sound_settle fits.sibling siblingColor isTree
              rw [refill_of_black isColor siblingColor]
              cases isSettled : settle frame tree with
              | complete subtree =>
                  rw [isSettled] at sound
                  exact fits.above.fill sound.1 sound.2
              | lacking subtree =>
                  rw [isSettled] at sound
                  apply ih _ sound.1
                  have above := fits.above.to_black
                  rwa [Nat.add_right_comm] at above
          | red =>
              rcases frame with ⟨side, color, elm, sibling⟩
              rcases exists_root_of_red siblingColor with ⟨entry, isRoot⟩
              rcases exists_make_of_root side isRoot with ⟨near, far, isSibling⟩
              simp only at siblingColor isSibling
              rw [siblingColor] at isSibling
              subst isSibling
              have isBlack : color = .black := by
                apply Color.eq_black
                intro isRed
                have siblingBlack := (fits.of_red isRed).2.1
                rw [color_make] at siblingBlack
                cases siblingBlack
              rcases fits.sibling.of_make_red with ⟨isNear, nearBlack, isFar, farBlack⟩
              have above : Path.Fits (⟨side, .black, entry, far⟩ :: path) .red
                  (blacks + 1) :=
                .black .red rfl isFar (fits.of_black isBlack).2
              have sound : (settle ⟨side, .red, elm, near⟩ tree).Sound .red blacks :=
                sound_settle isNear nearBlack isTree
              rw [refill_of_red_sibling isColor]
              cases isSettled : settle ⟨side, .red, elm, near⟩ tree with
              | complete subtree =>
                  rw [isSettled] at sound
                  exact above.fill sound.1 sound.2
              | lacking subtree =>
                  rw [isSettled] at sound
                  exact above.to_black.fill (sound.1.2 sound.2)
                    (color_recolor_black subtree)

end LuaJack.RedBlack
