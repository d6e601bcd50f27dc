import LuaJack.RedBlack.Refill
import LuaJack.RedBlack.Steps

/-!
# Recoloring after a removal

`RB_REMOVE_COLOR` refills the tree in memory, round by round, and ends.
-/

namespace LuaJack.RedBlack

variable {α κ V : Type} [DecidableEq α]
variable {others : α → Option (Node α κ V)} {store : Store α κ V}

open RedBlack.Tree

/-- A sibling with a red child on the far side takes the place of the parent. -/
theorem removeColorLast_spec (side : Side)
    (color shade : Color) (parent tmp : Entry α κ V)
    (path : Path (Entry α κ V)) (tree near far : Tree (Entry α κ V))
    (represents : Represents others store
      (Path.fill (⟨side, shade, tmp, far⟩ :: ⟨side.opposite, color, parent, tree⟩ :: path)
        near)) :
    ∃ after, removeColorLast side (some parent.address) (some tmp.address) store =
        (.ok ⟨⟩, after) ∧
      Represents others after (Path.fill path
        (make side color (make side .black tree parent near) tmp
          (far.recolor .black))) := by
  have loaded := load_of_represents ⟨side.opposite, color, parent, tree⟩ path _ represents
  rcases setColor_spec ⟨side, shade, tmp, far⟩ _ near represents color with
    ⟨first, isFirst, represents⟩
  rcases setColor_spec ⟨side.opposite, color, parent, tree⟩ path
    (Frame.plug ⟨side, color, tmp, far⟩ near) represents .black with
      ⟨second, isSecond, represents⟩
  have loadedTmp := load_of_represents ⟨side, color, tmp, far⟩
    (⟨side.opposite, .black, parent, tree⟩ :: path) near represents
  have represents : Represents others second
      (Path.fill (⟨side.opposite, color, tmp, near⟩ ::
        ⟨side.opposite, .black, parent, tree⟩ :: path) far) := by
    rw [← fill_opposite]
    exact represents
  rcases blacken_spec _ far represents with ⟨third, isThird, represents⟩
  rw [fill_opposite, Side.opposite_opposite] at represents
  rcases rotate_spec _ _ path near rfl represents with ⟨fourth, isFourth, represents⟩
  have link : (Frame.node ⟨side, color, tmp, far⟩ near.pointer
      (Path.above (⟨side.opposite, .black, parent, tree⟩ :: path))).link side.opposite =
      far.pointer := Frame.node_link_opposite ⟨side, color, tmp, far⟩ _ _
  refine ⟨fourth, ?_, ?_⟩
  · rw [removeColorLast, Fallible.bind_of_ok loaded,
      Frame.node_color, Fallible.bind_of_ok isFirst,
      Fallible.bind_of_ok isSecond, Fallible.bind_of_ok loadedTmp, link,
      Fallible.bind_of_ok isThird]
    exact isFourth
  · simp only [Path.fill_cons, Frame.plug, make_opposite] at represents
    exact represents

/-- What a round returns, and what it makes of the tree. -/
def Settled.Outcome (others : α → Option (Node α κ V))
    (path : Path (Entry α κ V)) (parent : α)
    (returned : Option (Option α × Option α)) (after : Store α κ V) :
    Settled (Entry α κ V) → Prop
  | .complete subtree =>
      returned = none ∧ Represents others after (Path.fill path subtree)
  | .lacking subtree => returned = some (path.above, some parent) ∧
      subtree.pointer = some parent ∧ Represents others after (Path.fill path subtree)

omit [DecidableEq α] in
/-- The color of a child, as a node points to it. -/
theorem isBlack_child (path : Path (Entry α κ V)) (tree : Tree (Entry α κ V))
    (represents : Represents others store (Path.fill path tree)) (side : Side) :
    isBlack (tree.child side).pointer store =
      (.ok (decide ((tree.child side).color = .black)), store) := by
  cases tree with
  | leaf => rfl
  | node color left entry right =>
      rw [node_eq_make side color entry left right] at represents
      exact isBlack_spec (⟨side, color, entry, _⟩ :: path) _ represents

omit [DecidableEq α] in
/-- The colors of both children do not depend on the side from which they are seen. -/
theorem children_black (side : Side) (color : Color) (near far : Tree α) (entry : α) :
    (decide (((make side color near entry far).child .left).color = .black) &&
      decide (((make side color near entry far).child .right).color = .black)) =
    (decide (near.color = .black) && decide (far.color = .black)) := by
  cases side with
  | left => rfl
  | right => exact Bool.and_comm _ _

/-- A round with a black sibling settles the lack. -/
theorem removeColorSettle_spec (side : Side)
    (color shade : Color) (parent tmp : Entry α κ V)
    (path : Path (Entry α κ V)) (tree near far : Tree (Entry α κ V))
    (represents : Represents others store
      (Path.fill (⟨side, color, parent, make side shade near tmp far⟩ :: path) tree)) :
    ∃ returned after, removeColorSettle side (some parent.address)
      (some tmp.address) store =
        (.ok returned, after) ∧
      (settle ⟨side, color, parent, make side shade near tmp far⟩ tree).Outcome
        others path
        parent.address returned after := by
  have loadedParent := load_of_represents _ path tree represents
  rw [fill_opposite] at represents
  have isPointer : (make side shade near tmp far).pointer = some tmp.address :=
    pointer_make ..
  rcases load_focus _ represents isPointer with ⟨node, loaded, _, _, links⟩
  have colors (child : Side) := isBlack_child _ _ represents child
  have left : isBlack node.left store = _ :=
    (congrArg (isBlack · store) (links .left)).trans
    (colors .left)
  have right : isBlack node.right store = _ :=
    (congrArg (isBlack · store) (links .right)).trans
    (colors .right)
  have farLink : node.link side.opposite =
      far.pointer := by rw [links, child_opposite_make]
  have nearLink : node.link side = near.pointer := by rw [links, child_make]
  have farBlack := colors side.opposite
  rw [child_opposite_make] at farBlack
  rw [removeColorSettle, Fallible.bind_of_ok loaded, Fallible.bind_of_ok left,
    Fallible.bind_of_ok right, children_black]
  rcases nephews_cases side near far with
    farRed | ⟨farNotRed, first, inner, second, rfl⟩ | both
  · -- The far child is red.
    rw [settle_far farRed]
    rcases removeColorLast_spec side color shade
      parent tmp path tree near far represents with
      ⟨after, isAfter, represents⟩
    refine ⟨none, after, ?_, rfl, represents⟩
    simp only [farRed, reduceCtorEq, decide_false,
      Bool.and_false, Bool.false_eq_true, if_false]
    rw [farLink, Fallible.bind_of_ok farBlack]
    simp only [farRed, reduceCtorEq, decide_false, Bool.false_eq_true, if_false]
    rw [Fallible.bind_of_ok isAfter]
    rfl
  · -- Only the near child is red, and is rotated above the sibling.
    rw [settle_near farNotRed]
    rcases blacken_spec
      (⟨side, shade, tmp, far⟩ :: ⟨side.opposite, color, parent, tree⟩ :: path)
      (make side .red first inner second) represents with
        ⟨firstStore, isFirst, represents⟩
    rcases setColor_spec _ _ _ represents .red with ⟨secondStore, isSecond, represents⟩
    have represents : Represents others secondStore
        (Path.fill (⟨side.opposite, .black, inner, first⟩
        :: ⟨side, .red, tmp, far⟩ :: ⟨side.opposite, color, parent, tree⟩ ::
          path) second) := by
      rw [← fill_opposite, Path.fill_cons, Frame.plug,
        ← recolor_make side .red first second inner]
      exact represents
    rcases rotate_spec _ _ _ second (Side.opposite_opposite side).symm represents with
      ⟨thirdStore, isThird, represents⟩
    have represents : Represents others thirdStore (Path.fill (⟨side, .black, inner,
        make side .red second tmp far⟩ :: ⟨side.opposite,
        color, parent, tree⟩ :: path) first) := by
      rw [fill_opposite]
      exact represents
    have reloaded :=
      load_of_represents ⟨side.opposite, color, parent, tree⟩ path _ represents
    rcases removeColorLast_spec side color .black
      parent inner path tree first _ represents with
      ⟨after, isAfter, represents⟩
    rw [recolor_make] at represents
    refine ⟨none, after, ?_, rfl, represents⟩
    have innerLink : (Frame.node ⟨side.opposite, color, parent, tree⟩
        (Frame.plug ⟨side, .black, inner, make side .red second tmp far⟩ first).pointer
        path.above).link side.opposite = some inner.address := by
      rw [Frame.node_link ⟨side.opposite, color, parent, tree⟩]
      exact pointer_make ..
    simp only [color_make, reduceCtorEq, decide_false,
      Bool.false_and, Bool.false_eq_true, if_false]
    rw [farLink, Fallible.bind_of_ok farBlack, nearLink]
    simp only [farNotRed, decide_true, if_true]
    rw [Fallible.bind_of_ok isFirst, Fallible.bind_of_ok isSecond,
      Fallible.bind_of_ok isThird,
      Fallible.bind_of_ok reloaded, innerLink, Fallible.bind_of_ok isAfter]
    rfl
  · -- Both children are black.
    rw [settle_lacking both.1 both.2]
    rcases recolor_spec _ represents isPointer .red with ⟨after, isAfter, represents⟩
    have reloaded := load_of_represents _ path _ represents
    refine ⟨_, after, ?_, rfl, pointer_make .., ?_⟩
    · simp only [both.1, both.2, decide_true, Bool.and_self, if_true]
      rw [Fallible.bind_of_ok isAfter, Fallible.bind_of_ok reloaded, Frame.node_parent]
      rfl
    · rw [← fill_opposite, recolor_make] at represents
      exact represents

/-- One round below a black sibling. -/
theorem removeColorRound_black (frame : Frame (Entry α κ V)) (path : Path (Entry α κ V))
    (tree : Tree (Entry α κ V)) {tmp : Entry α κ V}
    (represents : Represents others store (Path.fill (frame :: path) tree))
    (isRoot : frame.sibling.root = some tmp) (isBlack : frame.sibling.color = .black) :
    ∃ returned after, removeColorRound frame.side (some frame.entry.address) store =
        (.ok returned, after) ∧
      (settle frame tree).Outcome others path frame.entry.address returned after := by
  have loadedParent := load_of_represents frame path tree represents
  rcases frame with ⟨side, color, parent, sibling⟩
  rcases exists_make_of_root side isRoot with ⟨near, far, isSibling⟩
  simp only at isBlack isSibling
  rw [isBlack] at isSibling
  subst isSibling
  rcases removeColorSettle_spec side color .black
    parent tmp path tree near far represents with
    ⟨returned, after, isAfter, outcome⟩
  refine ⟨returned, after, ?_, outcome⟩
  rw [fill_opposite] at represents
  rcases load_focus _ represents (pointer_make ..) with ⟨node, loaded, _, isColor, _⟩
  rw [removeColorRound, Fallible.bind_of_ok loadedParent,
    Frame.node_link_opposite, pointer_make, Fallible.bind_of_ok loaded, isColor]
  simp only [color_make, reduceCtorEq, if_false]
  exact isAfter

/-- One round below a red sibling, which is rotated above the parent first. -/
theorem removeColorRound_red (side : Side)
    (color : Color) (parent sibling tmp : Entry α κ V)
    (path : Path (Entry α κ V)) (tree near far : Tree (Entry α κ V))
    (represents : Represents others store
      (Path.fill (⟨side, color, parent, make side .red near sibling far⟩ :: path) tree))
    (isRoot : near.root = some tmp) (isBlack : near.color = .black) :
    ∃ returned after, removeColorRound side (some parent.address) store =
      (.ok returned, after) ∧
      (settle ⟨side, .red, parent, near⟩ tree).Outcome others
        (⟨side, .black, sibling, far⟩ :: path) parent.address returned after := by
  have loadedParent := load_of_represents _ path tree represents
  have parentLink : (Frame.node
      ⟨side, color, parent, make side .red near sibling far⟩ tree.pointer
      path.above).link side.opposite = some sibling.address :=
    (Frame.node_link_opposite ⟨side, color, parent, _⟩ _ _).trans (pointer_make ..)
  rw [fill_opposite] at represents
  rcases load_focus _ represents (pointer_make ..) with ⟨node, loaded, _, isColor, _⟩
  rcases setBlackRed_spec ⟨side, .red, sibling, far⟩
    ⟨side.opposite, color, parent, tree⟩ path near
    represents with ⟨first, isFirst, represents⟩
  rcases rotate_spec _ _ path near rfl represents with ⟨second, isSecond, represents⟩
  rw [fill_opposite, Side.opposite_opposite] at represents
  have reloaded := load_of_represents _ _ tree represents
  have nearLink : (Frame.node ⟨side, .red, parent, near⟩ tree.pointer
      (Path.above (⟨side, .black, sibling, far⟩ :: path))).link side.opposite =
      some tmp.address :=
    (Frame.node_link_opposite ⟨side, .red, parent, near⟩ _ _).trans
      (congrArg (Option.map Entry.address) isRoot)
  rcases exists_make_of_root side isRoot with ⟨first, second, isNear⟩
  rw [isBlack] at isNear
  subst isNear
  rcases removeColorSettle_spec side .red .black parent tmp _ tree _ _ represents with
    ⟨returned, after, isAfter, outcome⟩
  refine ⟨returned, after, ?_, outcome⟩
  rw [removeColorRound, Fallible.bind_of_ok loadedParent,
    parentLink, Fallible.bind_of_ok loaded, isColor]
  simp only [color_make, if_true]
  rw [Fallible.bind_of_ok isFirst, Fallible.bind_of_ok isSecond,
    Fallible.bind_of_ok reloaded, nearLink]
  exact isAfter

/-! ## The loop -/

/-- The loop is left at a red node, and at the root. -/
theorem removeColor_done (path : Path (Entry α κ V)) (tree : Tree (Entry α κ V))
    (represents : Represents others store (Path.fill path tree))
    (leaves : tree.color = .red ∨ path = []) (rounds : Nat) :
    ∃ after, removeColor (rounds + 1) path.above tree.pointer store = (.ok ⟨⟩, after) ∧
      Represents others after (Path.fill path (tree.recolor .black)) := by
  rcases blacken_spec path tree represents with ⟨after, isAfter, mended⟩
  refine ⟨after, ?_, mended⟩
  have black := isBlack_spec path tree represents
  have asked : rbhRoot store = (.ok store.root, store) := rfl
  rw [removeColor, Fallible.bind_of_ok black, Fallible.bind_of_ok asked, if_neg]
  · exact isAfter
  · intro goesOn
    simp only [Bool.and_eq_true, decide_eq_true_eq] at goesOn
    cases leaves with
    | inl isRed =>
        rw [isRed] at goesOn
        cases goesOn.1
    | inr isTop =>
        subst isTop
        exact goesOn.2 represents.root.symm

omit [DecidableEq α] in
/-- A path that is not empty starts at one of its own nodes. -/
theorem top_cons (frame : Frame (Entry α κ V))
    (path : Path (Entry α κ V)) (hole : Option α) :
    ∃ address ∈ addresses (Path.entries (frame :: path)),
      Path.top hole (frame :: path) = some address := by
  induction path generalizing frame hole with
  | nil => exact ⟨frame.entry.address, List.mem_cons_self .., rfl⟩
  | cons upper path ih =>
      rcases ih upper (some frame.entry.address) with ⟨address, member, isTop⟩
      refine ⟨address, ?_, isTop⟩
      simp only [addresses, Path.entries, List.map_cons, List.map_append, List.mem_cons,
        List.mem_append] at member ⊢
      exact .inr (.inr member)

omit [DecidableEq α] in
/-- A subtree below a path is not the whole tree. -/
theorem pointer_ne_root (frame : Frame (Entry α κ V)) (path : Path (Entry α κ V))
    (tree : Tree (Entry α κ V))
    (represents : Represents others store (Path.fill (frame :: path) tree)) :
    tree.pointer ≠ store.root := by
  rcases (represents_fill _ _).mp represents with ⟨root, _, _, distinct, _⟩
  rcases top_cons frame path tree.pointer with ⟨address, member, isTop⟩
  rw [root, isTop]
  intro same
  rcases Option.map_eq_some_iff.mp same with ⟨entry, isRoot, rfl⟩
  rw [addresses, List.map_append, List.nodup_append] at distinct
  exact distinct.2.2 _ member _ (List.mem_map_of_mem (mem_toList_of_root isRoot)) rfl

/-- The loop goes through a round at a black node below the root. -/
theorem removeColor_round (frame : Frame (Entry α κ V)) (path : Path (Entry α κ V))
    (tree : Tree (Entry α κ V))
    (represents : Represents others store (Path.fill (frame :: path) tree))
    (isBlack : tree.color = .black) {tmp : α}
    (isSibling : frame.sibling.pointer = some tmp)
    (rounds : Nat) :
    removeColor (rounds + 1) (some frame.entry.address) tree.pointer store =
      (removeColorRound frame.side (some frame.entry.address) >>= fun returned =>
        match returned with
        | some (parent, elm) => removeColor rounds parent elm
        | none => rbhRoot >>= blacken) store := by
  have black := isBlack_spec (frame :: path) tree represents
  have asked : rbhRoot store = (.ok store.root, store) := rfl
  have loaded := load_of_represents frame path tree represents
  have different := pointer_ne_root frame path tree represents
  have isSide : (if
      (frame.node tree.pointer path.above).left = tree.pointer then Side.left
      else .right) = frame.side := by
    cases isSide : frame.side with
    | left =>
        apply if_pos
        rcases frame with ⟨side, color, entry, sibling⟩
        cases isSide
        rfl
    | right =>
        apply if_neg
        intro same
        rcases frame with ⟨side, color, entry, sibling⟩
        cases isSide
        have same : sibling.pointer = tree.pointer := same
        rw [isSibling] at same
        exact sibling_ne _ path represents same.symm isSibling
  have goesOn : (decide (tree.color = .black) && decide (tree.pointer ≠ store.root)) =
      true := by
    simp [isBlack, different]
  rw [removeColor, Fallible.bind_of_ok black, Fallible.bind_of_ok asked]
  refine (congrFun (if_pos goesOn) store).trans ((Fallible.bind_of_ok loaded).trans ?_)
  exact congrArg
    (fun side => (removeColorRound side (some frame.entry.address) >>= fun returned =>
    match returned with
    | some (parent, elm) => removeColor rounds parent elm
    | none => rbhRoot >>= blacken) store) isSide

/-- After the loop is left from within, the root becomes black, which it is already. -/
theorem blacken_root {tree : Tree (Entry α κ V)}
    (represents : Represents others store tree)
    (isTree : IsRedBlack tree) : ∃ after, (rbhRoot >>= blacken) store = (.ok ⟨⟩, after) ∧
      Represents others after tree := by
  rcases blacken_spec [] tree represents with ⟨after, isAfter, mended⟩
  rw [Path.fill_nil, recolor_of_color_eq isTree.1] at mended
  refine ⟨after, ?_, mended⟩
  rw [← represents.root] at isAfter
  exact isAfter

/-- `RB_REMOVE_COLOR` refills the tree, in no more rounds than the path is long. -/
theorem removeColor_spec {blacks : Nat} (path : Path (Entry α κ V))
    {tree : Tree (Entry α κ V)}
    (represents : Represents others store (Path.fill path tree))
    (fits : Path.Fits path .black (blacks + 1)) (lacks : Lacks tree blacks) {rounds : Nat}
    (enough : path.length < rounds) :
    ∃ after, removeColor rounds path.above tree.pointer store = (.ok ⟨⟩, after) ∧
      Represents others after (refill path tree) := by
  have isTree := redBlack_refill fits lacks
  induction path generalizing tree store blacks rounds with
  | nil =>
      cases rounds with
      | zero => cases enough
      | succ rounds => exact removeColor_done [] tree represents (.inr rfl) rounds
  | cons frame path ih =>
      cases rounds with
      | zero => cases enough
      | succ rounds =>
          rw [List.length_cons, Nat.add_lt_add_iff_right] at enough
          cases isColor : tree.color with
          | red =>
              rw [refill_of_red isColor]
              exact removeColor_done (frame :: path) tree represents (.inl isColor) rounds
          | black =>
              rcases fits.sibling.exists_make frame.side with
                ⟨near, entry, far, isSibling⟩
              have isPointer : frame.sibling.pointer = some entry.address := by
                rw [isSibling, pointer_make]
              have isRoot : frame.sibling.root =
                  some entry := by rw [isSibling, root_make]
              rw [Path.above, removeColor_round frame path
                tree represents isColor isPointer]
              cases siblingColor : frame.sibling.color with
              | black =>
                  rcases removeColorRound_black frame path tree
                    represents isRoot siblingColor with
                    ⟨returned, first, isFirst, outcome⟩
                  rw [Fallible.bind_of_ok isFirst]
                  have sound := sound_settle fits.sibling siblingColor (lacks.1 isColor)
                  rw [refill_of_black isColor siblingColor] at isTree ⊢
                  cases isSettled : settle frame tree with
                  | complete subtree =>
                      rw [isSettled] at outcome isTree
                      rcases outcome with ⟨rfl, represents⟩
                      exact blacken_root represents isTree
                  | lacking subtree =>
                      rw [isSettled] at outcome sound isTree
                      rcases outcome with ⟨rfl, isParent, represents⟩
                      have above := fits.above.to_black
                      rw [Nat.add_right_comm] at above
                      rcases ih represents above sound.1 enough isTree with
                        ⟨after, isAfter, mended⟩
                      rw [isParent] at isAfter
                      exact ⟨after, isAfter, mended⟩
              | red =>
                  rcases frame with ⟨side, color, parent, sibling⟩
                  simp only at isSibling siblingColor
                  rw [siblingColor] at isSibling
                  subst isSibling
                  rcases fits.sibling.of_make_red with ⟨isNear, nearBlack, _, _⟩
                  rcases isNear.exists_make side with ⟨first, tmp, second, isMake⟩
                  have nearRoot : near.root = some tmp := by rw [isMake, root_make]
                  rcases removeColorRound_red side color parent
                    entry tmp path tree near far
                    represents
                    nearRoot nearBlack with ⟨returned, firstStore, isFirst, outcome⟩
                  rw [Fallible.bind_of_ok isFirst]
                  have sound : (settle ⟨side, .red, parent, near⟩ tree).Sound
                      .red blacks :=
                    sound_settle isNear nearBlack (lacks.1 isColor)
                  rw [refill_of_red_sibling isColor] at isTree ⊢
                  cases isSettled : settle ⟨side, .red, parent, near⟩ tree with
                  | complete subtree =>
                      rw [isSettled] at outcome isTree
                      rcases outcome with ⟨rfl, represents⟩
                      exact blacken_root represents isTree
                  | lacking subtree =>
                      rw [isSettled] at outcome sound
                      rcases outcome with ⟨rfl, isParent, represents⟩
                      cases rounds with
                      | zero => cases enough
                      | succ rounds =>
                          rcases removeColor_done _ subtree represents
                            (.inl sound.2) rounds with
                            ⟨after, isAfter, mended⟩
                          rw [isParent] at isAfter
                          exact ⟨after, isAfter, mended⟩

end LuaJack.RedBlack
