import LuaJack.RedBlack.Mend
import LuaJack.RedBlack.Steps

/-!
# Recoloring after an insertion

`RB_INSERT_COLOR` mends the tree in memory, round by round, and ends.
-/

namespace LuaJack.RedBlack

variable {α κ V : Type} [DecidableEq α]
variable {others : α → Option (Node α κ V)} {store : Store α κ V}

open RedBlack.Tree

/-- A round below a red uncle goes on at the grandparent. -/
theorem insertColorRound_recolor (parent grandparent : Frame (Entry α κ V))
    (path : Path (Entry α κ V)) (tree : Tree (Entry α κ V)) (elm : Option α)
    (represents : Represents others store
      (Path.fill (parent :: grandparent :: path) tree))
    (uncleRed : grandparent.sibling.color = .red) :
    ∃ after, insertColorRound grandparent.side elm (some parent.entry.address)
        (some grandparent.entry.address) store =
          (.ok (some grandparent.entry.address), after) ∧
      Represents others after (Path.fill path (make grandparent.side .red
        (Frame.plug { parent with color := .black } tree) grandparent.entry
        (grandparent.sibling.recolor .black))) := by
  have loaded := load_of_represents grandparent path (parent.plug tree) represents
  rcases grandparent with ⟨side, color, entry, uncle⟩
  rcases exists_root_of_red uncleRed with ⟨root, isRoot⟩
  have isPointer : uncle.pointer = some root.address :=
    congrArg (Option.map Entry.address) isRoot
  rw [Path.fill_cons, fill_opposite] at represents
  have red := isRed_spec _ uncle represents
  rcases recolor_spec _ represents isPointer .black with ⟨first, isFirst, represents⟩
  rw [fill_opposite, Side.opposite_opposite] at represents
  rcases setBlackRed_spec parent _ path tree represents with
    ⟨second, isSecond, represents⟩
  refine ⟨second, ?_, represents⟩
  rw [insertColorRound, Fallible.bind_of_ok loaded, Frame.node_link_opposite,
    Fallible.bind_of_ok red]
  simp only [uncleRed, decide_true, if_true]
  rw [isPointer, Fallible.bind_of_ok isFirst, Fallible.bind_of_ok isSecond]
  rfl

/-- A round below a black uncle makes a black node the root of the subtree, and goes on
at one of its red children. -/
theorem insertColorRound_turn (parent grandparent : Frame (Entry α κ V))
    (path : Path (Entry α κ V)) {tree : Tree (Entry α κ V)} {elm : α}
    (represents : Represents others store
      (Path.fill (parent :: grandparent :: path) tree))
    (isPointer : tree.pointer = some elm) (parentRed : parent.color = .red)
    (uncleBlack : grandparent.sibling.color ≠ .red) :
    ∃ next after, insertColorRound grandparent.side (some elm) (some parent.entry.address)
        (some grandparent.entry.address) store = (.ok (some next), after) ∧
      Represents others after (Path.fill path (turn grandparent parent tree)) ∧
      ∃ frame lower, frame.color = .black ∧
        turn grandparent parent tree = Frame.plug frame lower ∧
        lower.pointer = some next := by
  have loaded := load_of_represents grandparent path (parent.plug tree) represents
  have linked := link_eq_iff parent (grandparent :: path) represents isPointer
  have isParent := load_of_represents parent (grandparent :: path) tree represents
  rw [isPointer] at isParent
  have notRed : isRed grandparent.sibling.pointer store = (.ok false, store) := by
    have represents := represents
    rw [Path.fill_cons, fill_opposite] at represents
    rw [isRed_spec _ grandparent.sibling represents]
    simp [uncleBlack]
  rw [insertColorRound, Fallible.bind_of_ok loaded, Frame.node_link_opposite,
    Fallible.bind_of_ok notRed]
  simp only [Bool.false_eq_true, if_false]
  rw [Fallible.bind_of_ok isParent]
  by_cases outer : parent.side = grandparent.side
  · have notLinked : ¬(parent.node (some elm) (Path.above (grandparent :: path))).link
        grandparent.side.opposite = some elm := by
      rw [linked, outer]
      exact (Side.opposite_ne _).symm
    rw [if_neg notLinked]
    rcases setBlackRed_spec parent grandparent path tree represents with
      ⟨first, isFirst, represents⟩
    rw [fill_opposite, outer] at represents
    rcases rotate_spec _ _ path parent.sibling
      (Side.opposite_opposite _).symm represents with
      ⟨second, isSecond, represents⟩
    refine ⟨elm, second, ?_, ?_, ⟨grandparent.side, .black, parent.entry, _⟩, tree, rfl,
      turn_outer outer tree, isPointer⟩
    · rw [Fallible.bind_of_ok isFirst, Fallible.bind_of_ok isSecond]
      rfl
    · simp only [Path.fill_cons, Frame.plug, make_opposite] at represents
      rw [turn_outer outer]
      exact represents
  · have linked : (parent.node (some elm) (Path.above (grandparent :: path))).link
        grandparent.side.opposite = some elm := by
      rw [linked]
      exact Side.eq_opposite_of_ne outer
    rw [if_pos linked]
    have isEntry : ∃ entry : Entry α κ V, tree.root = some entry ∧ entry.address = elm :=
      Option.map_eq_some_iff.mp isPointer
    rcases isEntry with ⟨entry, isRoot, rfl⟩
    rcases exists_make_of_root grandparent.side isRoot with ⟨near, far, isTree⟩
    have opened : Path.fill (parent :: grandparent :: path) tree =
        Path.fill (⟨grandparent.side, tree.color, entry, far⟩ ::
          parent :: grandparent :: path)
          near := congrArg (Path.fill _) isTree
    rw [opened] at represents
    rcases rotate_spec ⟨grandparent.side, tree.color, entry, far⟩ parent
      (grandparent :: path) near
      (Side.eq_opposite_of_ne outer) represents with ⟨first, isFirst, represents⟩
    rcases setBlackRed_spec ⟨grandparent.side, tree.color, entry, far⟩ grandparent path
      (parent.plug near) represents with ⟨second, isSecond, represents⟩
    rw [fill_opposite] at represents
    rcases rotate_spec _ _ path far (Side.opposite_opposite _).symm represents with
      ⟨third, isThird, represents⟩
    have turned := turn_inner outer tree.color near far entry
    rw [← isTree] at turned
    refine ⟨parent.entry.address, third, ?_, ?_,
      ⟨grandparent.side, .black, entry, _⟩, _, rfl, turned, pointer_make ..⟩
    · rw [Fallible.bind_of_ok isFirst, Fallible.bind_of_ok isSecond,
        Fallible.bind_of_ok isThird]
      rfl
    · simp only [Path.fill_cons, Frame.plug, make_opposite] at represents
      rw [← Frame.plug, plug_of_ne outer, parentRed] at represents
      rw [turned]
      exact represents

/-- The last round: the parent is black, or there is none. -/
theorem insertColor_done (path : Path (Entry α κ V)) {tree : Tree (Entry α κ V)} {elm : α}
    (represents : Represents others store (Path.fill path tree))
    (isPointer : tree.pointer = some elm)
    (parentBlack : ∀ frame ∈ path.head?, frame.color = .black) (rounds : Nat) :
    ∃ after, insertColor (rounds + 1) (some elm) store = (.ok ⟨⟩, after) ∧
      Represents others after ((Path.fill path tree).recolor .black) := by
  rcases load_focus path represents isPointer with ⟨node, loaded, isParent, _, _⟩
  have notRed : isRed path.above store = (.ok false, store) := by
    cases path with
    | nil => rfl
    | cons frame path =>
        have red := isRed_spec path (frame.plug tree) represents
        rw [Frame.plug, pointer_make, color_make, parentBlack frame rfl] at red
        exact red
  have isTop : ∃ root, store.root = some root ∧
      (Path.fill path tree).pointer = some root := by
    rw [represents.root]
    cases isRoot : (Path.fill path tree).root with
    | none =>
        rcases Option.map_eq_some_iff.mp isPointer with ⟨entry, isEntry, _⟩
        have member := path.mem_toList_fill (mem_toList_of_root isEntry)
        cases isTree : Path.fill path tree with
        | leaf =>
            rw [isTree] at member
            cases member
        | node color left entry right =>
            rw [isTree] at isRoot
            cases isRoot
    | some entry =>
        exact ⟨entry.address, by simp [pointer, isRoot], by simp [pointer, isRoot]⟩
  rcases isTop with ⟨root, isRoot, topPointer⟩
  rcases recolor_spec [] represents topPointer .black with ⟨after, recolored, represents⟩
  refine ⟨after, ?_, represents⟩
  have asked : rbhRoot store = (.ok (some root), store) := by
    rw [← isRoot]
    rfl
  rw [insertColor, Fallible.bind_of_ok loaded, isParent, Fallible.bind_of_ok notRed]
  simp only [Bool.false_eq_true, if_false]
  rw [Fallible.bind_of_ok asked]
  exact recolored

/-- A round takes place below a red parent. -/
theorem insertColor_round {parent grandparent : Frame (Entry α κ V)}
    {path : Path (Entry α κ V)} {tree : Tree (Entry α κ V)} {elm : α}
    (represents : Represents others store
      (Path.fill (parent :: grandparent :: path) tree))
    (isPointer : tree.pointer = some elm) (parentRed : parent.color = .red)
    (rounds : Nat) :
    insertColor (rounds + 1) (some elm) store =
      (insertColorRound grandparent.side (some elm) (some parent.entry.address)
        (some grandparent.entry.address) >>= insertColor rounds) store := by
  rcases load_focus _ represents isPointer with ⟨node, loaded, isParent, _, _⟩
  have red := isRed_spec (grandparent :: path) (parent.plug tree) represents
  rw [Frame.plug, pointer_make, color_make, parentRed] at red
  have loadedParent := load_of_represents parent (grandparent :: path) tree represents
  have loadedGrandparent :=
    load_of_represents grandparent path (parent.plug tree) represents
  have plugged : (parent.plug tree).pointer = some parent.entry.address := pointer_make ..
  have isSide : (if some parent.entry.address =
      (grandparent.node (parent.plug tree).pointer path.above).left then Side.left
        else .right) =
      grandparent.side := by
    have isLeft := link_eq_iff grandparent path represents plugged .left path.above
    rw [plugged, eq_comm]
    cases side : grandparent.side with
    | left => exact (if_pos (isLeft.mpr side).symm).symm
    | right =>
        rw [if_neg]
        intro same
        rw [isLeft.mp same.symm] at side
        cases side
  rw [insertColor, Fallible.bind_of_ok loaded,
    isParent, Path.above, Fallible.bind_of_ok red]
  simp only [decide_true, if_true]
  rw [Fallible.bind_of_ok loadedParent, Frame.node_parent, Path.above,
    Fallible.bind_of_ok loadedGrandparent]
  rw [isSide]

/-- `RB_INSERT_COLOR` mends the tree, in no more rounds than the path is long. -/
theorem insertColor_spec {blacks : Nat} (path : Path (Entry α κ V))
    {tree : Tree (Entry α κ V)}
    {elm : α} (represents : Represents others store (Path.fill path tree))
    (isPointer : tree.pointer = some elm)
    (fits : Path.Fits path .black blacks) {rounds : Nat} (enough : path.length < rounds) :
    ∃ after, insertColor rounds (some elm) store = (.ok ⟨⟩, after) ∧
      Represents others after ((mend path tree).recolor .black) := by
  cases rounds with
  | zero => cases enough
  | succ rounds =>
  induction path, tree using mend.induct generalizing store elm blacks rounds with
  | case1 tree =>
      exact insertColor_done [] represents isPointer (fun _ none => by cases none) rounds
  | case2 frame tree =>
      apply insertColor_done [frame] represents isPointer
      intro _ same
      cases same
      cases isColor : frame.color with
      | black => rfl
      | red => exact absurd (fits.of_red isColor).2.2 Path.Fits.not_red_nil
  | case3 parent grandparent path tree parentRed uncleRed ih =>
      rcases insertColorRound_recolor parent grandparent path tree (some elm) represents
        uncleRed with
        ⟨first, isFirst, mended⟩
      have above := (fits.of_red parentRed).2.2
      cases rounds with
      | zero => simp at enough
      | succ rounds =>
          simp only [List.length_cons] at enough
          rcases ih mended (pointer_make ..) (above.of_black above.red_cons).2 rounds
            (by omega) with
            ⟨after, isAfter, mended⟩
          refine ⟨after, ?_, ?_⟩
          · rw [insertColor_round represents isPointer parentRed,
              Fallible.bind_of_ok isFirst]
            exact isAfter
          · rw [mend, if_pos parentRed, if_pos uncleRed]
            exact mended
  | case4 parent grandparent path tree parentRed uncleBlack =>
      rcases insertColorRound_turn parent grandparent
        path represents isPointer parentRed uncleBlack
        with ⟨next, first, isFirst, turned, frame, lower, frameBlack, isTurn, isNext⟩
      cases rounds with
      | zero => simp at enough
      | succ rounds =>
          rw [isTurn] at turned
          rcases insertColor_done (frame :: path) turned isNext (fun _ same => by
            cases same
            exact frameBlack) rounds with ⟨after, isAfter, mended⟩
          refine ⟨after, ?_, ?_⟩
          · rw [insertColor_round represents isPointer parentRed,
              Fallible.bind_of_ok isFirst]
            exact isAfter
          · rw [mend, if_pos parentRed, if_neg uncleBlack, isTurn]
            exact mended
  | case5 parent grandparent path tree parentBlack =>
      rw [mend, if_neg parentBlack]
      apply insertColor_done (parent :: grandparent :: path) represents isPointer
      intro _ same
      cases same
      exact Color.eq_black parentBlack

end LuaJack.RedBlack
