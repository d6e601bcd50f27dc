import LuaJack.RedBlack.Lookup
import LuaJack.RedBlack.RemoveColor

/-!
# Removal from memory

`RB_REMOVE` takes a node out.  A node with two subtrees gives its place to the next
node, which is taken out first. -/

namespace LuaJack.RedBlack

variable {α κ V : Type} [DecidableEq α]
variable {others : α → Option (Node α κ V)} {store : Store α κ V}

open RedBlack.Tree

/-! ## A node with at most one subtree -/

/-- The only subtree of a node takes its place.  The node itself stays as it is. -/
theorem unlink_spec (side : Side) (color : Color)
    (elm : Entry α κ V) (path : Path (Entry α κ V)) (child : Tree (Entry α κ V))
    (represents : Represents others store
      (Path.fill path (make side color .leaf elm child))) :
    ∃ after, unlink (some elm.address) child.pointer store = (.ok path.above, after) ∧
      after.node elm.address = store.node elm.address ∧
      Represents (Function.update others elm.address (store.node elm.address)) after
        (Path.fill path child) := by
  have loaded := load_of_represents ⟨side, color, elm, child⟩ path .leaf represents
  have represents : Represents others store
      (Path.fill (⟨side.opposite, color, elm, .leaf⟩ :: path) child) := by
    rw [← fill_opposite]
    exact represents
  rcases (represents_fill _ _).mp represents with
    ⟨root, around, inside, distinct, outside⟩
  simp only [Path.cells, Contains.cons, Contains.append] at around
  rcases around with ⟨isElm, _, isPath⟩
  have alone : (elm.address :: addresses path.entries ++
      addresses child.toList).Nodup := by
    simpa [Path.entries, toList] using distinct
  have pathDistinct : (addresses path.entries).Nodup := by grind
  have childDistinct : (addresses child.toList).Nodup := by grind
  have elmPath : elm.address ∉ addresses path.entries := by grind
  have elmChild : elm.address ∉ addresses child.toList := by grind
  have apart : ∀ address ∈ addresses path.entries,
      address ∉ addresses child.toList := by grind
  rcases adopt_spec inside childDistinct path.above with
    ⟨first, isFirst, firstRoot, firstChild, firstElse⟩
  have firstPath : Contains first.node (path.cells (some elm.address)) := by
    apply isPath.congr
    rw [Path.cells_addresses]
    exact fun address member => firstElse address (apart address member)
  have firstTop : first.root = path.top (some elm.address) := firstRoot.trans root
  rcases replaceChild_spec firstTop firstPath pathDistinct elmPath child.pointer with
    ⟨after, isAfter, afterRoot, afterPath, afterElse⟩
  have same : after.node elm.address = store.node elm.address := by
    rw [afterElse _ elmPath, firstElse _ elmChild]
  refine ⟨after, ?_, same, (represents_fill _ _).mpr ⟨afterRoot, afterPath, ?_, ?_, ?_⟩⟩
  · rw [unlink, Fallible.bind_of_ok loaded, Frame.node_parent,
      Fallible.bind_of_ok isFirst, Fallible.bind_of_ok isAfter]
    rfl
  · apply firstChild.congr
    rw [cells_addresses]
    exact fun address member => afterElse address fun inPath =>
      apart address inPath member
  · rw [addresses, List.map_append]
    exact alone.of_cons
  · intro address absent
    simp only [addresses, List.map_append, List.mem_append, not_or] at absent
    by_cases isElm : address = elm.address
    · rw [isElm, Function.update_self, same]
    · rw [Function.update_of_ne isElm, afterElse address absent.1,
        firstElse address absent.2]
      apply outside
      simpa [Path.entries, toList, isElm] using absent

omit [DecidableEq α] in
/-- A node that is taken out is not in the tree any more. -/
theorem unlinked_absent (side : Side) (color : Color) (elm : Entry α κ V)
    (path : Path (Entry α κ V)) (child : Tree (Entry α κ V))
    (distinct : (addresses
      (Path.fill path (make side color .leaf elm child)).toList).Nodup) :
    elm.address ∉ addresses (Path.fill path child).toList := by
  rw [Path.toList_fill, toList_make] at distinct
  rw [Path.toList_fill]
  cases side with
  | left =>
      simp only [toList, addresses] at distinct ⊢
      grind
  | right =>
      simp only [toList, addresses] at distinct ⊢
      grind

/-! ## A node with two subtrees -/

/-- A node that has the fields of another one takes its place. -/
theorem takePlace_spec (color : Color) (old elm : Entry α κ V) (path : Path (Entry α κ V))
    (left right : Tree (Entry α κ V)) {first : α}
    (represents : Represents others store (Path.fill path (.node color left old right)))
    (isElm : store.node elm.address =
      some (elm.node left.pointer right.pointer path.above color))
    (absent : elm.address ∉ addresses
      (Path.fill path (.node color left old right)).toList)
    (isLeft : left.pointer = some first) :
    ∃ after, takePlace (some old.address) (some elm.address) store = (.ok ⟨⟩, after) ∧
      after.node old.address = store.node old.address ∧
      Represents (Function.update others old.address (store.node old.address)) after
        (Path.fill path (.node color left elm right)) := by
  have isOld := node_of_represents ⟨.left, color, old, right⟩ path left represents
  rcases (represents_fill _ _).mp represents with
    ⟨root, around, inside, distinct, outside⟩
  simp only [Tree.cells, Contains.append, Contains.cons] at inside
  rcases inside with ⟨isLeftTree, _, isRightTree⟩
  have entries := (Path.entries_perm path (.node color left old right)).map Entry.address
  have notElm : elm.address ∉ addresses
      (path.entries ++ (node color left old right).toList) :=
    fun member => absent (entries.mem_iff.mp member)
  have alone : (addresses path.entries ++
      (addresses left.toList ++ old.address :: addresses right.toList)).Nodup := by
    simpa [toList] using distinct
  have elmAlone : elm.address ∉ addresses path.entries ++
      (addresses left.toList ++ old.address :: addresses right.toList) := by
    simpa [toList] using notElm
  have pathDistinct : (addresses path.entries).Nodup := by grind
  have leftDistinct : (addresses left.toList).Nodup := by grind
  have rightDistinct : (addresses right.toList).Nodup := by grind
  have oldPath : old.address ∉ addresses path.entries := by grind
  have oldLeft : old.address ∉ addresses left.toList := by grind
  have oldRight : old.address ∉ addresses right.toList := by grind
  have leftPath : ∀ address ∈ addresses left.toList,
      address ∉ addresses path.entries := by grind
  have rightPath : ∀ address ∈ addresses right.toList,
      address ∉ addresses path.entries := by grind
  have rightLeft : ∀ address ∈ addresses right.toList,
      address ∉ addresses left.toList := by grind
  -- The parent points to the node.
  rcases replaceChild_spec root around pathDistinct oldPath (some elm.address) with
    ⟨second, isSecond, secondRoot, secondPath, secondElse⟩
  have secondOld := (secondElse _ oldPath).trans isOld
  have secondLeft : Contains second.node (left.cells (some old.address)) := by
    apply isLeftTree.congr
    rw [cells_addresses]
    exact fun address member => secondElse address (leftPath address member)
  -- The left subtree points to the node.
  rcases adopt_spec secondLeft leftDistinct (some elm.address) with
    ⟨third, isThird, thirdRoot, thirdLeft, thirdElse⟩
  have thirdOld := (thirdElse _ oldLeft).trans secondOld
  have thirdRight : Contains third.node (right.cells (some old.address)) := by
    apply isRightTree.congr
    rw [cells_addresses]
    intro address member
    rw [thirdElse address (rightLeft address member),
      secondElse address (rightPath address member)]
  -- The right subtree points to the node.
  rcases adopt_spec thirdRight rightDistinct (some elm.address) with
    ⟨after, isAfter, afterRoot, afterRight, afterElse⟩
  have afterOld := (afterElse _ oldRight).trans thirdOld
  refine ⟨after, ?_, afterOld.trans isOld.symm,
    (represents_fill _ _).mpr ⟨?_, ?_, ?_, ?_, ?_⟩⟩
  · have written : write left.pointer (fun node =>
        { node with parent := some elm.address }) second = (.ok ⟨⟩, third) := by
      rw [isLeft] at isThird ⊢
      exact isThird
    have leftLink : (Frame.node ⟨.left, color, old, right⟩ left.pointer path.above).left =
      left.pointer := rfl
    rw [takePlace, Fallible.bind_of_ok (load_of_node isOld), Frame.node_parent,
      Fallible.bind_of_ok isSecond, Fallible.bind_of_ok (load_of_node secondOld),
      leftLink, Fallible.bind_of_ok written, Fallible.bind_of_ok (load_of_node thirdOld)]
    exact isAfter
  · exact afterRoot.trans (thirdRoot.trans secondRoot)
  · apply secondPath.congr
    rw [Path.cells_addresses]
    grind
  · simp only [Tree.cells, Contains.append, Contains.cons]
    refine ⟨?_, ?_, afterRight⟩
    · apply thirdLeft.congr
      rw [cells_addresses]
      grind
    · rw [afterElse _ (by grind), thirdElse _ (by grind), secondElse _ (by grind)]
      exact isElm
  · have renamed : (addresses path.entries ++
        (addresses left.toList ++ elm.address ::
          addresses right.toList)).Nodup := by grind
    simpa [toList] using renamed
  · intro address absent
    have outsideNow : address ∉ addresses path.entries ++
        (addresses left.toList ++ elm.address :: addresses right.toList) := by
      simpa [toList] using absent
    by_cases isOldAddress : address = old.address
    · rw [isOldAddress, Function.update_self, afterOld, isOld]
    · rw [Function.update_of_ne isOldAddress, afterElse address (by grind),
        thirdElse address (by grind), secondElse address (by grind)]
      apply outside
      have outsideBefore : address ∉ addresses path.entries ++
          (addresses left.toList ++ old.address :: addresses right.toList) := by grind
      simpa [toList] using outsideBefore

omit [DecidableEq α] in
/-- The loop with `RB_AUGMENT` goes up to the root. -/
theorem augment_spec (path : Path (Entry α κ V)) {tree : Tree (Entry α κ V)} {address : α}
    (represents : Represents others store (Path.fill path tree))
    (isPointer : tree.pointer = some address) {rounds : Nat}
    (enough : path.length < rounds) :
    augment rounds (some address) store = (.ok ⟨⟩, store) := by
  induction path generalizing tree address rounds with
  | nil =>
      cases rounds with
      | zero => cases enough
      | succ rounds =>
          rcases load_focus [] represents isPointer with ⟨node, loaded, isParent, _⟩
          rw [augment, Fallible.bind_of_ok loaded, isParent]
          rfl
  | cons frame path ih =>
      cases rounds with
      | zero => cases enough
      | succ rounds =>
          rcases load_focus (frame :: path) represents isPointer with
            ⟨node, loaded, isParent, _⟩
          have plugged : (frame.plug tree).pointer = some frame.entry.address :=
            pointer_make ..
          rw [augment, Fallible.bind_of_ok loaded, isParent]
          exact ih represents plugged (Nat.lt_of_succ_lt_succ enough)

omit [DecidableEq α] in
/-- Above a hole there is a node to start that loop from. -/
theorem augment_above {path : Path (Entry α κ V)} {tree : Tree (Entry α κ V)}
    (represents : Represents others store (Path.fill path tree)) (nonempty : path ≠ [])
    {rounds : Nat} (enough : path.length < rounds) :
    ∃ parent, path.above = some parent ∧
      augment rounds (some parent) store = (.ok ⟨⟩, store) := by
  cases path with
  | nil => cases nonempty rfl
  | cons frame path =>
      have plugged : (frame.plug tree).pointer = some frame.entry.address :=
        pointer_make ..
      exact ⟨_, rfl, augment_spec path represents plugged (Nat.lt_of_succ_lt enough)⟩

/-! ## The whole removal -/

/-- What is below a removed node with at most one subtree can make up for its color. -/
theorem lacks_of_leaf {β : Type} {side : Side} {elm : β} {child : Tree β} {blacks : Nat}
    (isTree : Balanced (make side .black .leaf elm child) blacks) :
    blacks = 1 ∧ Lacks child 0 := by
  rcases isTree.blacks_of_make_black with ⟨fewer, rfl⟩
  rcases isTree.of_make_black with ⟨isLeaf, isChild⟩
  cases isLeaf with
  | leaf => exact ⟨rfl, fun _ => isChild, fun isRed => isChild.recolor_of_red isRed⟩

/-- After a node with at most one subtree is taken out, a red-black tree is made again. -/
theorem removeEnd_spec (side : Side) (color : Color)
    (elm : Entry α κ V) (path : Path (Entry α κ V))
    (child : Tree (Entry α κ V)) {blacks : Nat}
    (isTree : Balanced (make side color .leaf elm child) blacks)
    (fits : Path.Fits path color blacks)
    (represents : Represents others store (Path.fill path child))
    (old : Option α) {rounds : Nat} (enough : path.length < rounds) :
    ∃ after tree, removeEnd rounds color path.above child.pointer old store =
      (.ok old, after) ∧
      Represents others after tree ∧ IsRedBlack tree ∧
      tree.toList = (Path.fill path child).toList := by
  cases color with
  | red =>
      rcases isTree.of_make_red with ⟨_, _, isChild, childBlack⟩
      exact ⟨store, _, rfl, represents, fits.to_black.fill isChild childBlack, rfl⟩
  | black =>
      rcases lacks_of_leaf isTree with ⟨rfl, lacks⟩
      rcases removeColor_spec path represents fits lacks enough with
        ⟨after, isAfter, represents⟩
      refine ⟨after, _, ?_, represents, redBlack_refill fits lacks,
        toList_refill path child⟩
      rw [removeEnd, if_pos rfl, Fallible.bind_of_ok isAfter]
      rfl

/-- The removal of a node with at most one subtree. -/
theorem remove_single (side : Side) (color : Color)
    (old : Entry α κ V) (path : Path (Entry α κ V)) (child : Tree (Entry α κ V))
    (represents : Represents others store
      (Path.fill path (make side color .leaf old child)))
    (isTree : IsRedBlack (Path.fill path (make side color .leaf old child)))
    {rounds : Nat} (enough : path.length < rounds) :
    ∃ after tree, remove rounds (some old.address) store =
      (.ok (some old.address), after) ∧
      Represents (Function.update others old.address (store.node old.address))
        after tree ∧
      IsRedBlack tree ∧ tree.toList = (Path.fill path child).toList := by
  rcases Path.Fits.of_redBlack isTree with ⟨blacks, isNode, fits⟩
  rw [color_make] at fits
  rcases load_focus path represents (pointer_make ..) with
    ⟨node, loaded, _, isColor, links⟩
  rw [color_make] at isColor
  rcases unlink_spec side color old path child represents with
    ⟨first, isFirst, _, unlinked⟩
  rcases removeEnd_spec side color old path child isNode fits unlinked
    (some old.address) enough with
    ⟨after, tree, isAfter, result⟩
  refine ⟨after, tree, ?_, result⟩
  have near := links side
  have far := links side.opposite
  rw [child_make] at near
  rw [child_opposite_make] at far
  have onlyOne : (node.left.isSome && node.right.isSome) = false := by
    cases side with
    | left =>
        have isNone : node.left = none := near
        simp [isNone]
    | right =>
        have isNone : node.right = none := near
        simp [isNone]
  have isChild : (if node.left = none then node.right else node.left) =
      child.pointer := by
    cases side with
    | left =>
        have isNone : node.left = none := near
        rw [if_pos isNone]
        exact far
    | right =>
        have isNone : node.right = none := near
        have isLeft : node.left = child.pointer := far
        split
        · rename_i leftNone
          rw [← isLeft, leftNone, isNone]
        · exact isLeft
  rw [remove, Fallible.bind_of_ok loaded, onlyOne]
  simp only [Bool.false_eq_true, if_false]
  rw [isChild, Fallible.bind_of_ok isFirst, isColor]
  exact isAfter

omit [DecidableEq α] in
/-- What is outside of the tree matters only outside of the tree. -/
theorem Represents.congr {tree : Tree (Entry α κ V)}
    (represents : Represents others store tree) {others' : α → Option (Node α κ V)}
    (same : ∀ address ∉ addresses tree.toList, others address = others' address) :
    Represents others' store tree :=
  ⟨represents.root, represents.cells, represents.distinct,
    fun address absent => (represents.outside address absent).trans (same address absent)⟩

/-- Writing to a node outside of the tree. -/
theorem Represents.write_outside {tree : Tree (Entry α κ V)}
    (represents : Represents others store tree) {address : α} {node : Node α κ V}
    (absent : address ∉ addresses tree.toList) (isNode : store.node address = some node)
    (change : Node α κ V → Node α κ V) :
    ∃ after, write (some address) change store = (.ok ⟨⟩, after) ∧
      after.node address = some (change node) ∧
      Represents (Function.update others address (some (change node))) after tree := by
  rcases write_spec isNode change with ⟨after, isAfter, sameRoot, written, elsewhere⟩
  refine ⟨after, isAfter, written, sameRoot.trans represents.root,
    ?_, represents.distinct, ?_⟩
  · apply represents.cells.congr
    intro other member
    rw [cells_addresses] at member
    exact elsewhere other fun same => absent (same ▸ member)
  · intro other outside
    by_cases same : other = address
    · rw [same, Function.update_self, written]
    · rw [Function.update_of_ne same, elsewhere other same]
      exact represents.outside other outside

/-- The parent of the removed node, after that node has taken the place of the old one. -/
theorem parent_renamed (down upper : Path (Entry α κ V)) (frame : Frame (Entry α κ V))
    (elm : Entry α κ V)
    (distinct : (addresses (Path.entries (down ++ frame :: upper))).Nodup) :
    (if Path.above (down ++ frame :: upper) = some frame.entry.address then
        some elm.address
      else
        Path.above (down ++ frame :: upper)) =
      Path.above (down ++ { frame with entry := elm } :: upper) := by
  cases down with
  | nil => exact if_pos rfl
  | cons lowest down =>
      apply if_neg
      intro same
      have isLowest := Option.some.inj same
      have member : frame.entry.address ∈ addresses
          (Path.entries (down ++ frame :: upper)) := by
        clear same isLowest distinct
        induction down with
        | nil => exact List.mem_cons_self ..
        | cons next down ih =>
            simp only [addresses, List.cons_append, Path.entries,
              List.map_cons, List.map_append, List.mem_cons, List.mem_append] at ih ⊢
            exact .inr (.inr ih)
      simp only [addresses, List.cons_append, Path.entries,
        List.map_cons, List.map_append,
        List.nodup_cons, List.mem_append, not_or] at distinct
      apply distinct.1.2
      rw [isLowest]
      exact member

/-- The removal of a node with two subtrees. -/
theorem remove_double (color : Color) (old : Entry α κ V) (path : Path (Entry α κ V))
    (left right : Tree (Entry α κ V)) {smaller greater : α}
    (represents : Represents others store (Path.fill path (.node color left old right)))
    (isTree : IsRedBlack (Path.fill path (.node color left old right)))
    (isLeft : left.pointer = some smaller)
    (isRight : right.pointer = some greater) {rounds : Nat}
    (enough : (Path.fill path (.node color left old right)).height < rounds) :
    ∃ after tree node, remove rounds (some old.address) store =
      (.ok (some old.address), after) ∧
      Represents (Function.update others old.address (some node)) after tree ∧
      IsRedBlack tree ∧ tree.toList =
        path.before ++ (left.toList ++ right.toList) ++ path.after ∧
      node.key = old.key ∧ node.value = old.value := by
  have loaded := load_of_represents ⟨.left, color, old, right⟩ path left represents
  have below : Represents others store
      (Path.fill (⟨.right, color, old, left⟩ :: path) right) := represents
  have high := path.length_add_height_le (.node color left old right)
  simp only [height] at high
  have enoughRight : right.height ≤ rounds := by omega
  rcases leftmost_spec _ below isRight enoughRight with
    ⟨down, elmColor, elm, child, isRightTree, onLeft, found⟩
  have whole : Path.fill path (.node color left old right) =
      Path.fill (down ++ ⟨.right, color, old, left⟩ :: path)
        (make .left elmColor .leaf elm child) := by
    rw [Path.fill_append, isRightTree]
    rfl
  have long := Path.length_add_height_le (down ++ ⟨.right, color, old, left⟩ :: path)
    (make .left elmColor .leaf elm child)
  rw [← whole] at long
  have distinct := represents.distinct
  rw [whole] at represents isTree
  -- The next node is taken out.
  have loadedElm := load_of_represents ⟨.left, elmColor, elm, child⟩ _ .leaf represents
  have isElm := node_of_represents ⟨.left, elmColor, elm, child⟩ _ .leaf represents
  rcases unlink_spec .left elmColor elm _ child represents with
    ⟨first, isFirst, sameElm, represents⟩
  have firstElm := sameElm.trans isElm
  have shorter : Path.fill (down ++ ⟨.right, color, old, left⟩ :: path) child =
      Path.fill path (.node color left old (Path.fill down child)) := by
    rw [Path.fill_append]
    rfl
  rw [shorter] at represents
  -- It gets the fields of the old node.
  have isOld :=
    node_of_represents ⟨.left, color, old, Path.fill down child⟩ path left represents
  have elmAbsent : elm.address ∉
      addresses (Path.fill path (.node color left old (Path.fill down child))).toList := by
    rw [whole] at distinct
    rw [← shorter]
    exact unlinked_absent .left elmColor elm _ child distinct
  rcases represents.write_outside elmAbsent firstElm (fun node => { node with
    left := left.pointer
    right := (Path.fill down child).pointer
    parent := path.above
    color := color }) with ⟨second, isSecond, secondElm, represents⟩
  have secondOld := node_of_represents ⟨.left, color, old, Path.fill down child⟩
      path left represents
  -- It takes the place of the old node.
  rcases takePlace_spec color old elm path left
    (Path.fill down child) represents secondElm
    elmAbsent isLeft with ⟨third, isThird, thirdOld, represents⟩
  have renamed : Path.fill path (.node color left elm (Path.fill down child)) =
      Path.fill (down ++ ⟨.right, color, elm, left⟩ :: path) child := by
    rw [Path.fill_append]
    rfl
  rw [renamed] at represents
  -- The way up to the root, and the recoloring.
  have enoughPath : (down ++ ⟨.right, color, elm, left⟩ :: path).length < rounds := by
    simp only [List.length_append, List.length_cons] at long ⊢
    omega
  rcases augment_above represents (by simp) enoughPath with
    ⟨parent, isParent, isAugment⟩
  rcases Path.Fits.of_redBlack isTree with ⟨blacks, isNode, fits⟩
  rw [color_make] at fits
  rcases removeEnd_spec .left elmColor elm _ child isNode (fits.rename elm) represents
    (some old.address) enoughPath with
      ⟨after, tree, isAfter, represents, redBlack, listed⟩
  refine ⟨after, tree, Frame.node ⟨.left, color, old, Path.fill down child⟩
    left.pointer path.above,
    ?_, represents.congr ?_, redBlack, ?_, rfl, rfl⟩
  · have both : ((Frame.node ⟨.left, color, old, right⟩
        left.pointer path.above).left.isSome &&
        (Frame.node ⟨.left, color, old, right⟩ left.pointer path.above).right.isSome) =
          true := by
      have isBoth : (left.pointer.isSome && right.pointer.isSome) = true := by
        rw [isLeft, isRight]
        rfl
      exact isBoth
    have rightLink : (Frame.node ⟨.left, color, old, right⟩
        left.pointer path.above).right =
      some greater := isRight
    rw [remove, Fallible.bind_of_ok loaded, both]
    simp only [if_true]
    have childLink (hole parent : Option α) :
        (Frame.node ⟨.left, elmColor, elm, child⟩ hole parent).right =
          child.pointer := rfl
    rw [rightLink, Fallible.bind_of_ok found, Fallible.bind_of_ok loadedElm,
      Fallible.bind_of_ok loadedElm, childLink, Frame.node_color,
      Fallible.bind_of_ok isFirst,
      Fallible.bind_of_ok (load_of_node firstElm)]
    have pathDistinct : (addresses
        (Path.entries (down ++ ⟨.right, color, old, left⟩ :: path))).Nodup := by
      rw [whole] at distinct
      exact Path.entries_nodup _ distinct
    have parentNow := parent_renamed down path ⟨.right, color, old, left⟩ elm pathDistinct
    rw [Frame.node_parent]
    dsimp only at parentNow
    rw [parentNow, Fallible.bind_of_ok (load_of_node isOld)]
    refine (Fallible.bind_of_ok isSecond).trans ((Fallible.bind_of_ok isThird).trans ?_)
    rw [isParent] at isAfter ⊢
    exact (Fallible.bind_of_ok isAugment).trans isAfter
  · intro address absent
    by_cases sameOld : address = old.address
    · rw [sameOld, Function.update_self, Function.update_self]
      exact secondOld
    · by_cases sameElm : address = elm.address
      · refine absurd ?_ absent
        rw [sameElm, listed, ← renamed]
        apply List.mem_map_of_mem
        apply Path.mem_toList_fill
        simp [toList]
      · rw [Function.update_of_ne sameOld, Function.update_of_ne sameElm,
          Function.update_of_ne sameElm, Function.update_of_ne sameOld]
  · rw [listed, ← renamed, Path.toList_fill, isRightTree, Path.toList_fill]
    simp [toList, Path.toList_fill, onLeft]

/-- Removing an entry leaves the others in their order. -/
theorem remove_spec [LinearOrder κ] {tree : Tree (Entry α κ V)}
    (isTree : SearchTree others store tree) {old : Entry α κ V}
    (member : old ∈ tree.toList) {rounds : Nat} (enough : tree.height < rounds) :
    ∃ after smallerTree node smaller greater,
      remove rounds (some old.address) store = (.ok (some old.address), after) ∧
      SearchTree (Function.update others old.address (some node)) after smallerTree ∧
      node.key = old.key ∧ node.value = old.value ∧
      tree.toList = smaller ++ old :: greater ∧
        smallerTree.toList = smaller ++ greater := by
  rcases isTree with ⟨represents, redBlack, ordered⟩
  rcases Path.exists_fill member with ⟨path, color, left, right, isFill⟩
  subst isFill
  have listed : (Path.fill path (.node color left old right)).toList =
      (path.before ++ left.toList) ++ old :: (right.toList ++ path.after) := by
    rw [Path.toList_fill]
    simp [toList]
  have ordered (rest : Tree (Entry α κ V))
      (isRest : rest.toList = (path.before ++ left.toList) ++
        (right.toList ++ path.after)) :
      Ordered rest := by
    rw [Ordered, listed] at ordered
    rw [Ordered, isRest]
    exact ordered.sublist ((List.Sublist.refl _).append (List.sublist_cons_self ..))
  have removed : ∃ after rest node,
      remove rounds (some old.address) store = (.ok (some old.address), after) ∧
      Represents (Function.update others old.address (some node)) after rest ∧
        IsRedBlack rest ∧
      rest.toList = path.before ++ (left.toList ++ right.toList) ++ path.after ∧
      node.key = old.key ∧ node.value = old.value := by
    have high := path.length_add_height_le (.node color left old right)
    simp only [height] at high
    have enoughPath : path.length < rounds := by omega
    have isOld := node_of_represents ⟨.left, color, old, right⟩ path left represents
    cases isLeft : left.pointer with
    | none =>
        have isLeaf : left = .leaf := by
          cases left with
          | leaf => rfl
          | node leftColor first second third => cases isLeft
        subst isLeaf
        rcases remove_single .left color old path right
          represents redBlack enoughPath with
          ⟨after, rest, isAfter, representsRest, redBlackRest, listedRest⟩
        rw [isOld] at representsRest
        refine ⟨after, rest, _, isAfter, representsRest, redBlackRest, ?_, rfl, rfl⟩
        rw [listedRest, Path.toList_fill]
        rfl
    | some smaller =>
        cases isRight : right.pointer with
        | none =>
            have isLeaf : right = .leaf := by
              cases right with
              | leaf => rfl
              | node rightColor first second third => cases isRight
            subst isLeaf
            rcases remove_single .right color old path
              left represents redBlack enoughPath with
              ⟨after, rest, isAfter, representsRest, redBlackRest, listedRest⟩
            rw [isOld] at representsRest
            refine ⟨after, rest, _, isAfter, representsRest, redBlackRest, ?_, rfl, rfl⟩
            rw [listedRest, Path.toList_fill]
            simp [toList]
        | some greater =>
            exact remove_double color old path left right
              represents redBlack isLeft isRight enough
  rcases removed with
    ⟨after, rest, node, isAfter, representsRest, redBlackRest, listedRest, isKey,
    isValue⟩
  have isRest : rest.toList =
      (path.before ++ left.toList) ++ (right.toList ++ path.after) := by
    rw [listedRest]
    simp
  exact ⟨after, rest, node, _, _, isAfter,
    ⟨representsRest, redBlackRest, ordered rest isRest⟩, isKey, isValue, listed, isRest⟩

end LuaJack.RedBlack
