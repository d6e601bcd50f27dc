import LuaJack.RedBlack.Layout

/-!
# Single steps on trees in memory

What reading, recoloring and rotating do to the tree that a store represents.
-/

namespace LuaJack.RedBlack

variable {α κ V : Type}

open RedBlack.Tree

section

variable (frame : Frame (Entry α κ V)) (hole parent : Option α)

@[simp] theorem Frame.node_link : (frame.node hole parent).link frame.side = hole := by
  rcases frame with ⟨side, color, entry, sibling⟩
  cases side <;> rfl

@[simp] theorem Frame.node_link_opposite :
    (frame.node hole parent).link frame.side.opposite = frame.sibling.pointer := by
  rcases frame with ⟨side, color, entry, sibling⟩
  cases side <;> rfl

@[simp] theorem Frame.node_parent : (frame.node hole parent).parent = parent := by
  rcases frame with ⟨side, color, entry, sibling⟩
  cases side <;> rfl

@[simp] theorem Frame.node_color : (frame.node hole parent).color = frame.color := by
  rcases frame with ⟨side, color, entry, sibling⟩
  cases side <;> rfl

@[simp] theorem Frame.node_key : (frame.node hole parent).key = frame.entry.key := by
  rcases frame with ⟨side, color, entry, sibling⟩
  cases side <;> rfl

@[simp] theorem Frame.node_value :
    (frame.node hole parent).value = frame.entry.value := by
  rcases frame with ⟨side, color, entry, sibling⟩
  cases side <;> rfl

/-- Another pointer to what is below. -/
theorem Frame.node_setLink (other : Option α) :
    (frame.node hole parent).setLink frame.side other = frame.node other parent := by
  rcases frame with ⟨side, color, entry, sibling⟩
  cases side <;> rfl

end

section

variable {store : Store α κ V} {address : α} {node : Node α κ V} {β : Type}

theorem load_of_node (isNode : store.node address = some node) :
    load (some address) store = (.ok node, store) := by
  simp [load, isNode]

variable [DecidableEq α]

theorem write_of_node (isNode : store.node address = some node)
    (change : Node α κ V → Node α κ V) :
    write (some address) change store =
      (.ok ⟨⟩, { store with
        node := Function.update store.node address (some (change node)) }) := by
  simp [write, isNode]

end

/-! ## Changes of pointers -/

section

variable [DecidableEq α] {store : Store α κ V}

/-- The root of a tree gets another parent. -/
theorem adopt_spec {tree : Tree (Entry α κ V)} {parent : Option α}
    (inside : Contains store.node (tree.cells parent))
    (distinct : (addresses tree.toList).Nodup)
    (other : Option α) : ∃ after, adopt tree.pointer other store = (.ok ⟨⟩, after) ∧
      after.root = store.root ∧ Contains after.node (tree.cells other) ∧
      ∀ address ∉ addresses tree.toList, after.node address = store.node address := by
  cases tree with
  | leaf => exact ⟨store, rfl, rfl, .nil, fun _ _ => rfl⟩
  | node color left entry right =>
      simp only [Tree.cells, Contains.append, Contains.cons] at inside
      rcases inside with ⟨isLeft, isNode, isRight⟩
      simp only [addresses, toList, List.map_append, List.map_cons, List.nodup_append,
        List.nodup_cons] at distinct
      refine ⟨_, write_of_node isNode _, rfl, ?_, ?_⟩
      · simp only [Tree.cells, Contains.append, Contains.cons]
        refine ⟨isLeft.update ?_ _, Function.update_self .., isRight.update ?_ _⟩
        · rw [cells_addresses]
          exact fun member => distinct.2.2 _ member _ (List.mem_cons_self ..) rfl
        · rw [cells_addresses]
          exact distinct.2.1.1
      · intro address absent
        apply Function.update_of_ne
        rintro rfl
        apply absent
        simp [toList]

/-- The lowest node of a path gets another subtree. -/
theorem setLink_spec (frame : Frame (Entry α κ V))
    (path : Path (Entry α κ V)) {old : Option α}
    (around : Contains store.node (Path.cells old (frame :: path)))
    (distinct : (addresses (Path.entries (frame :: path))).Nodup) (new : Option α) :
    ∃ after, write (some frame.entry.address) (Node.setLink frame.side new) store =
        (.ok ⟨⟩, after) ∧ after.root = store.root ∧
      Contains after.node (Path.cells new (frame :: path)) ∧
      ∀ address ∉ addresses (Path.entries (frame :: path)),
        after.node address = store.node address := by
  rw [Path.cells, Contains.cons, Contains.append] at around
  rcases around with ⟨isNode, isSibling, isPath⟩
  simp only [addresses, Path.entries, List.map_cons, List.map_append, List.nodup_cons,
    List.mem_append, not_or] at distinct
  refine ⟨_, write_of_node isNode _, rfl, ?_, ?_⟩
  · rw [Path.cells, Contains.cons, Contains.append]
    refine ⟨?_, isSibling.update ?_ _, isPath.update ?_ _⟩
    · refine (Function.update_self frame.entry.address _ store.node).trans ?_
      rw [Frame.node_setLink]
    · rw [Tree.cells_addresses]
      exact distinct.1.1
    · rw [Path.cells_addresses]
      exact distinct.1.2
  · intro address absent
    apply Function.update_of_ne
    rintro rfl
    exact absent (List.mem_cons_self ..)

/-- Another tree is put below a path. -/
theorem replaceChild_spec {path : Path (Entry α κ V)} {old : α}
    (root : store.root = path.top (some old))
    (around : Contains store.node (path.cells (some old)))
    (distinct : (addresses path.entries).Nodup) (absent : old ∉ addresses path.entries)
    (new : Option α) :
    ∃ after, replaceChild path.above (some old) new store = (.ok ⟨⟩, after) ∧
      after.root = path.top new ∧ Contains after.node (path.cells new) ∧
      ∀ address ∉ addresses path.entries, after.node address = store.node address := by
  cases path with
  | nil => exact ⟨_, rfl, rfl, .nil, fun _ _ => rfl⟩
  | cons frame path =>
      rcases setLink_spec frame path around distinct new with
        ⟨after, written, sameRoot, rest⟩
      rw [Path.cells, Contains.cons] at around
      refine ⟨after, ?_, sameRoot.trans root, rest⟩
      rw [← written, Path.above, replaceChild,
        Fallible.bind_of_ok (load_of_node around.1)]
      rcases frame with ⟨side, color, entry, sibling⟩
      cases side with
      | left =>
          simp [Frame.node, Entry.node]
          rfl
      | right =>
          have different : sibling.pointer ≠ some old := by
            intro same
            rcases Option.map_eq_some_iff.mp same with ⟨other, isRoot, rfl⟩
            apply absent
            apply List.mem_map_of_mem
            simp [Path.entries, mem_toList_of_root isRoot]
          simp [Frame.node, Entry.node, different]
          rfl

end

/-! ## Reading and recoloring -/

section

variable {others : α → Option (Node α κ V)} {store : Store α κ V}

/-- The node at the root of a subtree. -/
theorem node_of_represents (frame : Frame (Entry α κ V)) (path : Path (Entry α κ V))
    (tree : Tree (Entry α κ V))
    (represents : Represents others store (Path.fill (frame :: path) tree)) :
    store.node frame.entry.address = some (frame.node tree.pointer path.above) := by
  have around := ((represents_fill _ _).mp represents).around
  rw [Path.cells, Contains.cons] at around
  exact around.1

theorem load_of_represents (frame : Frame (Entry α κ V)) (path : Path (Entry α κ V))
    (tree : Tree (Entry α κ V))
    (represents : Represents others store (Path.fill (frame :: path) tree)) :
    load (some frame.entry.address) store =
      (.ok (frame.node tree.pointer path.above), store) :=
  load_of_node (node_of_represents frame path tree represents)

variable [DecidableEq α]

/-- Some members of a node are changed, but neither its address nor its links. -/
theorem change_spec (frame frame' : Frame (Entry α κ V)) (path : Path (Entry α κ V))
    (tree : Tree (Entry α κ V))
    (represents : Represents others store (Path.fill (frame :: path) tree))
    {change : Node α κ V → Node α κ V}
    (sameAddress : frame'.entry.address = frame.entry.address)
    (sameSibling : frame'.sibling = frame.sibling)
    (changes : ∀ hole parent, change (frame.node hole parent) = frame'.node hole parent) :
    ∃ after, write (some frame.entry.address) change store = (.ok ⟨⟩, after) ∧
      Represents others after (Path.fill (frame' :: path) tree) := by
  have isNode := node_of_represents frame path tree represents
  rcases (represents_fill _ _).mp represents with
    ⟨root, around, inside, distinct, outside⟩
  rw [Path.cells, Contains.cons, Contains.append] at around
  have sameAddresses : addresses (Path.entries (frame' :: path) ++ tree.toList) =
      addresses (Path.entries (frame :: path) ++ tree.toList) := by
    simp [Path.entries, sameAddress, sameSibling]
  have alone := distinct
  simp only [addresses, Path.entries, List.cons_append, List.append_assoc, List.map_cons,
    List.map_append, List.nodup_cons, List.mem_append, not_or] at alone
  refine ⟨_, write_of_node isNode _, (represents_fill _ _).mpr ⟨?_, ?_, ?_, ?_, ?_⟩⟩
  · rw [Path.top, sameAddress]
    exact root
  · rw [Path.cells, Contains.cons, Contains.append, sameAddress, sameSibling]
    refine ⟨?_, around.2.1.update ?_ _, around.2.2.update ?_ _⟩
    · refine (Function.update_self frame.entry.address _ store.node).trans ?_
      rw [changes]
    · rw [Tree.cells_addresses]
      exact alone.1.1
    · rw [Path.cells_addresses]
      exact alone.1.2.1
  · rw [Path.above, sameAddress]
    apply inside.update
    rw [Tree.cells_addresses]
    exact alone.1.2.2
  · rw [sameAddresses]
    exact distinct
  · intro address absent
    rw [sameAddresses] at absent
    refine (Function.update_of_ne ?_ _ store.node).trans (outside address absent)
    rintro rfl
    exact absent (List.mem_cons_self ..)

/-- A node gets another color. -/
theorem setColor_spec (frame : Frame (Entry α κ V)) (path : Path (Entry α κ V))
    (tree : Tree (Entry α κ V))
    (represents : Represents others store (Path.fill (frame :: path) tree))
    (color : Color) :
    ∃ after, setColor (some frame.entry.address) color store = (.ok ⟨⟩, after) ∧
      Represents others after (Path.fill ({ frame with color } :: path) tree) := by
  apply change_spec frame { frame with color } path tree represents rfl rfl
  intro hole parent
  rcases frame with ⟨side, shade, entry, sibling⟩
  cases side <;> rfl

/-- A node gets other members. -/
theorem setValue_spec (frame : Frame (Entry α κ V)) (path : Path (Entry α κ V))
    (tree : Tree (Entry α κ V))
    (represents : Represents others store (Path.fill (frame :: path) tree))
    (change : V → V) : ∃ after, write (some frame.entry.address)
        (fun node => { node with value := change node.value }) store = (.ok ⟨⟩, after) ∧
      Represents others after (Path.fill
        ({ frame with entry.value := change frame.entry.value } :: path) tree) := by
  apply change_spec frame { frame with entry.value := change frame.entry.value } path tree
    represents rfl rfl
  intro hole parent
  rcases frame with ⟨side, shade, entry, sibling⟩
  cases side <;> rfl

/-- Of two nodes on a path, the lower one becomes black and the upper one red. -/
theorem setBlackRed_spec (lower upper : Frame (Entry α κ V)) (path : Path (Entry α κ V))
    (tree : Tree (Entry α κ V))
    (represents : Represents others store (Path.fill (lower :: upper :: path) tree)) :
    ∃ after, setBlackRed (some lower.entry.address) (some upper.entry.address) store =
        (.ok ⟨⟩, after) ∧
      Represents others after (Path.fill
        ({ lower with color := .black } :: { upper with color := .red } :: path)
          tree) := by
  rcases setColor_spec lower (upper :: path) tree represents .black with
    ⟨first, isFirst, represents⟩
  rcases setColor_spec upper path
    (Frame.plug { lower with color := .black } tree) represents
    .red with ⟨second, isSecond, represents⟩
  refine ⟨second, ?_, represents⟩
  rw [setBlackRed, Fallible.bind_of_ok isFirst, isSecond]

/-! ## Rotations -/

omit [DecidableEq α] in
theorem Frame.node_parent_eq (frame : Frame (Entry α κ V))
    (hole parent other : Option α) :
    { frame.node hole parent with parent := other } = frame.node hole other := by
  rcases frame with ⟨side, color, entry, sibling⟩
  cases side <;> rfl

/-- Writing to a node leaves the others as they are. -/
theorem write_spec {address : α} {node : Node α κ V}
    (isNode : store.node address = some node) (change : Node α κ V → Node α κ V) :
    ∃ after, write (some address) change store = (.ok ⟨⟩, after) ∧
      after.root = store.root ∧
      after.node address = some (change node) ∧
      ∀ other, other ≠ address → after.node other = store.node other :=
  ⟨_, write_of_node isNode change, rfl, Function.update_self address _ store.node,
    fun _ different => Function.update_of_ne different _ store.node⟩

/-- A rotation to the side of the lower frame exchanges two frames of a path. -/
theorem rotate_spec (lower upper : Frame (Entry α κ V)) (path : Path (Entry α κ V))
    (tree : Tree (Entry α κ V)) (opposite : upper.side = lower.side.opposite)
    (represents : Represents others store (Path.fill (lower :: upper :: path) tree)) :
    ∃ after, rotate lower.side (some upper.entry.address) store = (.ok ⟨⟩, after) ∧
      Represents others after (Path.fill (upper :: lower :: path) tree) := by
  rcases (represents_fill _ _).mp represents with
    ⟨root, around, inside, distinct, outside⟩
  simp only [Path.cells, Contains.cons, Contains.append] at around
  rcases around with ⟨isLower, lowerSibling, isUpper, upperSibling, isPath⟩
  simp only [Path.top, Path.above] at root inside isLower
  generalize isX : upper.entry.address = x at *
  generalize isY : lower.entry.address = y at *
  have alone : (y :: (addresses lower.sibling.toList ++
      x :: (addresses upper.sibling.toList ++ addresses path.entries)) ++
      addresses tree.toList).Nodup := by
    simpa [Path.entries, isX, isY] using distinct
  have different : x ≠ y := by grind
  have treeDistinct : (addresses tree.toList).Nodup := by grind
  have pathDistinct : (addresses path.entries).Nodup := by grind
  have xPath : x ∉ addresses path.entries := by grind
  have xTree : x ∉ addresses tree.toList := by grind
  have yPath : y ∉ addresses path.entries := by grind
  have yTree : y ∉ addresses tree.toList := by grind
  have apart : ∀ address ∈ addresses path.entries,
      address ∉ addresses tree.toList := by grind
  -- RB_RIGHT(elm) = RB_LEFT(tmp), and its parent
  rcases write_spec isUpper (Node.setLink lower.side.opposite tree.pointer) with
    ⟨first, isFirst, firstRoot, firstX, firstElse⟩
  rw [← opposite, Frame.node_setLink] at firstX
  have firstTree : Contains first.node (tree.cells (some y)) := by
    apply inside.congr
    intro address member
    rw [cells_addresses] at member
    exact firstElse address (fun same => xTree (same ▸ member))
  rcases adopt_spec firstTree treeDistinct (some x) with
    ⟨second, isSecond, secondRoot, secondTree, secondElse⟩
  -- RB_PARENT(tmp) = RB_PARENT(elm)
  have secondX := (secondElse x xTree).trans firstX
  have secondY := (secondElse y yTree).trans ((firstElse y different.symm).trans isLower)
  rcases write_spec secondY (fun node => { node with parent := path.above }) with
    ⟨third, isThird, thirdRoot, thirdY, thirdElse⟩
  rw [Frame.node_parent_eq] at thirdY
  have thirdPath : Contains third.node (path.cells (some x)) := by
    apply isPath.congr
    intro address member
    rw [Path.cells_addresses] at member
    rw [thirdElse address (fun same => yPath (same ▸ member)),
      secondElse address (apart _ member),
      firstElse address (fun same => xPath (same ▸ member))]
  have thirdTop : third.root = path.top (some x) := by
    rw [thirdRoot, secondRoot, firstRoot, root]
  rcases replaceChild_spec thirdTop thirdPath pathDistinct xPath (some y) with
    ⟨fourth, isFourth, fourthRoot, fourthPath, fourthElse⟩
  -- RB_LEFT(tmp) = elm, and RB_PARENT(elm) = tmp
  have fourthY := (fourthElse y yPath).trans thirdY
  rcases write_spec fourthY (Node.setLink lower.side (some x)) with
    ⟨fifth, isFifth, fifthRoot, fifthY, fifthElse⟩
  rw [Frame.node_setLink] at fifthY
  have fifthX : fifth.node x = some (upper.node tree.pointer path.above) := by
    rw [fifthElse x different, fourthElse x xPath, thirdElse x different, secondX]
  rcases write_spec fifthX (fun node => { node with parent := some y }) with
    ⟨sixth, isSixth, sixthRoot, sixthX, sixthElse⟩
  rw [Frame.node_parent_eq] at sixthX
  have still : ∀ address, address ≠ x → address ≠ y → address ∉ addresses path.entries →
      sixth.node address = second.node address := by
    intro address notX notY notPath
    rw [sixthElse address notX, fifthElse address notY, fourthElse address notPath,
      thirdElse address notY]
  have unchanged : ∀ address, address ≠ x → address ≠ y →
      address ∉ addresses path.entries →
      address ∉ addresses tree.toList → sixth.node address = store.node address := by
    intro address notX notY notPath notTree
    rw [still address notX notY notPath, secondElse address notTree,
      firstElse address notX]
  have exchanged : (addresses (Path.entries (lower :: upper :: path) ++ tree.toList)).Perm
      (addresses (Path.entries (upper :: lower :: path) ++ tree.toList)) := by
    apply List.Perm.map
    classical
    rw [List.perm_iff_count]
    intro other
    simp only [Path.entries, List.count_append, List.count_cons]
    omega
  refine ⟨sixth, ?_, (represents_fill _ _).mpr ⟨?_, ?_, ?_, ?_, ?_⟩⟩
  · have upperLink : (upper.node (some y) path.above).link lower.side.opposite =
        some y := by
      rw [← opposite, Frame.node_link]
    have innerLink : (lower.node tree.pointer (some x)).link lower.side = tree.pointer :=
      Frame.node_link ..
    rw [rotate, Fallible.bind_of_ok (load_of_node isUpper), upperLink,
      Fallible.bind_of_ok (load_of_node isLower), innerLink, Fallible.bind_of_ok isFirst,
      Fallible.bind_of_ok isSecond, Fallible.bind_of_ok (load_of_node secondX),
      Frame.node_parent,
      Fallible.bind_of_ok isThird, Fallible.bind_of_ok isFourth,
      Fallible.bind_of_ok isFifth]
    exact isSixth
  · rw [sixthRoot, fifthRoot, fourthRoot, Path.top, Path.top, isY]
  · simp only [Path.cells, Contains.cons, Contains.append, Path.above, isX, isY]
    have lowerCells : Contains sixth.node (lower.sibling.cells (some y)) := by
      apply lowerSibling.congr
      rw [cells_addresses]
      grind
    have upperCells : Contains sixth.node (upper.sibling.cells (some x)) := by
      apply upperSibling.congr
      rw [cells_addresses]
      grind
    have pathCells : Contains sixth.node (path.cells (some y)) := by
      apply fourthPath.congr
      rw [Path.cells_addresses]
      grind
    exact ⟨sixthX, upperCells, (sixthElse y different.symm).trans fifthY,
      lowerCells, pathCells⟩
  · rw [Path.above, isX]
    apply secondTree.congr
    rw [cells_addresses]
    grind
  · exact exchanged.nodup_iff.mp distinct
  · intro address absent
    have absent : address ∉ addresses
        (Path.entries (lower :: upper :: path) ++ tree.toList) :=
      fun member => absent (exchanged.mem_iff.mp member)
    rw [← outside address absent]
    apply unchanged
    · rintro rfl
      exact absent (by simp [Path.entries, isX])
    · rintro rfl
      exact absent (by simp [Path.entries, isY])
    · intro member
      apply absent
      simp only [addresses, Path.entries, List.map_append, List.map_cons, List.mem_append,
        List.mem_cons]
      exact .inl (.inr (.inr (.inr (.inr member))))
    · intro member
      apply absent
      rw [addresses, List.map_append]
      exact List.mem_append_right _ member

/-! ## The node in the focus -/

omit [DecidableEq α] in
/-- The subtree on the other side comes into the focus. -/
theorem fill_opposite (side : Side) (color : Color) (entry : Entry α κ V)
    (sibling tree : Tree (Entry α κ V)) (path : Path (Entry α κ V)) :
    Path.fill (⟨side, color, entry, sibling⟩ :: path) tree =
      Path.fill (⟨side.opposite, color, entry, tree⟩ :: path) sibling := by
  simp only [Path.fill_cons, Frame.plug, make_opposite]

omit [DecidableEq α] in
/-- The node in the focus points to the node above, and has its color. -/
theorem load_focus (path : Path (Entry α κ V)) {tree : Tree (Entry α κ V)} {address : α}
    (represents : Represents others store (Path.fill path tree))
    (isPointer : tree.pointer = some address) :
    ∃ node, load (some address) store = (.ok node, store) ∧ node.parent = path.above ∧
      node.color = tree.color ∧
      ∀ side, node.link side = (tree.child side).pointer := by
  cases tree with
  | leaf => cases isPointer
  | node color left entry right =>
      cases isPointer
      refine ⟨_, load_of_represents ⟨.left, color, entry, right⟩
        path left represents, rfl, rfl, ?_⟩
      intro side
      cases side <;> rfl

omit [DecidableEq α] in
theorem isRed_spec (path : Path (Entry α κ V)) (tree : Tree (Entry α κ V))
    (represents : Represents others store (Path.fill path tree)) :
    isRed tree.pointer store = (.ok (decide (tree.color = .red)), store) := by
  cases isPointer : tree.pointer with
  | none =>
      cases tree with
      | leaf => rfl
      | node color left entry right => cases isPointer
  | some address =>
      rcases load_focus path represents isPointer with ⟨node, loaded, _, isColor, _⟩
      rw [isRed, Fallible.bind_of_ok loaded, isColor]
      rfl

omit [DecidableEq α] in
theorem isBlack_spec (path : Path (Entry α κ V)) (tree : Tree (Entry α κ V))
    (represents : Represents others store (Path.fill path tree)) :
    isBlack tree.pointer store = (.ok (decide (tree.color = .black)), store) := by
  cases isPointer : tree.pointer with
  | none =>
      cases tree with
      | leaf => rfl
      | node color left entry right => cases isPointer
  | some address =>
      rcases load_focus path represents isPointer with ⟨node, loaded, _, isColor, _⟩
      rw [isBlack, Fallible.bind_of_ok loaded, isColor]
      rfl

/-- The root of a subtree gets another color. -/
theorem recolor_spec (path : Path (Entry α κ V)) {tree : Tree (Entry α κ V)} {address : α}
    (represents : Represents others store (Path.fill path tree))
    (isPointer : tree.pointer = some address) (color : Color) :
    ∃ after, setColor (some address) color store = (.ok ⟨⟩, after) ∧
      Represents others after (Path.fill path (tree.recolor color)) := by
  cases tree with
  | leaf => cases isPointer
  | node shade left entry right =>
      cases isPointer
      exact setColor_spec ⟨.left, shade, entry, right⟩ path left represents color

/-- The root of a subtree becomes black, if it has one. -/
theorem blacken_spec (path : Path (Entry α κ V)) (tree : Tree (Entry α κ V))
    (represents : Represents others store (Path.fill path tree)) :
    ∃ after, blacken tree.pointer store = (.ok ⟨⟩, after) ∧
      Represents others after (Path.fill path (tree.recolor .black)) := by
  cases isPointer : tree.pointer with
  | none =>
      cases tree with
      | leaf => exact ⟨store, rfl, represents⟩
      | node color left entry right => cases isPointer
  | some address => exact recolor_spec path represents isPointer .black

omit [DecidableEq α] in
/-- The two subtrees of a node have different roots. -/
theorem sibling_ne (frame : Frame (Entry α κ V)) (path : Path (Entry α κ V))
    {tree : Tree (Entry α κ V)} {address : α}
    (represents : Represents others store (Path.fill (frame :: path) tree))
    (isPointer : tree.pointer = some address) : frame.sibling.pointer ≠ some address := by
  intro same
  rcases Option.map_eq_some_iff.mp same with ⟨other, isOther, rfl⟩
  rcases Option.map_eq_some_iff.mp isPointer with ⟨entry, isEntry, sameAddress⟩
  have distinct := ((represents_fill _ _).mp represents).distinct
  simp only [addresses, Path.entries, List.cons_append, List.append_assoc, List.map_cons,
    List.map_append, List.nodup_cons, List.nodup_append, List.mem_append] at distinct
  exact distinct.2.2.2 _ (List.mem_map_of_mem (mem_toList_of_root isOther)) _
    (.inr (List.mem_map_of_mem (mem_toList_of_root isEntry))) sameAddress.symm

omit [DecidableEq α] in
/-- A node points to the subtree in the focus on no other side than its own. -/
theorem link_eq_iff (frame : Frame (Entry α κ V)) (path : Path (Entry α κ V))
    {tree : Tree (Entry α κ V)} {address : α}
    (represents : Represents others store (Path.fill (frame :: path) tree))
    (isPointer : tree.pointer = some address) (side : Side) (parent : Option α) :
    (frame.node (some address) parent).link side = some address ↔ frame.side = side := by
  have different := sibling_ne frame path represents isPointer
  constructor
  · intro same
    by_contra other
    rw [Side.eq_opposite_of_ne (Ne.symm other), Frame.node_link_opposite] at same
    exact different same
  · rintro rfl
    exact Frame.node_link ..

end

end LuaJack.RedBlack
