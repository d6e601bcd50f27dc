import LuaJack.RedBlack.InsertColor
import LuaJack.RedBlack.Lookup

/-!
# Insertion in memory

`RB_INSERT` puts a node that is not in the tree between the nodes with smaller and those
with greater keys, or finds a node that has its key. -/

namespace LuaJack.RedBlack

variable {α κ V : Type} [DecidableEq α] [LinearOrder κ]
variable {others : α → Option (Node α κ V)} {store : Store α κ V}

open RedBlack.Tree

/-- The place of a new key: a path to no node, with the smaller entries on the left and
the greater ones on the right, and the result of the last comparison. -/
structure Place (tree : Tree (Entry α κ V))
    (key : κ) (hole : Path (Entry α κ V)) (comp : Int) :
    Prop where
  fill : Path.fill hole .leaf = tree
  smaller : ∀ entry ∈ hole.before, entry.key < key
  greater : ∀ entry ∈ hole.after, key < entry.key
  side : ∀ frame ∈ hole.head?, (comp < 0 ↔ frame.side = .left)

omit [DecidableEq α] in
/-- The search of `RB_INSERT` ends at an entry with the key, or at the place of the
key. -/
theorem insertSearch_spec (key : κ) (path : Path (Entry α κ V))
    (tree : Tree (Entry α κ V))
    (represents : Represents others store (Path.fill path tree)) (ordered : Ordered tree)
    (comp : Int) (smaller : ∀ entry ∈ path.before, entry.key < key)
    (greater : ∀ entry ∈ path.after, key < entry.key)
    (side : ∀ frame ∈ path.head?, (comp < 0 ↔ frame.side = .left)) {rounds : Nat}
    (enough : tree.height < rounds) :
    (∃ entry ∈ tree.toList, entry.key = key ∧
      insertSearch key rounds tree.pointer path.above comp store =
        (.ok (.inl entry.address), store)) ∨
    ∃ hole last, Place (Path.fill path tree) key hole last ∧
      insertSearch key rounds tree.pointer path.above comp store =
        (.ok (.inr (hole.above, last)), store) := by
  induction tree generalizing path comp rounds with
  | leaf =>
      cases rounds with
      | zero => cases enough
      | succ rounds => exact .inr ⟨path, comp, ⟨rfl, smaller, greater, side⟩, rfl⟩
  | node color left entry right leftIH rightIH =>
      cases rounds with
      | zero => cases enough
      | succ rounds =>
          simp only [height] at enough
          have enoughLeft : left.height < rounds := by omega
          have enoughRight : right.height < rounds := by omega
          have loaded :=
            load_of_represents ⟨.left, color, entry, right⟩ path left represents
          rcases ordered.of_node with ⟨leftOrdered, rightOrdered, isLess, isGreater⟩
          have step : insertSearch key (rounds + 1)
              (node color left entry right).pointer path.above
              comp store =
              if key < entry.key then
                insertSearch key rounds left.pointer (some entry.address)
                  (cmp key entry.key) store
              else if entry.key < key then
                insertSearch key rounds right.pointer (some entry.address)
                  (cmp key entry.key) store
              else (.ok (.inl entry.address), store) := by
            have isPointer : (node color left entry right).pointer =
                some entry.address := rfl
            rw [isPointer, insertSearch, Fallible.bind_of_ok loaded]
            simp only [Frame.node_key, cmp_lt_zero, cmp_gt_zero, Fallible.ite_apply]
            rfl
          rw [step]
          rcases lt_trichotomy key entry.key with less | rfl | above
          · rw [if_pos less]
            have found :=
              leftIH (⟨.left, color, entry, right⟩ :: path) represents leftOrdered
              (cmp key entry.key) smaller
              (by
                intro other member
                simp only [Path.after, List.cons_append, List.mem_cons,
                  List.mem_append] at member
                rcases member with rfl | inRight | inAfter
                · exact less
                · exact less.trans (isGreater other inRight)
                · exact greater other inAfter)
              (by
                intro frame isFrame
                cases isFrame
                simp [less])
              enoughLeft
            rcases found with ⟨other, member, isKey, found⟩ | placed
            · exact .inl ⟨other, by simp [toList, member], isKey, found⟩
            · exact .inr placed
          · rw [if_neg (lt_irrefl _), if_neg (lt_irrefl _)]
            exact .inl ⟨entry, by simp [toList], rfl, rfl⟩
          · rw [if_neg above.not_gt, if_pos above]
            have found :=
              rightIH (⟨.right, color, entry, left⟩ :: path) represents rightOrdered
              (cmp key entry.key)
              (by
                intro other member
                simp only [Path.before, List.mem_append, List.mem_singleton] at member
                rcases member with inBefore | inLeft | rfl
                · exact smaller other inBefore
                · exact (isLess other inLeft).trans above
                · exact above)
              greater
              (by
                intro frame isFrame
                cases isFrame
                simp [above.not_gt])
              enoughRight
            rcases found with ⟨other, member, isKey, found⟩ | placed
            · exact .inl ⟨other, by simp [toList, member], isKey, found⟩
            · exact .inr placed

/-! ## The new node -/

/-- The entry of a node at some address. -/
def Node.entry (node : Node α κ V) (address : α) :
    Entry α κ V := ⟨address, node.key, node.value⟩

omit [LinearOrder κ] in
/-- A node that is in no tree is put below a path. -/
theorem hang_spec (hole : Path (Entry α κ V)) {elm : α} {node : Node α κ V} {comp : Int}
    (represents : Represents others store (Path.fill hole .leaf))
    (isNode : store.node elm = some node)
    (absent : elm ∉ addresses (Path.fill hole .leaf).toList)
    (side : ∀ frame ∈ hole.head?, (comp < 0 ↔ frame.side = .left)) :
    ∃ after, hang (some elm) hole.above comp store = (.ok ⟨⟩, after) ∧
      Represents others after
        (Path.fill hole (.node .red .leaf (node.entry elm) .leaf)) := by
  rcases (represents_fill _ _).mp represents with
    ⟨root, around, inside, distinct, outside⟩
  have entries := ((Path.entries_perm hole .leaf).map Entry.address)
  have notHole : elm ∉ addresses hole.entries := by
    intro member
    apply absent
    apply entries.mem_iff.mp
    simpa [toList] using member
  rcases write_spec isNode (fun node => { node with
    parent := hole.above, left := none, right := none, color := .red }) with
    ⟨first, isFirst, firstRoot, firstElm, firstElse⟩
  have firstAround : Contains first.node (hole.cells none) := by
    apply around.congr
    intro address member
    rw [Path.cells_addresses] at member
    exact firstElse address fun same => notHole (same ▸ member)
  have holeDistinct : (addresses hole.entries).Nodup := by
    simpa [toList] using distinct
  -- The new node is linked into the path.
  have linked : ∃ after, hang (some elm) hole.above comp store = (.ok ⟨⟩, after) ∧
      after.root = hole.top (some elm) ∧ Contains after.node (hole.cells (some elm)) ∧
      ∀ address ∉ addresses hole.entries, after.node address = first.node address := by
    rw [hang.eq_def, Fallible.bind_of_ok isFirst]
    cases hole with
    | nil => exact ⟨_, rfl, rfl, .nil, fun _ _ => rfl⟩
    | cons frame path =>
        rcases setLink_spec frame path firstAround holeDistinct (some elm) with
          ⟨after, written, sameRoot, rest⟩
        refine ⟨after, ?_, sameRoot.trans (firstRoot.trans root), rest⟩
        have isSide := side frame rfl
        rcases frame with ⟨frameSide, color, entry, sibling⟩
        cases frameSide with
        | left =>
            rw [Path.above]
            dsimp only
            rw [if_pos (isSide.mpr rfl)]
            exact written
        | right =>
            rw [Path.above]
            dsimp only
            rw [if_neg fun less => Side.noConfusion (isSide.mp less)]
            exact written
  rcases linked with ⟨after, isAfter, afterRoot, afterAround, afterElse⟩
  refine ⟨after, isAfter, (represents_fill _ _).mpr ⟨afterRoot, afterAround, ?_, ?_, ?_⟩⟩
  · simp only [cells, Contains.append, Contains.cons, Contains.nil, true_and, and_true]
    exact (afterElse elm notHole).trans firstElm
  · have extended : (addresses hole.entries ++ [elm]).Nodup := by
      apply holeDistinct.append (List.nodup_singleton elm)
      intro address member isElm
      rw [List.mem_singleton.mp isElm] at member
      exact notHole member
    simpa [toList, Node.entry] using extended
  · intro address absent
    simp only [addresses, toList, List.nil_append,
      List.map_append, List.map_cons, List.map_nil,
      List.mem_append, List.mem_singleton, not_or, Node.entry] at absent
    rw [afterElse address absent.1, firstElse address absent.2]
    apply outside
    simpa [toList] using absent.1

/-! ## The whole insertion -/

/-- A node with a new key takes its place between the smaller and the greater entries,
and a node with a known key changes nothing. -/
theorem insert_spec {tree : Tree (Entry α κ V)}
    (isTree : SearchTree others store tree) {elm : α}
    {node : Node α κ V} (isNode : store.node elm = some node)
    (absent : elm ∉ addresses tree.toList) {rounds : Nat}
    (enough : tree.height < rounds) :
    (∃ entry ∈ tree.toList, entry.key = node.key ∧
      insert rounds (some elm) store = (.ok (some entry.address), store)) ∨
    ∃ after larger smaller greater, insert rounds (some elm) store = (.ok none, after) ∧
      SearchTree others after larger ∧ tree.toList = smaller ++ greater ∧
      larger.toList = smaller ++ node.entry elm :: greater ∧
      (∀ entry ∈ smaller, entry.key < node.key) ∧
        ∀ entry ∈ greater, node.key < entry.key := by
  rcases isTree with ⟨represents, redBlack, ordered⟩
  have asked : rbhRoot store = (.ok tree.pointer, store) := by
    rw [← represents.root]
    rfl
  rw [insert, Fallible.bind_of_ok (load_of_node isNode), Fallible.bind_of_ok asked]
  have searched := insertSearch_spec node.key [] tree represents ordered 0
    (fun _ member => by cases member) (fun _ member => by cases member)
    (fun _ isFrame => by cases isFrame) enough
  rcases searched with ⟨entry, member, isKey, found⟩ | ⟨hole, comp, place, found⟩
  · refine .inl ⟨entry, member, isKey, ?_⟩
    rw [Path.above] at found
    rw [Fallible.bind_of_ok found]
    rfl
  · rw [Path.fill_nil] at place
    have isFill := place.fill
    subst isFill
    rw [Path.above] at found
    rw [Fallible.bind_of_ok found]
    rcases hang_spec hole represents isNode absent place.side with
      ⟨first, isFirst, represents⟩
    rcases Path.Fits.of_redBlack redBlack with ⟨blacks, isLeaf, fits⟩
    cases isLeaf with
    | leaf =>
        have high := hole.length_add_height_le (.leaf : Tree (Entry α κ V))
        have enoughPath : hole.length < rounds := by omega
        rcases insertColor_spec hole represents rfl fits enoughPath with
          ⟨after, isAfter, represents⟩
        have colored : insertColor rounds (some elm) first = (.ok ⟨⟩, after) := isAfter
        have listed :
            ((mend hole (.node .red .leaf (node.entry elm) .leaf)).recolor
              .black).toList =
            hole.before ++ node.entry elm :: hole.after := by
          rw [toList_recolor, toList_mend, Path.toList_fill]
          simp [toList]
        refine .inr ⟨after, _, hole.before, hole.after,
          ?_, ⟨represents, ?_, ?_⟩, ?_, listed, place.smaller, place.greater⟩
        · dsimp only
          rw [Fallible.bind_of_ok isFirst, Fallible.bind_of_ok colored]
          rfl
        · exact redBlack_mend fits (.red .leaf rfl .leaf rfl) rfl
        · rw [Ordered, Path.toList_fill] at ordered
          simp only [toList, List.append_nil, List.pairwise_append] at ordered
          rw [Ordered, listed, List.pairwise_append, List.pairwise_cons]
          refine ⟨ordered.1, ⟨place.greater, ordered.2.1⟩, ?_⟩
          intro first inBefore second member
          cases member with
          | head => exact place.smaller first inBefore
          | tail _ inAfter => exact ordered.2.2 first inBefore second inAfter
        · rw [Path.toList_fill]
          simp [toList]

end LuaJack.RedBlack
