import LuaJack.RedBlack.Steps
import Mathlib.Order.Basic

/-!
# Searching in memory

`RB_FIND`, `RB_NFIND` and `RB_NEXT` find what a search in the list of the entries finds,
in no more rounds than the tree is high. -/

namespace LuaJack.RedBlack

variable {α κ V : Type} {others : α → Option (Node α κ V)} {store : Store α κ V}

open RedBlack.Tree

/-! ## Neighbours -/

/-- The way down on the left ends at the first entry. -/
theorem leftmost_spec (path : Path (Entry α κ V))
    {tree : Tree (Entry α κ V)} {address : α}
    (represents : Represents others store (Path.fill path tree))
    (isPointer : tree.pointer = some address) {rounds : Nat}
    (enough : tree.height ≤ rounds) :
    ∃ (down : Path (Entry α κ V)) (color : Color) (first : Entry α κ V)
        (right : Tree (Entry α κ V)),
      tree = Path.fill down (.node color .leaf first right) ∧ down.before = [] ∧
      leftmost rounds (some address) store = (.ok (some first.address), store) := by
  induction tree generalizing path address rounds with
  | leaf => cases isPointer
  | node color left entry right leftIH rightIH =>
      cases isPointer
      cases rounds with
      | zero => simp [height] at enough
      | succ rounds =>
          have loaded :=
            load_of_represents ⟨.left, color, entry, right⟩ path left represents
          have isLeft : (Frame.node ⟨.left, color, entry, right⟩
              left.pointer path.above).left =
            left.pointer := rfl
          cases leftPointer : left.pointer with
          | none =>
              refine ⟨[], color, entry, right, ?_, rfl, ?_⟩
              · cases left with
                | leaf => rfl
                | node leftColor first second third => cases leftPointer
              · rw [leftmost, Fallible.bind_of_ok loaded, isLeft, leftPointer]
                rfl
          | some next =>
              have lower : left.height ≤ rounds := by
                simp only [height] at enough
                omega
              rcases leftIH (⟨.left, color, entry, right⟩ :: path)
                represents leftPointer lower with
                ⟨down, firstColor, first, rest, isLeftTree, onLeft, found⟩
              refine ⟨down ++ [⟨.left, color, entry, right⟩],
                firstColor, first, rest, ?_, ?_, ?_⟩
              · rw [Path.fill_append, ← isLeftTree]
                rfl
              · rw [Path.before_append, onLeft]
                rfl
              · rw [leftmost, Fallible.bind_of_ok loaded, isLeft, leftPointer]
                exact found

variable [DecidableEq α]

/-- The way up that comes from the right ends at the first entry on the right of the
path. -/
theorem nextUp_spec (path : Path (Entry α κ V)) {tree : Tree (Entry α κ V)} {address : α}
    (represents : Represents others store (Path.fill path tree))
    (isPointer : tree.pointer = some address) {rounds : Nat}
    (enough : path.length < rounds) :
    nextUp rounds (some address) store =
      (.ok (path.after.head?.map Entry.address), store) := by
  induction path generalizing tree address rounds with
  | nil =>
      cases rounds with
      | zero => cases enough
      | succ rounds =>
          rcases load_focus [] represents isPointer with ⟨node, loaded, isParent, _⟩
          rw [nextUp, Fallible.bind_of_ok loaded, isParent]
          rfl
  | cons frame path ih =>
      cases rounds with
      | zero => cases enough
      | succ rounds =>
          rcases load_focus (frame :: path) represents isPointer with
            ⟨node, loaded, isParent, _⟩
          have loadedParent := load_of_represents frame path tree represents
          have isRight :=
            link_eq_iff frame path represents isPointer .right (Path.above path)
          rw [isPointer] at loadedParent
          rw [nextUp, Fallible.bind_of_ok loaded, isParent, Path.above]
          dsimp only
          rw [Fallible.bind_of_ok loadedParent]
          have plugged : (frame.plug tree).pointer = some frame.entry.address :=
            pointer_make ..
          have further := ih represents plugged (Nat.lt_of_succ_lt_succ enough)
          rcases frame with ⟨side, color, entry, sibling⟩
          cases side with
          | left =>
              rw [if_neg]
              · rfl
              · intro same
                cases isRight.mp same.symm
          | right =>
              rw [if_pos]
              · exact further
              · exact (isRight.mpr rfl).symm

/-- `RB_NEXT` returns the next entry from left to right. -/
theorem next_spec (path : Path (Entry α κ V))
    (color : Color) (left right : Tree (Entry α κ V)) (entry : Entry α κ V)
    (represents : Represents others store (Path.fill path (.node color left entry right)))
    {rounds : Nat}
    (enough : (Path.fill path (.node color left entry right)).height < rounds) :
    next rounds (some entry.address) store =
      (.ok ((right.toList ++ path.after).head?.map Entry.address), store) := by
  have high := path.length_add_height_le (.node color left entry right)
  simp only [height] at high
  have loaded := load_of_represents ⟨.left, color, entry, right⟩ path left represents
  rw [next, Fallible.bind_of_ok loaded]
  have isRight : (Frame.node ⟨.left, color, entry, right⟩ left.pointer path.above).right =
    right.pointer := rfl
  rw [isRight]
  cases rightPointer : right.pointer with
  | some address =>
      have below : Represents others store
          (Path.fill (⟨.right, color, entry, left⟩ :: path) right) := represents
      have enoughBelow : right.height ≤ rounds := by omega
      rcases leftmost_spec _ below rightPointer enoughBelow with
        ⟨down, firstColor, first, rest, isRightTree, onLeft, found⟩
      have isFirst : right.toList = first :: (rest.toList ++ down.after) := by
        rw [isRightTree, Path.toList_fill, onLeft]
        simp [toList]
      rw [isFirst]
      exact found
  | none =>
      have isLeaf : right = .leaf := by
        cases right with
        | leaf => rfl
        | node rightColor first second third => cases rightPointer
      subst isLeaf
      rw [Frame.node_parent]
      cases path with
      | nil => rfl
      | cons frame path =>
          have loadedParent := load_of_represents frame path _ represents
          have isPointer : (node color left entry .leaf).pointer =
              some entry.address := rfl
          have isLeft := link_eq_iff frame path represents isPointer .left
            (Path.above path)
          rw [Path.above]
          dsimp only
          rw [Fallible.bind_of_ok loadedParent]
          have enoughAbove : (frame :: path).length < rounds := by omega
          have further := nextUp_spec (frame :: path) represents isPointer enoughAbove
          rcases frame with ⟨side, parentColor, parent, sibling⟩
          cases side with
          | left =>
              rw [if_pos]
              · rfl
              · exact (isLeft.mpr rfl).symm
          | right =>
              rw [if_neg]
              · exact further
              · intro same
                cases isLeft.mp same.symm

/-! ## Keys -/

omit [DecidableEq α]

/-- A search that compares keys goes on in the left subtree. -/
theorem find_of_less {left right : List (Entry α κ V)} {entry : Entry α κ V}
    {test : Entry α κ V → Bool} (notEntry : test entry = false)
    (notRight : ∀ other ∈ right, test other = false) :
    (left ++ entry :: right).find? test = left.find? test := by
  have none : (entry :: right).find? test = none := by
    rw [List.find?_eq_none]
    intro other member
    cases member with
    | head => simp [notEntry]
    | tail _ member => simp [notRight other member]
  rw [List.find?_append, none, Option.or_none]

/-- A search that compares keys goes on in the right subtree. -/
theorem find_of_greater {left right : List (Entry α κ V)} {entry : Entry α κ V}
    {test : Entry α κ V → Bool} (notEntry : test entry = false)
    (notLeft : ∀ other ∈ left, test other = false) :
    (left ++ entry :: right).find? test = right.find? test := by
  have none : left.find? test = none := by
    rw [List.find?_eq_none]
    intro other member
    simp [notLeft other member]
  rw [List.find?_append, none, Option.none_or, List.find?_cons, notEntry]

/-- A search that compares keys ends at the root. -/
theorem find_of_equal {left right : List (Entry α κ V)} {entry : Entry α κ V}
    {test : Entry α κ V → Bool} (isEntry : test entry = true)
    (notLeft : ∀ other ∈ left, test other = false) :
    (left ++ entry :: right).find? test = some entry := by
  have none : left.find? test = none := by
    rw [List.find?_eq_none]
    intro other member
    simp [notLeft other member]
  rw [List.find?_append, none, Option.none_or, List.find?_cons, isEntry]

variable [LinearOrder κ]

/-- The keys ascend from left to right. -/
def Ordered (tree : Tree (Entry α κ V)) : Prop :=
  tree.toList.Pairwise fun first second => first.key < second.key

/-- The store represents a red-black tree with ascending keys. -/
structure SearchTree (others : α → Option (Node α κ V)) (store : Store α κ V)
    (tree : Tree (Entry α κ V)) : Prop where
  represents : Represents others store tree
  redBlack : IsRedBlack tree
  ordered : Ordered tree

theorem Ordered.of_node {color : Color} {left right : Tree (Entry α κ V)}
    {entry : Entry α κ V} (ordered : Ordered (.node color left entry right)) :
    Ordered left ∧ Ordered right ∧ (∀ other ∈ left.toList, other.key < entry.key) ∧
      ∀ other ∈ right.toList, entry.key < other.key := by
  simp only [Ordered, toList, List.pairwise_append,
    List.pairwise_cons, List.mem_cons] at ordered
  exact ⟨ordered.1, ordered.2.1.2, fun other member =>
    ordered.2.2 other member entry (.inl rfl),
    ordered.2.1.1⟩

@[simp] theorem cmp_lt_zero (key other : κ) : cmp key other < 0 ↔ key < other := by
  rw [cmp]
  by_cases less : key < other
  · simp [less]
  · by_cases greater : other < key
    · simp [less, greater]
    · simp [less, greater]

@[simp] theorem cmp_gt_zero (key other : κ) : cmp key other > 0 ↔ other < key := by
  rw [cmp]
  by_cases less : key < other
  · simp [less, less.le]
  · by_cases greater : other < key
    · simp [less, greater]
    · simp [less, greater]

/-- The loop of `RB_FIND` finds the entry with the key. -/
theorem findFrom_spec (key : κ) (path : Path (Entry α κ V)) {tree : Tree (Entry α κ V)}
    (represents : Represents others store (Path.fill path tree)) (ordered : Ordered tree)
    {rounds : Nat} (enough : tree.height < rounds) :
    findFrom key rounds tree.pointer store =
      (.ok ((tree.toList.find? fun entry => entry.key = key).map Entry.address),
        store) := by
  induction tree generalizing path rounds with
  | leaf =>
      cases rounds with
      | zero => cases enough
      | succ rounds => rfl
  | node color left entry right leftIH rightIH =>
      cases rounds with
      | zero => cases enough
      | succ rounds =>
          simp only [height] at enough
          have loaded :=
            load_of_represents ⟨.left, color, entry, right⟩ path left represents
          rcases ordered.of_node with ⟨leftOrdered, rightOrdered, isLess, isGreater⟩
          have step : findFrom key (rounds + 1)
              (node color left entry right).pointer store =
              if key < entry.key then findFrom key rounds left.pointer store
              else if entry.key < key then findFrom key rounds right.pointer store
              else (.ok (some entry.address), store) := by
            have isPointer : (node color left entry right).pointer =
                some entry.address := rfl
            rw [isPointer, findFrom, Fallible.bind_of_ok loaded]
            simp only [Frame.node_key, cmp_lt_zero, cmp_gt_zero, Fallible.ite_apply]
            rfl
          have enoughLeft : left.height < rounds := by omega
          have enoughRight : right.height < rounds := by omega
          rw [step, toList]
          rcases lt_trichotomy key entry.key with less | rfl | greater
          · have found :=
              leftIH (⟨.left, color, entry, right⟩ :: path) represents leftOrdered
              enoughLeft
            rw [if_pos less, found, find_of_less]
            · simpa using less.ne'
            · intro other member
              simpa using (less.trans (isGreater other member)).ne'
          · rw [if_neg (lt_irrefl _), if_neg (lt_irrefl _), find_of_equal]
            · rfl
            · simp
            · intro other member
              simpa using (isLess other member).ne
          · have found :=
              rightIH (⟨.right, color, entry, left⟩ :: path) represents rightOrdered
              enoughRight
            rw [if_neg greater.not_gt, if_pos greater, found, find_of_greater]
            · simpa using greater.ne
            · intro other member
              simpa using ((isLess other member).trans greater).ne

/-- The loop of `RB_NFIND` finds the first entry that is not less than the key. -/
theorem nfindFrom_spec (key : κ) (path : Path (Entry α κ V)) {tree : Tree (Entry α κ V)}
    (represents : Represents others store (Path.fill path tree)) (ordered : Ordered tree)
    (res : Option α) {rounds : Nat} (enough : tree.height < rounds) :
    nfindFrom key rounds tree.pointer res store =
      (.ok (((tree.toList.find? fun entry => key ≤ entry.key).map Entry.address).or res),
        store) := by
  induction tree generalizing path rounds res with
  | leaf =>
      cases rounds with
      | zero => cases enough
      | succ rounds => rfl
  | node color left entry right leftIH rightIH =>
      cases rounds with
      | zero => cases enough
      | succ rounds =>
          simp only [height] at enough
          have loaded :=
            load_of_represents ⟨.left, color, entry, right⟩ path left represents
          rcases ordered.of_node with ⟨leftOrdered, rightOrdered, isLess, isGreater⟩
          have step : nfindFrom key (rounds + 1)
              (node color left entry right).pointer res store =
              if key < entry.key then
                nfindFrom key rounds left.pointer (some entry.address) store
              else if entry.key < key then nfindFrom key rounds right.pointer res store
              else (.ok (some entry.address), store) := by
            have isPointer : (node color left entry right).pointer =
                some entry.address := rfl
            rw [isPointer, nfindFrom, Fallible.bind_of_ok loaded]
            simp only [Frame.node_key, cmp_lt_zero, cmp_gt_zero, Fallible.ite_apply]
            rfl
          have enoughLeft : left.height < rounds := by omega
          have enoughRight : right.height < rounds := by omega
          rw [step, toList]
          rcases lt_trichotomy key entry.key with less | rfl | greater
          · have found :=
              leftIH (⟨.left, color, entry, right⟩ :: path) represents leftOrdered
              (some entry.address) enoughLeft
            rw [if_pos less, found, List.find?_append,
              List.find?_cons, decide_eq_true less.le]
            cases left.toList.find? fun entry => key ≤ entry.key with
            | none => rfl
            | some first => rfl
          · rw [if_neg (lt_irrefl _), if_neg (lt_irrefl _), find_of_equal]
            · rfl
            · simp
            · intro other member
              simpa using isLess other member
          · have found :=
              rightIH (⟨.right, color, entry, left⟩ :: path) represents rightOrdered
              res enoughRight
            rw [if_neg greater.not_gt, if_pos greater, found, find_of_greater]
            · simpa using greater
            · intro other member
              simpa using (isLess other member).trans greater

/-- `RB_FIND` finds the entry with the key. -/
theorem find_spec {tree : Tree (Entry α κ V)}
    (isTree : SearchTree others store tree) (key : κ)
    {rounds : Nat} (enough : tree.height < rounds) :
    find rounds key store =
      (.ok ((tree.toList.find? fun entry => entry.key = key).map Entry.address),
        store) := by
  rw [← findFrom_spec key [] isTree.represents isTree.ordered enough,
    ← isTree.represents.root]
  rfl

/-- `RB_NFIND` finds the first entry that is not less than the key. -/
theorem nfind_spec {tree : Tree (Entry α κ V)}
    (isTree : SearchTree others store tree) (key : κ)
    {rounds : Nat} (enough : tree.height < rounds) :
    nfind rounds key store =
      (.ok ((tree.toList.find? fun entry => key ≤ entry.key).map Entry.address),
        store) := by
  have found := nfindFrom_spec key [] isTree.represents isTree.ordered none enough
  rw [Option.or_none, ← isTree.represents.root] at found
  exact found

end LuaJack.RedBlack
