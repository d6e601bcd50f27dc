import LuaJack.Contents
import LuaJack.RedBlack.Macros
import LuaJack.RedBlack.Balance

/-!
# Trees in memory

A store represents a tree if its head points to the root, and every node points to its
subtrees and to the node above.  A tree below a path is represented by the cells of the
path, which point to the subtree, and by the cells of the subtree, which points back to
the path. -/

namespace LuaJack.RedBlack

variable {α κ V : Type}

/-- An entry of a tree: a structure at some address. -/
structure Entry (α κ V : Type) where
  address : α
  key : κ
  value : V

/-- The node of an entry. -/
def Entry.node (entry : Entry α κ V) (left right parent : Option α)
    (color : Color) : Node α κ V :=
  ⟨entry.key, entry.value, left, right, parent, color⟩

/-- The addresses of some entries. -/
abbrev addresses (entries : List (Entry α κ V)) : List α := entries.map Entry.address

namespace Tree

/-- The pointer to a tree. -/
def pointer (tree : Tree (Entry α κ V)) : Option α := tree.root.map Entry.address

/-- The nodes of a tree below some parent. -/
def cells (parent : Option α) : Tree (Entry α κ V) → List (α × Node α κ V)
  | .leaf => []
  | .node color left entry right =>
      left.cells (some entry.address) ++
        (entry.address, entry.node left.pointer right.pointer parent color) ::
        right.cells (some entry.address)

@[simp] theorem pointer_leaf : (leaf : Tree (Entry α κ V)).pointer = none := rfl

@[simp] theorem pointer_make (side : Side) (color : Color) (near far : Tree (Entry α κ V))
    (entry : Entry α κ V) :
    (make side color near entry far).pointer = some entry.address := by
  cases side <;> rfl

@[simp] theorem pointer_recolor (color : Color) (tree : Tree (Entry α κ V)) :
    (tree.recolor color).pointer = tree.pointer := by
  cases tree <;> rfl

theorem cells_addresses (parent : Option α) (tree : Tree (Entry α κ V)) :
    (tree.cells parent).map Prod.fst = addresses tree.toList := by
  induction tree generalizing parent with
  | leaf => rfl
  | node color left entry right leftIH rightIH => simp [cells, toList, leftIH, rightIH]

end Tree

/-- The node of a frame, with a pointer to what is below. -/
def Frame.node (frame : Frame (Entry α κ V)) (hole parent : Option α) : Node α κ V :=
  match frame.side with
  | .left => frame.entry.node hole frame.sibling.pointer parent frame.color
  | .right => frame.entry.node frame.sibling.pointer hole parent frame.color

namespace Path

/-- The pointer to the node just above. -/
def above : Path (Entry α κ V) → Option α
  | [] => none
  | frame :: _ => some frame.entry.address

/-- The pointer to the root, given the pointer to the subtree. -/
def top (hole : Option α) : Path (Entry α κ V) → Option α
  | [] => hole
  | frame :: path => top (some frame.entry.address) path

/-- The nodes of a path, given the pointer to the subtree. -/
def cells (hole : Option α) : Path (Entry α κ V) → List (α × Node α κ V)
  | [] => []
  | frame :: path =>
      (frame.entry.address, frame.node hole (above path)) ::
        (frame.sibling.cells (some frame.entry.address) ++
          cells (some frame.entry.address) path)

/-- The entries of a path. -/
def entries : Path (Entry α κ V) → List (Entry α κ V)
  | [] => []
  | frame :: path => frame.entry :: (frame.sibling.toList ++ entries path)

theorem cells_addresses (hole : Option α) (path : Path (Entry α κ V)) :
    (path.cells hole).map Prod.fst = addresses path.entries := by
  induction path generalizing hole with
  | nil => rfl
  | cons frame path ih => simp [cells, entries, Tree.cells_addresses, ih]

/-- A path and the subtree below it have the entries of the whole tree. -/
theorem entries_perm (path : Path (Entry α κ V)) (tree : Tree (Entry α κ V)) :
    (path.entries ++ tree.toList).Perm (fill path tree).toList := by
  induction path generalizing tree with
  | nil => exact .refl _
  | cons frame path ih =>
      apply List.Perm.trans _ (ih (frame.plug tree))
      rcases frame with ⟨side, color, entry, sibling⟩
      classical
      rw [List.perm_iff_count]
      intro other
      cases side with
      | left => simp [entries, Frame.plug, Tree.make, Tree.toList, List.count_cons]; omega
      | right =>
          simp [entries, Frame.plug, Tree.make, Tree.toList, List.count_cons]; omega

/-- The nodes of a path are nodes of the whole tree. -/
theorem entries_nodup (path : Path (Entry α κ V)) {tree : Tree (Entry α κ V)}
    (distinct : (addresses (fill path tree).toList).Nodup) :
    (addresses path.entries).Nodup := by
  have all := ((path.entries_perm tree).map Entry.address).nodup_iff.mpr distinct
  rw [List.map_append] at all
  exact all.of_append_left

end Path

/-- The store represents a tree.  Outside of the tree, the nodes are those of another
heap. -/
structure Represents (others : α → Option (Node α κ V)) (store : Store α κ V)
    (tree : Tree (Entry α κ V)) : Prop where
  root : store.root = tree.pointer
  cells : Contains store.node (tree.cells none)
  distinct : (addresses tree.toList).Nodup
  outside : ∀ address ∉ addresses tree.toList, store.node address = others address

/-- The store represents a path and the subtree below it. -/
structure Focus (others : α → Option (Node α κ V))
    (store : Store α κ V) (path : Path (Entry α κ V))
    (tree : Tree (Entry α κ V)) : Prop where
  root : store.root = path.top tree.pointer
  around : Contains store.node (path.cells tree.pointer)
  inside : Contains store.node (tree.cells path.above)
  distinct : (addresses (path.entries ++ tree.toList)).Nodup
  outside : ∀ address ∉ addresses (path.entries ++ tree.toList), store.node address =
    others address

section

variable {others : α → Option (Node α κ V)} {store : Store α κ V}

/-- The cells of a node: its own one, and those of its subtrees. -/
theorem Frame.cells_plug (frame : Frame (Entry α κ V)) (tree : Tree (Entry α κ V))
    (parent : Option α) : ((frame.plug tree).cells parent).Perm
      ((frame.entry.address, frame.node tree.pointer parent) ::
        (frame.sibling.cells (some frame.entry.address) ++
          tree.cells (some frame.entry.address))) := by
  rcases frame with ⟨side, color, entry, sibling⟩
  cases side with
  | left => exact List.perm_middle.trans (.cons _ List.perm_append_comm)
  | right => exact List.perm_middle

/-- The focus can be moved along a path. -/
theorem focus_plug (frame : Frame (Entry α κ V)) (path : Path (Entry α κ V))
    (tree : Tree (Entry α κ V)) :
    Focus others store path (frame.plug tree) ↔
      Focus others store (frame :: path) tree := by
  have same := ((Path.entries_perm path (frame.plug tree)).trans
    (Path.entries_perm (frame :: path) tree).symm).map Entry.address
  have isPointer : (frame.plug tree).pointer = some frame.entry.address :=
    Tree.pointer_make ..
  have cells := (frame.cells_plug tree path.above)
  constructor
  · rintro ⟨root, around, inside, distinct, outside⟩
    rw [isPointer] at root around
    rw [Contains.perm cells, Contains.cons, Contains.append] at inside
    refine ⟨root, ?_, inside.2.2, same.nodup_iff.mp distinct, ?_⟩
    · exact Contains.cons.mpr ⟨inside.1, Contains.append.mpr ⟨inside.2.1, around⟩⟩
    · exact fun address absent => outside address fun member =>
        absent (same.mem_iff.mp member)
  · rintro ⟨root, around, inside, distinct, outside⟩
    rw [Path.cells, Contains.cons, Contains.append] at around
    refine ⟨?_, ?_, ?_, same.nodup_iff.mpr distinct, ?_⟩
    · rw [isPointer]
      exact root
    · rw [isPointer]
      exact around.2.2
    · rw [Contains.perm cells, Contains.cons, Contains.append]
      exact ⟨around.1, around.2.1, inside⟩
    · exact fun address absent => outside address fun member =>
        absent (same.mem_iff.mpr member)

/-- The store represents the whole tree exactly if it represents a subtree and the path
to it. -/
theorem represents_fill (path : Path (Entry α κ V)) (tree : Tree (Entry α κ V)) :
    Represents others store (Path.fill path tree) ↔ Focus others store path tree := by
  induction path generalizing tree with
  | nil =>
      constructor
      · intro represents
        exact ⟨represents.root, .nil, represents.cells,
          represents.distinct, represents.outside⟩
      · intro focus
        exact ⟨focus.root, focus.inside, focus.distinct, focus.outside⟩
  | cons frame path ih =>
      rw [Path.fill_cons, ih]
      exact focus_plug frame path tree

end

end LuaJack.RedBlack
