import LuaJack.Contents
import LuaJack.Fallible
import LuaJack.RedBlack.Tree
import Mathlib.Order.Lattice
import Mathlib.Logic.Function.Basic

/-!
# The red-black tree macros

The functions that `RB_GENERATE` makes, on nodes that point to each other.  A pointer is
`NULL` or an address; reading or writing through `NULL` or through the address of
something that is not allocated is a fault.  The loops get a number of rounds that they
must not exceed.  Where the source repeats a passage with left and right exchanged, the
passage stands here once, for the side that is tested for.  `RB_AUGMENT` does nothing in
this program. -/

namespace LuaJack.RedBlack

/-- A structure with an `RB_ENTRY`: its key, its other fields, and the entry. -/
structure Node (α κ V : Type) where
  key : κ
  value : V
  left : Option α
  right : Option α
  parent : Option α
  color : Color

/-- The head of a tree, and the nodes that are allocated. -/
structure Store (α κ V : Type) where
  root : Option α
  node : α → Option (Node α κ V)

/-- A function on a tree. -/
abbrev Macro (α κ V β : Type) := Fallible (Store α κ V) HeapFault β

variable {α κ V : Type}

/-- `RB_LEFT` or `RB_RIGHT`. -/
def Node.link (side : Side) (node : Node α κ V) : Option α :=
  match side with
  | .left => node.left
  | .right => node.right

/-- Set `RB_LEFT` or `RB_RIGHT`. -/
def Node.setLink (side : Side) (pointer : Option α) (node : Node α κ V) : Node α κ V :=
  match side with
  | .left => { node with left := pointer }
  | .right => { node with right := pointer }

/-- The node that a pointer points to. -/
def load (pointer : Option α) : Macro α κ V (Node α κ V) := fun store =>
  match pointer.bind store.node with
  | some node => (.ok node, store)
  | none => (.error .invalid, store)

/-- The head's `rbh_root`. -/
def rbhRoot : Macro α κ V (Option α) := Fallible.asks Store.root

section

variable [DecidableEq α]

/-- Write to the node that a pointer points to. -/
def write (pointer : Option α) (change : Node α κ V → Node α κ V) :
    Macro α κ V PUnit := fun store =>
  match pointer with
  | none => (.error .invalid, store)
  | some address =>
      match store.node address with
      | none => (.error .invalid, store)
      | some node => (.ok ⟨⟩,
          { store with node := Function.update store.node address (some (change node)) })

/-- Set `RB_COLOR`. -/
def setColor (pointer : Option α) (color : Color) : Macro α κ V PUnit :=
  write pointer fun node => { node with color }

/-- `RB_SET_BLACKRED`. -/
def setBlackRed (black red : Option α) : Macro α κ V PUnit := do
  setColor black .black
  setColor red .red

/-- `if(child) RB_PARENT(child) = parent`. -/
def adopt (child parent : Option α) : Macro α κ V PUnit :=
  match child with
  | none => pure ⟨⟩
  | some _ => write child fun node => { node with parent }

/-- Put another child into the place of one: below its parent, or at the root. -/
def replaceChild (parent old new : Option α) : Macro α κ V PUnit :=
  match parent with
  | none => Fallible.modify fun store => { store with root := new }
  | some _ => do
      if (← load parent).left = old then
        write parent fun node => { node with left := new }
      else
        write parent fun node => { node with right := new }

/-- `RB_ROTATE_LEFT` and, for the other side, `RB_ROTATE_RIGHT`. -/
def rotate (side : Side) (elm : Option α) : Macro α κ V PUnit := do
  let tmp := (← load elm).link side.opposite
  let inner := (← load tmp).link side
  write elm (Node.setLink side.opposite inner)
  adopt inner elm
  let parent := (← load elm).parent
  write tmp fun node => { node with parent }
  replaceChild parent elm tmp
  write tmp (Node.setLink side elm)
  write elm fun node => { node with parent := tmp }

/-- `elm && RB_COLOR(elm) == RB_RED`. -/
def isRed (elm : Option α) : Macro α κ V Bool :=
  match elm with
  | none => pure false
  | some _ => do return (← load elm).color = .red

/-- `elm == NULL || RB_COLOR(elm) == RB_BLACK`. -/
def isBlack (elm : Option α) : Macro α κ V Bool :=
  match elm with
  | none => pure true
  | some _ => do return (← load elm).color = .black

/-- `if(elm) RB_COLOR(elm) = RB_BLACK`. -/
def blacken (elm : Option α) : Macro α κ V PUnit :=
  match elm with
  | none => pure ⟨⟩
  | some _ => setColor elm .black

/-! ## Insertion -/

/-- One round of `RB_INSERT_COLOR`, with the parent on some side of the grandparent:
returns the `elm` of the next round. -/
def insertColorRound (side : Side) (elm parent gparent : Option α) :
    Macro α κ V (Option α) := do
  let tmp := (← load gparent).link side.opposite
  if ← isRed tmp then
    setColor tmp .black
    setBlackRed parent gparent
    return gparent
  else if (← load parent).link side.opposite = elm then
    -- From here on, `elm` and `parent` have changed places.
    rotate side parent
    setBlackRed elm gparent
    rotate side.opposite gparent
    return parent
  else
    setBlackRed parent gparent
    rotate side.opposite gparent
    return elm

/-- `RB_INSERT_COLOR`. -/
def insertColor : Nat → Option α → Macro α κ V PUnit
  | 0, _ => Fallible.error .rounds
  | rounds + 1, elm => do
      let parent := (← load elm).parent
      if ← isRed parent then
        let gparent := (← load parent).parent
        let side := if parent = (← load gparent).left then .left else .right
        insertColor rounds (← insertColorRound side elm parent gparent)
      else
        setColor (← rbhRoot) .black

/-- `cmp` of the databases, on two keys. -/
def cmp [LinearOrder κ] (key1 key2 : κ) : Int :=
  if key1 < key2 then -1 else if key2 < key1 then 1 else 0

/-- The search of `RB_INSERT`: the node with the key already, or the parent for a new
node and how the keys compare. -/
def insertSearch [LinearOrder κ] (key : κ) : Nat → Option α → Option α → Int →
    Macro α κ V (α ⊕ (Option α × Int))
  | 0, _, _, _ => Fallible.error .rounds
  | rounds + 1, tmp, parent, comp =>
      match tmp with
      | none => pure (.inr (parent, comp))
      | some found => do
          let node ← load tmp
          let comp := cmp key node.key
          if comp < 0 then
            insertSearch key rounds node.left tmp comp
          else if comp > 0 then
            insertSearch key rounds node.right tmp comp
          else
            return .inl found

/-- `RB_SET`, and the pointer to the new node. -/
def hang (elm parent : Option α) (comp : Int) : Macro α κ V PUnit := do
  write elm fun node => { node with parent, left := none, right := none, color := .red }
  match parent with
  | none => Fallible.modify fun store => { store with root := elm }
  | some _ =>
      if comp < 0 then
        write parent fun node => { node with left := elm }
      else
        write parent fun node => { node with right := elm }

/-- `RB_INSERT`: returns a node with the same key, if there is one. -/
def insert [LinearOrder κ] (rounds : Nat) (elm : Option α) : Macro α κ V (Option α) := do
  match ← insertSearch (← load elm).key rounds (← rbhRoot) none 0 with
  | .inl found => return some found
  | .inr (parent, comp) =>
      hang elm parent comp
      insertColor rounds elm
      return none

/-! ## Removal -/

/-- The end of the last round of `RB_REMOVE_COLOR`: the sibling has a red child on the
far side. -/
def removeColorLast (side : Side) (parent tmp : Option α) : Macro α κ V PUnit := do
  setColor tmp (← load parent).color
  setColor parent .black
  blacken ((← load tmp).link side.opposite)
  rotate side parent

/-- One round of `RB_REMOVE_COLOR`, from where the sibling is known to be black: returns
the `parent` and the `elm` of the next round, or nothing when the loop is left. -/
def removeColorSettle (side : Side) (parent tmp : Option α) :
    Macro α κ V (Option (Option α × Option α)) := do
  let node ← load tmp
  if (← isBlack node.left) && (← isBlack node.right) then
    setColor tmp .red
    return some ((← load parent).parent, parent)
  else if ← isBlack (node.link side.opposite) then
    blacken (node.link side)
    setColor tmp .red
    rotate side.opposite tmp
    removeColorLast side parent ((← load parent).link side.opposite)
    return none
  else
    removeColorLast side parent tmp
    return none

/-- One round of `RB_REMOVE_COLOR`, with `elm` on some side of its parent. -/
def removeColorRound (side : Side) (parent : Option α) :
    Macro α κ V (Option (Option α × Option α)) := do
  let tmp := (← load parent).link side.opposite
  if (← load tmp).color = .red then
    setBlackRed tmp parent
    rotate side parent
    removeColorSettle side parent ((← load parent).link side.opposite)
  else
    removeColorSettle side parent tmp

/-- `RB_REMOVE_COLOR`. -/
def removeColor : Nat → Option α → Option α → Macro α κ V PUnit
  | 0, _, _ => Fallible.error .rounds
  | rounds + 1, parent, elm => do
      if (← isBlack elm) && elm ≠ (← rbhRoot) then
        let side := if (← load parent).left = elm then .left else .right
        match ← removeColorRound side parent with
        | some (parent, elm) => removeColor rounds parent elm
        | none => blacken (← rbhRoot)
      else
        blacken elm

/-- `while((left = RB_LEFT(elm))) elm = left`. -/
def leftmost : Nat → Option α → Macro α κ V (Option α)
  | 0, _ => Fallible.error .rounds
  | rounds + 1, elm => do
      match (← load elm).left with
      | none => return elm
      | some left => leftmost rounds (some left)

/-- `do { RB_AUGMENT(left); } while((left = RB_PARENT(left)))`. -/
def augment : Nat → Option α → Macro α κ V PUnit
  | 0, _ => Fallible.error .rounds
  | rounds + 1, left => do
      match (← load left).parent with
      | none => pure ⟨⟩
      | some parent => augment rounds (some parent)

/-- Take a node out that has at most one child: returns its parent. -/
def unlink (elm child : Option α) : Macro α κ V (Option α) := do
  let parent := (← load elm).parent
  adopt child parent
  replaceChild parent elm child
  return parent

/-- Put a node into the place of another one: the parent and the children point to it. -/
def takePlace (old elm : Option α) : Macro α κ V PUnit := do
  replaceChild (← load old).parent old elm
  write (← load old).left fun node => { node with parent := elm }
  adopt (← load old).right elm

/-- What `RB_REMOVE` does from its label `color` on. -/
def removeEnd (rounds : Nat) (color : Color) (parent child old : Option α) :
    Macro α κ V (Option α) := do
  if color = .black then
    removeColor rounds parent child
  return old

/-- `RB_REMOVE`: returns the removed node. -/
def remove (rounds : Nat) (old : Option α) : Macro α κ V (Option α) := do
  let node ← load old
  if node.left.isSome && node.right.isSome then
    -- The next node is taken out, and put into the place of the old one.
    let elm ← leftmost rounds node.right
    let child := (← load elm).right
    let color := (← load elm).color
    let unlinked ← unlink elm child
    let parent := if (← load elm).parent = old then elm else unlinked
    let field ← load old
    write elm fun node => { node with
      left := field.left
      right := field.right
      parent := field.parent
      color := field.color }
    takePlace old elm
    match parent with
    | none => pure ⟨⟩
    | some _ => augment rounds parent
    removeEnd rounds color parent child old
  else
    let child := if node.left = none then node.right else node.left
    let color := node.color
    let parent ← unlink old child
    removeEnd rounds color parent child old

/-! ## Searching -/

/-- `RB_FIND`, for the key of `elm`. -/
def findFrom [LinearOrder κ] (key : κ) : Nat → Option α → Macro α κ V (Option α)
  | 0, _ => Fallible.error .rounds
  | rounds + 1, tmp =>
      match tmp with
      | none => pure none
      | some _ => do
          let node ← load tmp
          let comp := cmp key node.key
          if comp < 0 then
            findFrom key rounds node.left
          else if comp > 0 then
            findFrom key rounds node.right
          else
            return tmp

/-- `RB_FIND`. -/
def find [LinearOrder κ] (rounds : Nat) (key : κ) : Macro α κ V (Option α) := do
  findFrom key rounds (← rbhRoot)

/-- The loop of `RB_NFIND`. -/
def nfindFrom [LinearOrder κ] (key : κ) :
    Nat → Option α → Option α → Macro α κ V (Option α)
  | 0, _, _ => Fallible.error .rounds
  | rounds + 1, tmp, res =>
      match tmp with
      | none => pure res
      | some _ => do
          let node ← load tmp
          let comp := cmp key node.key
          if comp < 0 then
            nfindFrom key rounds node.left tmp
          else if comp > 0 then
            nfindFrom key rounds node.right res
          else
            return tmp

/-- `RB_NFIND`. -/
def nfind [LinearOrder κ] (rounds : Nat) (key : κ) : Macro α κ V (Option α) := do
  nfindFrom key rounds (← rbhRoot) none

/-- The loop of `RB_NEXT` that goes up as long as it comes from the right, and then once
more. -/
def nextUp : Nat → Option α → Macro α κ V (Option α)
  | 0, _ => Fallible.error .rounds
  | rounds + 1, elm => do
      let parent := (← load elm).parent
      match parent with
      | none => return none
      | some _ =>
          if elm = (← load parent).right then
            nextUp rounds parent
          else
            return parent

/-- `RB_NEXT`. -/
def next (rounds : Nat) (elm : Option α) : Macro α κ V (Option α) := do
  let node ← load elm
  match node.right with
  | some right => leftmost rounds (some right)
  | none =>
      match node.parent with
      | none => return none
      | some _ =>
          if elm = (← load node.parent).left then
            return node.parent
          else
            nextUp rounds elm

end

end LuaJack.RedBlack
