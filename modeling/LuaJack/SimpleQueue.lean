import LuaJack.Contents
import LuaJack.Fallible

/-!
# Simple queues

The macros for simple queues, on heads and elements that point to each other.  The
member `sqh_last` of a head points to the pointer at the end of the queue, which is the
link of the last element or, as long as there is none, the member `sqh_first` of the
head itself. -/

namespace LuaJack.SimpleQueue

/-- Where pointers to elements are: the member `sqh_first` of a head, and the member
`sqe_next` of an element. -/
inductive Place (η α : Type) where
  | first (head : η)
  | next (elm : α)
  deriving DecidableEq

/-- The pointers to elements, and the members `sqh_last`, of what is allocated. -/
structure Links (η α : Type) where
  pointer : Place η α → Option (Option α)
  last : η → Option (Option (Place η α))

/-- A function on heads and elements. -/
abbrev Macro (η α β : Type) := Fallible (Links η α) HeapFault β

variable {η α : Type}

/-! ## The macros -/

section

/-- Read a pointer to an element. -/
def load (place : Place η α) : Macro η α (Option α) := fun links =>
  match links.pointer place with
  | none => (.error .invalid, links)
  | some pointer => (.ok pointer, links)

/-- `SIMPLEQ_FIRST`. -/
def first (head : η) : Macro η α (Option α) := load (.first head)

/-- `SIMPLEQ_NEXT`. -/
def next (elm : α) : Macro η α (Option α) := load (.next elm)

variable [DecidableEq η] [DecidableEq α]

/-- Write a pointer to an element. -/
def store (place : Place η α) (pointer : Option α) : Macro η α PUnit := fun links =>
  match links.pointer place with
  | none => (.error .invalid, links)
  | some _ => (.ok ⟨⟩,
      { links with pointer := Function.update links.pointer place (some pointer) })

/-- Assign to the member `sqh_last` of a head. -/
def setLast (head : η) (place : Place η α) : Macro η α PUnit := fun links =>
  match links.last head with
  | none => (.error .invalid, links)
  | some _ =>
      (.ok ⟨⟩, { links with last := Function.update links.last head (some (some place)) })

/-- Write to where the member `sqh_last` of a head points. -/
def storeLast (head : η) (pointer : Option α) : Macro η α PUnit := fun links =>
  match links.last head with
  | some (some place) => store place pointer links
  | _ => (.error .invalid, links)

/-- `SIMPLEQ_INIT`. -/
def init (head : η) : Macro η α PUnit := do
  store (.first head) none
  setLast head (.first head)

/-- `SIMPLEQ_INSERT_TAIL`. -/
def insertTail (head : η) (elm : α) : Macro η α PUnit := do
  store (.next elm) none
  storeLast head (some elm)
  setLast head (.next elm)

/-- What `SIMPLEQ_REMOVE_HEAD` and `SIMPLEQ_REMOVE_AFTER` do to the pointer at a place. -/
def skip (head : η) (place : Place η α) : Macro η α PUnit := do
  match ← load place with
  | none => Fallible.error .invalid
  | some elm =>
      let following ← next elm
      store place following
      if following = none then
        setLast head place

/-- `SIMPLEQ_REMOVE_HEAD`. -/
def removeHead (head : η) : Macro η α PUnit := skip head (.first head)

/-- `SIMPLEQ_REMOVE_AFTER`. -/
def removeAfter (head : η) (elm : α) : Macro η α PUnit := skip head (.next elm)

end

/-! ## Queues in memory -/

/-- The place at the end of a list of elements that starts at a place. -/
def endOf (place : Place η α) : List α → Place η α
  | [] => place
  | elm :: rest => endOf (.next elm) rest

/-- The pointers to elements, and where they are. -/
def segment (place : Place η α) : List α → List (Place η α × Option α)
  | [] => []
  | elm :: rest => (place, some elm) :: segment (.next elm) rest

/-- The links of elements, up to the end of the queue. -/
def behind : List α → List (Place η α × Option α)
  | [] => []
  | elm :: rest => (.next elm, rest.head?) :: behind rest

/-- The pointers from a place on, up to the end of the queue. -/
def chain (place : Place η α) (elms : List α) : List (Place η α × Option α) :=
  (place, elms.head?) :: behind elms

theorem chain_append (place : Place η α) (before elms : List α) :
    chain place (before ++ elms) = segment place before ++
      chain (endOf place before) elms := by
  induction before generalizing place with
  | nil => rfl
  | cons elm rest inductionHypothesis =>
      exact congrArg ((place, some elm) :: ·) (inductionHypothesis (.next elm))

@[simp] theorem behind_places (elms : List α) :
    (behind elms : List (Place η α × Option α)).map Prod.fst = elms.map .next := by
  induction elms with
  | nil => rfl
  | cons elm rest inductionHypothesis =>
      exact congrArg (Place.next elm :: ·) inductionHypothesis

/-- A queue is in the head and in the links of its elements. -/
@[simp] theorem chain_places (place : Place η α) (elms : List α) :
    (chain place elms).map Prod.fst = place :: elms.map .next := by
  rw [chain, List.map_cons, behind_places]

theorem endOf_append (place : Place η α) (before elms : List α) :
    endOf place (before ++ elms) = endOf (endOf place before) elms := by
  induction before generalizing place with
  | nil => rfl
  | cons elm rest inductionHypothesis => exact inductionHypothesis (.next elm)

/-- The end is where the queue starts, or the link of an element. -/
theorem endOf_mem (place : Place η α) (elms : List α) :
    endOf place elms ∈ place :: elms.map .next := by
  induction elms generalizing place with
  | nil => exact List.mem_cons_self ..
  | cons elm rest inductionHypothesis =>
      exact List.mem_cons_of_mem _ (inductionHypothesis (.next elm))

/-- A head is that of a queue with these elements. -/
structure IsQueue (links : Links η α) (head : η) (elms : List α) : Prop where
  cells : Contains links.pointer (chain (.first head) elms)
  last : links.last head = some (some (endOf (.first head) elms))
  nodup : elms.Nodup

/-- Nothing has changed but the head and the links of some elements, and all that was
allocated still is. -/
structure Within (links after : Links η α) (head : η) (elms : List α) : Prop where
  pointer : ∀ place, place ≠ .first head → (∀ elm ∈ elms, place ≠ .next elm) →
    after.pointer place = links.pointer place
  last : ∀ other, other ≠ head → after.last other = links.last other
  allocated : ∀ place, (after.pointer place).isSome = (links.pointer place).isSome

variable {links after : Links η α} {head : η}
  {elms : List α} {elm : α} {place : Place η α}

theorem load_of_pointer {pointer : Option α}
    (isPointer : links.pointer place = some pointer) :
    load place links = (.ok pointer, links) := by
  rw [load, isPointer]

namespace IsQueue

/-- The places of a queue differ. -/
theorem places_nodup (queue : IsQueue links head elms) :
    ((chain (.first head) elms).map Prod.fst).Nodup := by
  rw [chain_places, List.nodup_cons]
  refine ⟨?_, queue.nodup.map fun _ _ => Place.next.inj⟩
  intro member
  rcases List.mem_map.mp member with ⟨_, _, same⟩
  cases same

theorem first_spec (queue : IsQueue links head elms) :
    first head links = (.ok elms.head?, links) :=
  load_of_pointer (queue.cells _ (List.mem_cons_self ..))

/-- No pointer before a place within a queue is at this place or behind it. -/
theorem places_apart {before rest : List α}
    (queue : IsQueue links head (before ++ rest)) :
    ∀ place ∈ (segment (.first head) before).map Prod.fst,
      place ∉ (chain (endOf (.first head) before) rest).map Prod.fst := by
  have distinct := queue.places_nodup
  rw [chain_append, List.map_append, List.nodup_append] at distinct
  exact fun place inFirst inSecond => distinct.2.2 place inFirst place inSecond rfl

/-- The pointers from somewhere within a queue on. -/
theorem cells_from {before rest : List α} (queue : IsQueue links head (before ++ rest)) :
    Contains links.pointer (segment (.first head) before) ∧
      Contains links.pointer (chain (endOf (.first head) before) rest) := by
  have cells := queue.cells
  rw [chain_append, Contains.append] at cells
  exact cells

theorem next_spec {before rest : List α}
    (queue : IsQueue links head (before ++ elm :: rest)) :
    next elm links = (.ok rest.head?, links) := by
  have cells := queue.cells_from.2
  rw [chain, behind, Contains.cons, Contains.cons] at cells
  exact load_of_pointer cells.2.1

/-- What happens elsewhere does not concern a queue. -/
theorem congr (queue : IsQueue links head elms)
    (first : after.pointer (.first head) = links.pointer (.first head))
    (next : ∀ elm ∈ elms, after.pointer (.next elm) = links.pointer (.next elm))
    (last : after.last head = links.last head) : IsQueue after head elms := by
  refine ⟨queue.cells.congr ?_, last.trans queue.last, queue.nodup⟩
  intro place member
  rw [chain_places, List.mem_cons, List.mem_map] at member
  rcases member with rfl | ⟨elm, member, rfl⟩
  · exact first
  · exact next elm member

/-- A change of one queue leaves the others as they are. -/
theorem within {other : η} {others : List α} (queue : IsQueue links other others)
    (within : Within links after head elms) (different : other ≠ head)
    (disjoint : ∀ elm ∈ others, elm ∉ elms) : IsQueue after other others := by
  apply queue.congr
  · apply within.pointer
    · exact fun same => different (Place.first.inj same)
    · exact fun _ _ same => by cases same
  · intro elm member
    apply within.pointer
    · exact fun same => by cases same
    · intro another isAnother same
      exact disjoint elm member (Place.next.inj same ▸ isAnother)
  · exact within.last other different

end IsQueue

/-! ## What the macros do -/

section

variable [DecidableEq η]

theorem setLast_of_last {old : Option (Place η α)} (isLast : links.last head = some old) :
    setLast head place links =
      (.ok ⟨⟩, { links with
        last := Function.update links.last head (some (some place)) }) := by
  rw [setLast, isLast]

variable [DecidableEq α]

theorem store_of_pointer {old : Option α} (isPointer : links.pointer place = some old)
    (pointer : Option α) : store place pointer links =
      (.ok ⟨⟩, { links with
        pointer := Function.update links.pointer place (some pointer) }) := by
  rw [store, isPointer]

/-- Writing to a place that is allocated keeps it allocated. -/
theorem isSome_update {old : Option α} (isPointer : links.pointer place = some old)
    (pointer : Option α) (other : Place η α) :
    (Function.update links.pointer place (some pointer) other).isSome =
      (links.pointer other).isSome := by
  by_cases same : other = place
  · rw [same, Function.update_self, isPointer]
    rfl
  · rw [Function.update_of_ne same]

/-- A head whose memory is allocated becomes that of an empty queue. -/
theorem init_spec {old : Option α} {oldLast : Option (Place η α)}
    (isFirst : links.pointer (.first head) = some old)
    (isLast : links.last head = some oldLast) :
    ∃ after, init head links = (.ok ⟨⟩, after) ∧ IsQueue after head [] ∧
      Within links after head [] := by
  have written := store_of_pointer isFirst none
  have assigned : setLast head (.first head)
      { links with pointer := Function.update links.pointer (.first head) (some none) } =
        _ :=
    setLast_of_last isLast
  refine ⟨_, (Fallible.bind_of_ok written).trans assigned,
    ⟨?_, ?_, List.nodup_nil⟩, ⟨?_, ?_, ?_⟩⟩
  · rw [chain, behind, Contains.cons]
    exact ⟨Function.update_self .., Contains.nil⟩
  · exact Function.update_self ..
  · exact fun place notFirst _ => Function.update_of_ne notFirst ..
  · exact fun other different => Function.update_of_ne different ..
  · exact isSome_update isFirst none

/-- An element whose memory is allocated is appended. -/
theorem insertTail_spec (queue : IsQueue links head elms)
    (absent : elm ∉ elms) {old : Option α}
    (isElm : links.pointer (.next elm) = some old) :
    ∃ after, insertTail head elm links = (.ok ⟨⟩, after) ∧
      IsQueue after head (elms ++ [elm]) ∧
      Within links after head (elms ++ [elm]) := by
  rw [← List.append_nil elms] at queue
  have apart := queue.places_apart
  have before := queue.cells_from.1
  have atEnd := queue.cells_from.2
  have last := queue.last
  rw [List.append_nil] at queue last
  rw [chain, behind, Contains.cons] at atEnd
  have notElm : ∀ place ∈ (chain (.first head) elms).map Prod.fst, place ≠ .next elm := by
    intro place member same
    rw [chain_places, same, List.mem_cons, List.mem_map] at member
    rcases member with isFirst | ⟨other, isOther, isElm⟩
    · cases isFirst
    · exact absent (Place.next.inj isElm ▸ isOther)
  have endElm : endOf (.first head) elms ≠ .next elm := by
    apply notElm
    rw [chain_places]
    exact endOf_mem _ _
  have stillEnd : Function.update links.pointer (.next elm) (some none)
      (endOf (.first head) elms) = some none :=
        (Function.update_of_ne endElm ..).trans atEnd.1
  have done : insertTail head elm links = (.ok ⟨⟩, {
      pointer := Function.update (Function.update links.pointer (.next elm) (some none))
        (endOf (.first head) elms) (some (some elm))
      last := Function.update links.last head (some (some (.next elm))) }) := by
    have stored : storeLast head (some elm)
        ⟨Function.update links.pointer (.next elm) (some none), links.last⟩ = (.ok ⟨⟩, {
          pointer :=
            Function.update (Function.update links.pointer (.next elm) (some none))
            (endOf (.first head) elms) (some (some elm))
          last := links.last }) := by
      rw [storeLast, last]
      exact store_of_pointer stillEnd (some elm)
    rw [insertTail, Fallible.bind_of_ok (store_of_pointer isElm none),
      Fallible.bind_of_ok stored]
    exact setLast_of_last last
  refine ⟨_, done, ⟨?_, ?_, ?_⟩, ⟨?_, ?_, ?_⟩⟩
  · rw [chain_append, Contains.append, chain,
      behind, Contains.cons, behind, Contains.cons]
    refine ⟨before.congr ?_, Function.update_self .., ?_, Contains.nil⟩
    · intro place member
      have notEnd : place ≠ endOf (.first head) elms := by
        rintro rfl
        exact apart _ member (by simp)
      have isPlace : place ∈ (chain (.first head) (elms ++ [])).map Prod.fst := by
        rw [chain_append, List.map_append]
        exact List.mem_append_left _ member
      rw [List.append_nil] at isPlace
      exact (Function.update_of_ne notEnd ..).trans
        (Function.update_of_ne (notElm place isPlace) ..)
    · exact (Function.update_of_ne endElm.symm ..).trans (Function.update_self ..)
  · rw [endOf_append]
    exact Function.update_self ..
  · exact queue.nodup.append (List.nodup_singleton elm) fun other member same =>
      absent (List.mem_singleton.mp same ▸ member)
  · intro place notFirst notNext
    have notEnd : place ≠ endOf (.first head) elms := by
      rintro rfl
      rcases List.mem_cons.mp (endOf_mem (.first head) elms) with isFirst | isNext
      · exact notFirst isFirst
      · rcases List.mem_map.mp isNext with ⟨other, member, same⟩
        exact notNext other (List.mem_append_left _ member) same.symm
    have notElm : place ≠ .next elm :=
      notNext elm (List.mem_append_right _ (List.mem_cons_self ..))
    exact (Function.update_of_ne notEnd ..).trans (Function.update_of_ne notElm ..)
  · exact fun other different => Function.update_of_ne different ..
  · intro place
    have twice :=
      @isSome_update _ _ ⟨Function.update links.pointer (.next elm) (some none),
      links.last⟩ _ _ _ _ stillEnd (some elm) place
    exact twice.trans (isSome_update isElm none place)

end

end LuaJack.SimpleQueue
