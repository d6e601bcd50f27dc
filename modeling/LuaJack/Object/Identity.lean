import LuaJack.Object.Frame

/-!
# Keys identify objects

Entries stay in their database and their marks are never set again.  Therefore the
key of a closed object is rejected for the rest of the session, and no other
object ever has the same key.
-/

namespace LuaJack

open Atomic

/-- What a step may do to the databases: entries stay, invalid objects stay invalid, and
the only new entry is the one that has been allocated. -/
structure Extends (allocated : Option (ObjectKind × Addr))
    (before after : World) : Prop where
  kept : ∀ kind key, (before.search kind key).isSome → (after.search kind key).isSome
  valid : ∀ kind key, (before.search kind key).isSome → after.Valid kind key →
    before.Valid kind key
  new : ∀ kind key, before.search kind key = none → (after.search kind key).isSome →
    allocated = some (kind, key)

namespace Extends

variable {allocated : Option (ObjectKind × Addr)}
  {first second third before after : World}
variable {kind : ObjectKind} {key : Addr}

theorem refl (world : World) : Extends allocated world world where
  kept := fun _ _ => id
  valid := fun _ _ _ => id
  new := fun kind key absent present => by simp [absent] at present

theorem trans (one : Extends allocated first second)
    (two : Extends allocated second third) :
    Extends allocated first third where
  kept := fun kind key present => two.kept kind key (one.kept kind key present)
  valid := fun kind key present valid =>
    one.valid kind key present (two.valid kind key (one.kept kind key present) valid)
  new := by
    intro kind key absent present
    cases middle : second.search kind key with
    | none => exact two.new kind key middle present
    | some entry => exact one.new kind key absent (by rw [middle]; rfl)

/-- Entries may be changed, as long as no mark is set. -/
theorem of_changes (changes : ∀ kind key, ∃ change : kind.Entry → kind.Entry,
    after.search kind key = (before.search kind key).map change ∧
      ∀ entry, kind.isValid (change entry) = true → kind.isValid entry = true) :
    Extends allocated before after := by
  refine ⟨?_, ?_, ?_⟩
  · intro kind key present
    rcases changes kind key with ⟨change, changed, _⟩
    rw [changed, Option.isSome_map]
    exact present
  · rintro kind key _ ⟨entry, found, isValid⟩
    rcases changes kind key with ⟨change, changed, keeps⟩
    rw [changed, Option.map_eq_some_iff] at found
    rcases found with ⟨old, wasFound, rfl⟩
    exact ⟨old, wasFound, keeps old isValid⟩
  · intro kind key absent present
    rcases changes kind key with ⟨change, changed, _⟩
    rw [changed, absent] at present
    cases present

/-- Nothing but the databases matters. -/
theorem of_tables (tables : ∀ kind, after.table kind = before.table kind) :
    Extends allocated before after := by
  apply of_changes
  intro kind key
  refine ⟨id, ?_, fun _ => id⟩
  rw [Option.map_id, World.search, tables]
  rfl

/-- Changing an entry without setting its mark. -/
theorem of_modifyEntry (world : World) {change : kind.Entry → kind.Entry}
    (keeps : ∀ entry, kind.isValid (change entry) = true → kind.isValid entry = true) :
    Extends allocated world (world.modifyEntry kind key change) := by
  apply of_changes
  intro other otherKey
  by_cases sameKind : other = kind
  · subst sameKind
    rw [World.search_modifyEntry]
    split
    · exact ⟨change, rfl, keeps⟩
    · exact ⟨id, by rw [Option.map_id]; rfl, fun _ => id⟩
  · rw [World.search_modifyEntry_of_ne _ _ sameKind]
    exact ⟨id, by rw [Option.map_id]; rfl, fun _ => id⟩

/-- Releasing the objects of a client. -/
theorem of_freeAll (world : World) (kind : ObjectKind) (cud : Addr)
    (free : Addr → kind.Entry → Effect) :
    Extends allocated world (world.freeAll kind cud free) := by
  apply of_changes
  intro other otherKey
  by_cases sameKind : other = kind
  · subst sameKind
    refine ⟨_, World.search_freeAll _ _ _ _ _, ?_⟩
    intro entry isValid
    split at isValid
    · rw [ObjectKind.isValid_cancelValid] at isValid
      cases isValid
    · exact isValid
  · rw [World.search_freeAll_of_ne _ _ _ _ sameKind]
    exact ⟨id, by rw [Option.map_id]; rfl, fun _ => id⟩

/-- Inserting the allocated entry. -/
theorem of_insert {entry : kind.Entry} (absent : before.search kind key = none) :
    Extends (some (kind, key)) before
      (before.setTable kind ((before.table kind).insert key entry)) := by
  have other : ∀ otherKind otherKey, ¬(otherKind = kind ∧ otherKey = key) →
      (before.setTable kind ((before.table kind).insert key entry)).search
        otherKind otherKey =
        before.search otherKind otherKey := by
    intro otherKind otherKey different
    by_cases sameKind : otherKind = kind
    · subst sameKind
      rw [World.search, World.table_setTable, Table.find?_insert absent,
        if_neg fun sameKey => different ⟨rfl, sameKey⟩]
      rfl
    · rw [World.search, World.table_setTable_of_ne _ sameKind]
      rfl
  refine ⟨?_, ?_, ?_⟩
  · intro otherKind otherKey present
    rw [other]
    · exact present
    · rintro ⟨rfl, rfl⟩
      rw [absent] at present
      cases present
  · rintro otherKind otherKey present ⟨found, isFound, isValid⟩
    rw [other] at isFound
    · exact ⟨found, isFound, isValid⟩
    · rintro ⟨rfl, rfl⟩
      rw [absent] at present
      cases present
  · intro otherKind otherKey wasAbsent present
    by_cases isNew : otherKind = kind ∧ otherKey = key
    · rw [isNew.1, isNew.2]
    · rw [other _ _ isNew, wasAbsent] at present
      cases present

/-- The functions extend the databases. -/
theorem framed (allocated : Option (ObjectKind × Addr)) :
    Framed allocated (Extends allocated) where
  refl := refl
  trans := trans
  elsewhere := fun _ _ _ => of_tables fun kind => by cases kind <;> rfl
  perform := fun world effect => of_tables (World.table_perform world effect)
  modifyEntry := fun world _ _ _ harmless => of_modifyEntry world harmless.isValid
  insert := by
    rintro world kind key entry rfl absent _
    exact of_insert absent
  freeAll := of_freeAll

theorem framesActivity (allocated : Option (ObjectKind × Addr)) :
    FramesActivity (Extends allocated) :=
  fun _ _ _ => of_tables fun kind => by cases kind <;> rfl

theorem framesReferences (allocated : Option (ObjectKind × Addr)) :
    FramesReferences (Extends allocated) where
  registry := fun _ _ => of_tables fun kind => by cases kind <;> rfl
  setRef := fun world _ _ _ => of_modifyEntry world fun _ => id

end Extends

theorem extends_perform (operation : Operation) (world : World) :
    Extends operation.allocated world (operation.perform world) :=
  (Extends.framed _).operation (fun _ => Extends.framesActivity _)
    (fun _ => Extends.framesReferences _) world

namespace World

/-- A key is never null and identifies one object, whatever its kind. -/
structure Distinct (world : World) : Prop where
  nonzero : ∀ kind, world.search kind 0 = none
  unique : ∀ kind other key, (world.search kind key).isSome →
    (world.search other key).isSome →
    kind = other

theorem distinct_initial : Distinct initial where
  nonzero := fun kind => by cases kind <;> rfl
  unique := fun kind other key present => by cases kind <;> cases present

/-- There is an entry for the object, but it is not valid. -/
def Closed (world : World) (kind : ObjectKind) (key : Addr) : Prop :=
  (world.search kind key).isSome ∧ ¬world.Valid kind key

end World

/-- An address that the allocator may return is in use by no object. -/
theorem absent_of_permitted {operation : Operation} {world : World} {key : Addr}
    (permitted : operation.permitted world = true) {kind : ObjectKind}
    (allocated : operation.allocated = some (kind, key)) :
    key ≠ 0 ∧ ∀ other, world.search other key = none := by
  cases operation with
  | create creation =>
      simp only [Operation.allocated, Option.map_eq_some_iff, Prod.mk.injEq] at allocated
      rcases allocated with ⟨_, isMalloc, _, rfl⟩
      simp only [Operation.permitted, isMalloc, Option.all_some,
        Bool.and_eq_true] at permitted
      refine ⟨by simpa using permitted.1, ?_⟩
      intro other
      have absent := List.all_eq_true.mp permitted.2 other (by cases other <;> simp)
      exact Option.isNone_iff_eq_none.mp absent
  | _ => cases allocated

theorem distinct_step (operation : Operation)
    (before after : World) (distinct : before.Distinct)
    (performed : session operation before = some after) : after.Distinct := by
  rcases session_eq_some.mp performed with ⟨permitted, rfl⟩
  have extended := extends_perform operation before
  have fresh : ∀ kind key, before.search kind key = none →
      ((operation.perform before).search kind key).isSome →
      key ≠ 0 ∧ ∀ other, before.search other key = none :=
    fun kind key absent present => absent_of_permitted permitted
      (extended.new kind key absent present)
  refine ⟨?_, ?_⟩
  · intro kind
    cases found : (operation.perform before).search kind 0 with
    | none => rfl
    | some entry =>
        exact absurd rfl (fresh kind 0 (distinct.nonzero kind) (by rw [found]; rfl)).1
  · intro kind other key present otherPresent
    cases found : before.search kind key with
    | some entry =>
        cases otherFound : before.search other key with
        | some otherEntry =>
            exact distinct.unique kind other key (by rw [found]; rfl)
              (by rw [otherFound]; rfl)
        | none =>
            have absent := (fresh other key otherFound otherPresent).2 kind
            rw [found] at absent
            cases absent
    | none =>
        have isNew := extended.new kind key found present
        have absent := (fresh kind key found present).2 other
        have otherNew := extended.new other key absent otherPresent
        rw [isNew] at otherNew
        cases otherNew
        rfl

/-- A closed object stays closed, and no operation creates another with its key. -/
theorem closed_step {kind : ObjectKind} {key : Addr}
    (operation : Operation) (before after : World)
    (closed : before.Closed kind key)
    (performed : session operation before = some after) :
    after.Closed kind key := by
  rcases session_eq_some.mp performed with ⟨_, rfl⟩
  have extended := extends_perform operation before
  exact ⟨extended.kept kind key closed.1, fun valid =>
    closed.2 (extended.valid kind key closed.1 valid)⟩

/-! ## Closing -/

/-- Closing a client closes it and all objects that belong to it. -/
theorem closed_of_clientCloseRef {world : World}
    {cud : Addr} {rc : Int} {kind : ObjectKind}
    {key : Addr} (valid : world.Valid .client cud)
    (belongs : world.Belongs kind cud key) :
    ((Operation.clientClose cud rc).perform world).Closed kind key := by
  have extended := extends_perform (.clientClose cud rc) world
  have present : (world.search kind key).isSome := by
    rcases belongs with ⟨rfl, rfl⟩ | ⟨entry, found, _⟩
    · rcases valid with ⟨entry, found, _⟩
      rw [found]
      rfl
    · rw [found]
      rfl
  rcases clientClose_freed cud rc true world with ⟨after, run, freed⟩
  have isAfter : (Operation.clientClose cud rc).perform world = after := by
    rw [Operation.perform, clientCloseRef, cudCheck, check_bind_of_valid valid, run]
  refine ⟨extended.kept kind key present, ?_⟩
  rw [isAfter]
  exact freed.not_valid_of_belongs belongs

/-! ## Keys of closed objects -/

/-- No operation allocates an entry with the key of a closed object. -/
theorem not_allocated_of_closed {kind : ObjectKind}
    {key : Addr} {operations : List Operation}
    {world later : World} (closed : world.Closed kind key)
    (run : session.run operations world = some later) :
    ∀ operation ∈ operations, ∀ other, operation.allocated ≠ some (other, key) := by
  induction operations generalizing world with
  | nil => exact fun _ member => absurd member List.not_mem_nil
  | cons first rest ih =>
      rcases Machine.run_cons.mp run with ⟨next, performed, run⟩
      intro operation member other isNew
      rcases List.mem_cons.mp member with rfl | member
      · have absent := (absent_of_permitted (session_eq_some.mp performed).1 isNew).2 kind
        have present := closed.1
        rw [absent] at present
        cases present
      · exact ih (closed_step first world next closed performed)
          run operation member other isNew

/-- Once an object is closed, its key is rejected by the checks of all four kinds and by
the lookup of `callback_flush` for the rest of the session, and is not the key of any
object created later. -/
theorem closed_key_rejected (kind : ObjectKind)
    (key : Addr) (first second : List Operation)
    (world later : World) (opened : session.run first World.initial = some world)
    (closed : world.Closed kind key) (run : session.run second world = some later) :
    (∀ other : ObjectKind, check other key later =
      (.error other.invalidReference, later)) ∧
    (∀ functions evt, evt.clientKey = key →
      later.dispatch functions evt = (.returned, { world := later, calls := [] })) ∧
    ∀ operation ∈ second, ∀ other, operation.allocated ≠ some (other, key) := by
  have distinct : later.Distinct := by
    apply Machine.invariant_of_any_run distinct_step World.distinct_initial
    exact Machine.run_append.mpr ⟨world, opened, run⟩
  have stillClosed : later.Closed kind key :=
    @Machine.invariant_of_any_run _ _ session second world later
      (·.Closed kind key) closed_step
      closed run
  have notValid : ∀ other, ¬later.Valid other key := by
    intro other valid
    rcases valid with ⟨entry, found, isValid⟩
    have sameKind := distinct.unique kind other key stillClosed.1 (by rw [found]; rfl)
    subst sameKind
    exact stillClosed.2 ⟨entry, found, isValid⟩
  refine ⟨fun other => check_eq_error (notValid other),
    ?_, not_allocated_of_closed closed run⟩
  rintro functions evt rfl
  exact dispatch_of_not_valid functions (notValid .client)

/-- A client is closed, and then another one is opened. -/
theorem closed_key_rejected_client :
    ∃ later, session.run [.create (.clientOpen (.plain 0x602010))]
        ((Operation.clientClose 0x601010 0).perform (World.withClient 0x601010)) =
          some later ∧
      check .client 0x601010 later =
        (.error ObjectKind.client.invalidReference, later) := by
  have closed : ((Operation.clientClose 0x601010 0).perform
      (World.withClient 0x601010)).Closed
      .client 0x601010 :=
        closed_of_clientCloseRef ⟨_, rfl, rfl⟩ (World.belongs_client.mpr rfl)
  have rejected := closed_key_rejected .client 0x601010
    [.create (.clientOpen (.plain 0x601010)), .clientClose 0x601010 0]
    [.create (.clientOpen (.plain 0x602010))] _ _ rfl closed rfl
  exact ⟨_, rfl, rejected.1 .client⟩

end LuaJack
