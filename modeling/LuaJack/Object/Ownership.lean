import LuaJack.Object.Close

/-!
# What closing a client releases

Threads, ringbuffers and ports belong to clients.  Closing a client releases its
objects, each of them once, and touches no others.
-/

namespace LuaJack

/-- The object that a call releases. -/
def Effect.released : Effect → Option (ObjectKind × Addr)
  | jackClientClose (some cud) _ => some (.client, cud)
  | jackPortUnregister (some pud) _ _ => some (.port, pud)
  | ringbufferFree rud _ => some (.ringbuffer, rud)
  | threadFree tud _ _ => some (.thread, tud)
  | _ => none

theorem released_threadFree (key : Addr) (tud : ObjectKind.thread.Entry) :
    (threadFree key tud).released = some (.thread, key) := rfl

theorem released_rbufFree (key : Addr) (rud : ObjectKind.ringbuffer.Entry) :
    (rbufFree key rud).released = some (.ringbuffer, key) := rfl

theorem released_portClose (world : World) (key : Addr) (pud : ObjectKind.port.Entry) :
    (portClose world key pud).released = some (.port, key) := rfl

/-- The number of calls in a trace that release an object. -/
def releases (kind : ObjectKind) (key : Addr) (trace : List Effect) : Nat :=
  trace.countP fun effect => effect.released = some (kind, key)

@[simp] theorem releases_append (kind : ObjectKind)
    (key : Addr) (first second : List Effect) :
    releases kind key (first ++ second) =
      releases kind key first + releases kind key second :=
  List.countP_append

theorem ObjectKind.ownedBy_client (cud : Addr) (entry : ObjectKind.client.Entry) :
    ObjectKind.client.ownedBy cud entry = false := by
  simp [ownedBy, owner]

namespace World

variable (world : World) (kind : ObjectKind) (cud : Addr)

/-- The object is the client, or belongs to it. -/
def Belongs (key : Addr) : Prop :=
  kind = .client ∧ key = cud ∨
    ∃ entry, world.search kind key = some entry ∧ kind.owner entry = some cud

variable {world kind cud}

theorem belongs_client {key : Addr} : world.Belongs .client cud key ↔ key = cud := by
  constructor
  · rintro (isCud | ⟨entry, _, isOwner⟩)
    · exact isCud.2
    · cases isOwner
  · exact fun isCud => .inl ⟨rfl, isCud⟩

/-- The objects that a sweep releases. -/
theorem any_ownedBy {key : Addr} : (world.search kind key).any (kind.ownedBy cud) = true ↔
    kind ≠ .client ∧ world.Valid kind key ∧ world.Belongs kind cud key := by
  rw [Option.any_eq_true]
  constructor
  · rintro ⟨entry, found, owned⟩
    have both := Bool.and_eq_true_iff.mp owned
    refine ⟨?_, ⟨entry, found, both.1⟩, .inr ⟨entry, found, of_decide_eq_true both.2⟩⟩
    rintro rfl
    rw [ObjectKind.ownedBy_client] at owned
    cases owned
  · rintro ⟨notClient, ⟨entry, found, isValid⟩, isCud | ⟨other, alsoFound, isOwner⟩⟩
    · exact absurd isCud.1 notClient
    · rw [found, Option.some.injEq] at alsoFound
      subst alsoFound
      exact ⟨entry, found, Bool.and_eq_true_iff.mpr ⟨isValid, decide_eq_true isOwner⟩⟩

variable (world kind cud)

/-! ## Sweeping a database -/

section FreeAll

variable (free : Addr → kind.Entry → Effect)

theorem freeAll_table : (world.freeAll kind cud free).table kind =
    ((world.table kind).sweep (kind.ownedBy cud) kind.cancelValid
      (fun key entry => [free key entry]) 0 world.trace).1 := by
  cases kind <;> rfl

theorem freeAll_table_of_ne {other : ObjectKind} (different : other ≠ kind) :
    (world.freeAll kind cud free).table other = world.table other := by
  cases kind <;> cases other <;> first | rfl | exact absurd rfl different

theorem freeAll_trace : (world.freeAll kind cud free).trace =
    world.trace ++ (world.table kind).entries.flatMap
      (Table.logged (kind.ownedBy cud) fun key entry => [free key entry]) := by
  have isTrace : ((world.table kind).sweep (kind.ownedBy cud) kind.cancelValid
      (fun key entry => [free key entry]) 0 world.trace).2 = _ :=
    (Table.sweep_eq _ _ _ _ Addr.zero_le).2
  rw [← isTrace]
  cases kind <;> rfl

/-- Valid objects of the client become invalid; all others stay as they are. -/
theorem search_freeAll (key : Addr) : (world.freeAll kind cud free).search kind key =
    (world.search kind key).map fun entry =>
      if kind.ownedBy cud entry then kind.cancelValid entry else entry := by
  rw [search, freeAll_table, Table.find?_sweep _ _ _ _ Addr.zero_le]
  rfl

theorem search_freeAll_of_ne {other : ObjectKind}
    (different : other ≠ kind) (key : Addr) :
    (world.freeAll kind cud free).search other key = world.search other key := by
  rw [search, freeAll_table_of_ne _ _ _ _ different]
  rfl

variable {free}

/-- Each of the valid objects of the client is released once. -/
theorem releases_freeAll
    (isFree : ∀ key entry, (free key entry).released = some (kind, key))
    (key : Addr) : releases kind key (world.freeAll kind cud free).trace =
      releases kind key world.trace +
        if (world.search kind key).any (kind.ownedBy cud) then 1 else 0 := by
  rw [freeAll_trace, releases_append]
  congr 1
  apply Table.countP_logged
  intro other entry
  rw [List.countP_singleton, isFree]
  simp

theorem releases_freeAll_of_ne
    (isFree : ∀ key entry, (free key entry).released = some (kind, key))
    {other : ObjectKind} (different : other ≠ kind) (key : Addr) :
    releases other key (world.freeAll kind cud free).trace =
      releases other key world.trace := by
  rw [freeAll_trace, releases_append, Nat.add_eq_left]
  apply List.countP_eq_zero.mpr
  intro effect member isReleased
  rcases List.mem_flatMap.mp member with ⟨entry, _, isLogged⟩
  rw [Table.logged] at isLogged
  split at isLogged
  · rw [List.mem_singleton.mp isLogged, isFree] at isReleased
    simp only [Option.some.injEq, Prod.mk.injEq, decide_eq_true_eq] at isReleased
    exact different isReleased.1.symm
  · cases isLogged

end FreeAll

/-! ## Changing one entry -/

section ModifyEntry

variable {kind} {key : Addr} (change : kind.Entry → kind.Entry)

theorem search_modifyEntry (other : Addr) :
    (world.modifyEntry kind key change).search kind other =
    if other = key then (world.search kind other).map change
      else world.search kind other := by
  rw [search, modifyEntry, table_setTable, Table.find?_modify]
  split
  · rfl
  · rfl

theorem search_modifyEntry_of_ne {other : ObjectKind}
    (different : other ≠ kind) (otherKey : Addr) :
    (world.modifyEntry kind key change).search other otherKey =
      world.search other otherKey := by
  rw [search, modifyEntry, table_setTable_of_ne _ different]
  rfl

@[simp] theorem modifyEntry_trace :
    (world.modifyEntry kind key change).trace = world.trace := by
  cases kind <;> rfl

end ModifyEntry

/-! ## Touching only one client -/

/-- Nothing but the entry of one client has changed in the databases, and no object
has been released. -/
structure Touches (cud : Addr) (before after : World) : Prop where
  search : ∀ kind key, ¬(kind = .client ∧ key = cud) →
    after.search kind key = before.search kind key
  present : (before.search .client cud).isSome → (after.search .client cud).isSome
  releases : ∀ kind key, releases kind key after.trace = releases kind key before.trace

namespace Touches

variable {cud : Addr} {before middle after : World}

theorem refl (world : World) : Touches cud world world where
  search := fun _ _ _ => rfl
  present := id
  releases := fun _ _ => rfl

theorem trans (first : Touches cud before middle) (second : Touches cud middle after) :
    Touches cud before after where
  search := fun kind key other =>
    (second.search kind key other).trans (first.search kind key other)
  present := second.present ∘ first.present
  releases := fun kind key => (second.releases kind key).trans (first.releases kind key)

theorem of_modifyEntry (world : World) (change : Cud → Cud) :
    Touches cud world (world.modifyEntry .client cud change) where
  search := by
    intro kind key other
    by_cases isClient : kind = .client
    · subst isClient
      rw [search_modifyEntry, if_neg fun isCud => other ⟨rfl, isCud⟩]
    · exact search_modifyEntry_of_ne _ _ isClient _
  present := by
    intro found
    rw [search_modifyEntry, if_pos rfl, Option.isSome_map]
    exact found
  releases := by simp

/-- Only the databases and the trace matter. -/
theorem of_same {world : World} (tables : ∀ kind, after.table kind = world.table kind)
    (trace : ∀ kind key, LuaJack.releases kind key after.trace =
      LuaJack.releases kind key world.trace) : Touches cud world after where
  search := fun kind key _ => by rw [World.search, tables]; rfl
  present := fun found => by rw [World.search, tables]; exact found
  releases := trace

end Touches

theorem touches_unregister (callback : CallbackKind) :
    Touches cud world (world.unregister cud callback) := by
  unfold unregister
  split
  · exact Touches.refl world
  · split
    · exact Touches.refl world
    next entry _ _ =>
      have unref : Touches cud world (world.luaUnref (entry.refs callback)) :=
        .of_same (fun kind => by cases kind <;> rfl) fun _ _ => rfl
      exact unref.trans (.of_modifyEntry _ _)

theorem touches_foldl_unregister (callbacks : List CallbackKind) :
    Touches cud world (callbacks.foldl (·.unregister cud ·) world) := by
  induction callbacks generalizing world with
  | nil => exact Touches.refl world
  | cons callback rest ih => exact (touches_unregister world cud callback).trans (ih _)

theorem touches_deactivate (rc : Int) :
    ∃ code after, deactivate_ cud rc world = (.ok code, after) ∧
      Touches cud world after := by
  rw [deactivate_apply]
  have performed : ∀ code, Touches cud world
      (world.perform (.jackDeactivate cud code)) := by
    intro code
    apply Touches.of_same (fun kind => table_perform world _ kind)
    intro kind key
    rw [perform, releases_append]
    rfl
  split
  · split
    · exact ⟨_, _, rfl, .refl world⟩
    · split
      · exact ⟨_, _, rfl, (performed 0).trans
          (.of_same (fun kind => by cases kind <;> rfl) fun _ _ => rfl)⟩
      · split
        · exact ⟨_, _, rfl, (performed 0).trans
            (.of_same (fun kind => by cases kind <;> rfl) fun _ _ => rfl)⟩
        · exact ⟨_, _, rfl, performed rc⟩
  · exact ⟨_, _, rfl, .refl world⟩

/-! ## Closing a client -/

/-- Release all objects of a client: the calls of `thread_free_all`, `rbuf_free_all` and
`port_close_all`. -/
def freeObjects : World :=
  let world := (world.freeAll .thread cud threadFree).freeAll .ringbuffer cud rbufFree
  world.freeAll .port cud (portClose world)

/-- Each database of objects is swept once. -/
theorem search_freeObjects (notClient : kind ≠ .client) (key : Addr) :
    (world.freeObjects cud).search kind key =
      (world.search kind key).map fun entry =>
        if kind.ownedBy cud entry then kind.cancelValid entry else entry := by
  unfold freeObjects
  cases kind with
  | client => exact absurd rfl notClient
  | port =>
      rw [search_freeAll, search_freeAll_of_ne _ _ _ _ (by decide),
        search_freeAll_of_ne _ _ _ _ (by decide)]
  | ringbuffer =>
      rw [search_freeAll_of_ne _ _ _ _ (by decide), search_freeAll,
        search_freeAll_of_ne _ _ _ _ (by decide)]
  | thread =>
      rw [search_freeAll_of_ne _ _ _ _ (by decide),
        search_freeAll_of_ne _ _ _ _ (by decide), search_freeAll]

theorem search_freeObjects_client (key : Addr) :
    (world.freeObjects cud).search .client key = world.search .client key := by
  unfold freeObjects
  rw [search_freeAll_of_ne _ _ _ _ (by decide), search_freeAll_of_ne _ _ _ _ (by decide),
    search_freeAll_of_ne _ _ _ _ (by decide)]

theorem releases_freeObjects (key : Addr) :
    releases kind key (world.freeObjects cud).trace = releases kind key world.trace +
      if (world.search kind key).any (kind.ownedBy cud) then 1 else 0 := by
  unfold freeObjects
  cases kind with
  | client =>
      rw [releases_freeAll_of_ne _ _ _ (released_portClose _) (by decide),
        releases_freeAll_of_ne _ _ _ released_rbufFree (by decide),
        releases_freeAll_of_ne _ _ _ released_threadFree (by decide)]
      cases world.search .client key with
      | none => rfl
      | some entry => simp [ObjectKind.ownedBy_client]
  | port =>
      rw [releases_freeAll _ _ _ (released_portClose _),
        releases_freeAll_of_ne _ _ _ released_rbufFree (by decide),
        releases_freeAll_of_ne _ _ _ released_threadFree (by decide),
        search_freeAll_of_ne _ _ _ _ (by decide),
        search_freeAll_of_ne _ _ _ _ (by decide)]
  | ringbuffer =>
      rw [releases_freeAll_of_ne _ _ _ (released_portClose _) (by decide),
        releases_freeAll _ _ _ released_rbufFree,
        releases_freeAll_of_ne _ _ _ released_threadFree (by decide),
        search_freeAll_of_ne _ _ _ _ (by decide)]
  | thread =>
      rw [releases_freeAll_of_ne _ _ _ (released_portClose _) (by decide),
        releases_freeAll_of_ne _ _ _ released_rbufFree (by decide),
        releases_freeAll _ _ _ released_threadFree]

/-- Release the references of the callbacks of a client. -/
def unregisterAll :
    World := (do callbackUnregister cud; processUnregister cud : Lua Unit) world |>.2

theorem touches_unregisterAll : Touches cud world (world.unregisterAll cud) :=
  (touches_foldl_unregister world cud _).trans (.of_modifyEntry _ _)

/-- `jack_client_close`, and what remains to be done behind it. -/
def retire (script : Bool) : World :=
  let world := { world.perform (.jackClientClose (some cud) (world.client cud)) with
    activated := world.activated.erase cud }
  let world := if script then world.unregisterAll cud else world
  world.modifyEntry .client cud ObjectKind.client.cancelValid

section Retire

variable (script : Bool)

theorem search_retire {key : Addr} (other : ¬(kind = .client ∧ key = cud)) :
    (world.retire cud script).search kind key = world.search kind key := by
  have unregistered :=
    fun world => (touches_unregisterAll world cud).search kind key other
  have changed := fun world => (Touches.of_modifyEntry world
    ObjectKind.client.cancelValid).search kind key other
  unfold retire
  rw [changed]
  cases script with
  | false => cases kind <;> rfl
  | true =>
      rw [if_pos rfl, unregistered]
      cases kind <;> rfl

theorem not_valid_retire : ¬(world.retire cud script).Valid .client cud := by
  rintro ⟨entry, found, isValid⟩
  rw [retire, search_modifyEntry, if_pos rfl, Option.map_eq_some_iff] at found
  rcases found with ⟨old, _, rfl⟩
  rw [ObjectKind.isValid_cancelValid] at isValid
  cases isValid

theorem releases_retire (key : Addr) : releases kind key (world.retire cud script).trace =
    releases kind key world.trace + if kind = .client ∧ key = cud then 1 else 0 := by
  have closed : releases kind key
      (world.trace ++ [.jackClientClose (some cud) (world.client cud)]) =
      releases kind key world.trace + if kind = .client ∧ key = cud then 1 else 0 := by
    have isClient : (Effect.jackClientClose (some cud) (world.client cud)).released =
        some (kind, key) ↔ kind = .client ∧ key = cud := by
      rw [Effect.released, Option.some.injEq, Prod.mk.injEq,
        @eq_comm _ kind, @eq_comm _ key]
    rw [releases_append, releases, releases, List.countP_singleton]
    simp only [isClient, decide_eq_true_eq]
  unfold retire
  rw [modifyEntry_trace, ← closed]
  cases script with
  | false => rfl
  | true =>
      rw [if_pos rfl, (touches_unregisterAll _ cud).releases]
      rfl

end Retire

end World

/-- The stages of `client_close`. -/
theorem clientClose_apply (cud : Addr) (rc : Int) (script : Bool) (world : World) :
    ∃ code middle, deactivate_ cud rc world = (.ok code, middle) ∧
      World.Touches cud world middle ∧
      clientClose cud rc script world =
        (.ok (), (middle.freeObjects cud).retire cud script) := by
  rcases world.touches_deactivate cud rc with ⟨code, middle, isDeactivated, touches⟩
  refine ⟨code, middle, isDeactivated, touches, ?_⟩
  unfold clientClose
  rw [Lua.bind_apply, isDeactivated]
  cases script with
  | true => rfl
  | false => rfl

/-- What has become of the databases after a client has been closed. -/
structure World.Freed (cud : Addr) (before after : World) : Prop where
  objects : ∀ kind, kind ≠ .client → ∀ key, after.search kind key =
    (before.search kind key).map fun entry =>
      if kind.ownedBy cud entry then kind.cancelValid entry else entry
  clients : ∀ key, key ≠ cud → after.search .client key = before.search .client key
  closed : ¬after.Valid .client cud
  released : ∀ kind key, releases kind key after.trace = releases kind key before.trace +
    (if (before.search kind key).any (kind.ownedBy cud) then 1 else 0) +
    if kind = .client ∧ key = cud then 1 else 0

theorem clientClose_freed (cud : Addr) (rc : Int) (script : Bool) (world : World) :
    ∃ after, clientClose cud rc script world = (.ok (), after) ∧
      World.Freed cud world after := by
  rcases clientClose_apply cud rc script world with ⟨code, middle, _, touches, run⟩
  have same : ∀ kind, kind ≠ .client →
      ∀ key, middle.search kind key = world.search kind key :=
    fun kind notClient key => touches.search kind key fun isCud => notClient isCud.1
  refine ⟨_, run, ?_, ?_, World.not_valid_retire _ _ _, ?_⟩
  · intro kind notClient key
    rw [World.search_retire _ _ _ _ fun isCud => notClient isCud.1,
      World.search_freeObjects _ _ _ notClient, same kind notClient]
  · intro key other
    rw [World.search_retire _ _ _ _ fun isCud =>
      other isCud.2, World.search_freeObjects_client,
      touches.search _ _ fun isCud => other isCud.2]
  · intro kind key
    have isOwned : (middle.search kind key).any (kind.ownedBy cud) =
        (world.search kind key).any (kind.ownedBy cud) := by
      by_cases isClient : kind = .client
      · subst isClient
        have none : ∀ entry : Option Cud, entry.any
            (ObjectKind.client.ownedBy cud) = false := by
          intro entry
          cases entry with
          | none => rfl
          | some entry => exact ObjectKind.ownedBy_client cud entry
        rw [none, none]
      · rw [same kind isClient]
    rw [World.releases_retire, World.releases_freeObjects, touches.releases, isOwned]

namespace World.Freed

variable {cud : Addr} {before after : World} {kind : ObjectKind} {key : Addr}

/-- The objects that belong to others stay as they are. -/
theorem search_of_not_belongs (freed : Freed cud before after)
    (other : ¬before.Belongs kind cud key) :
    after.search kind key = before.search kind key := by
  by_cases isClient : kind = .client
  · subst isClient
    exact freed.clients key fun isCud => other (belongs_client.mpr isCud)
  · rw [freed.objects kind isClient]
    cases found : before.search kind key with
    | none => rfl
    | some entry =>
        have notOwned : ¬kind.ownedBy cud entry := by
          intro owned
          have swept : (before.search kind key).any (kind.ownedBy cud) = true := by
            rw [found]
            exact owned
          exact other (any_ownedBy.mp swept).2.2
        rw [Option.map_some, if_neg notOwned]

/-- The objects that belong to the client are invalid. -/
theorem not_valid_of_belongs (freed : Freed cud before after)
    (belongs : before.Belongs kind cud key) : ¬after.Valid kind key := by
  by_cases isClient : kind = .client
  · subst isClient
    rw [belongs_client.mp belongs]
    exact freed.closed
  · rintro ⟨entry, found, isValid⟩
    rw [freed.objects kind isClient, Option.map_eq_some_iff] at found
    rcases found with ⟨old, wasFound, rfl⟩
    split at isValid
    next owned =>
      rw [ObjectKind.isValid_cancelValid] at isValid
      cases isValid
    next notOwned =>
      have swept := any_ownedBy.mpr ⟨isClient, ⟨old, wasFound, isValid⟩, belongs⟩
      rw [wasFound] at swept
      exact notOwned swept

theorem valid_iff (freed : Freed cud before after) :
    after.Valid kind key ↔ before.Valid kind key ∧ ¬before.Belongs kind cud key := by
  by_cases belongs : before.Belongs kind cud key
  · simp [freed.not_valid_of_belongs belongs, belongs]
  · simp [Valid, freed.search_of_not_belongs belongs, belongs]

theorem releases_of_belongs (freed : Freed cud before after)
    (valid : before.Valid kind key) (belongs : before.Belongs kind cud key) :
    releases kind key after.trace = releases kind key before.trace + 1 := by
  rw [freed.released]
  by_cases isClient : kind = .client
  · have notSwept : ¬(before.search kind key).any (kind.ownedBy cud) = true :=
      fun swept => (any_ownedBy.mp swept).1 isClient
    subst isClient
    rw [if_neg notSwept, if_pos ⟨rfl, belongs_client.mp belongs⟩]
  · rw [if_pos (any_ownedBy.mpr ⟨isClient, valid, belongs⟩),
      if_neg fun isCud => isClient isCud.1]

theorem releases_of_not (freed : Freed cud before after)
    (client : before.Valid .client cud)
    (other : ¬(before.Valid kind key ∧ before.Belongs kind cud key)) :
    releases kind key after.trace = releases kind key before.trace := by
  have notSwept : ¬(before.search kind key).any (kind.ownedBy cud) = true :=
    fun swept => other (any_ownedBy.mp swept).2
  have notCud : ¬(kind = .client ∧ key = cud) := by
    rintro ⟨rfl, rfl⟩
    exact other ⟨client, belongs_client.mpr rfl⟩
  rw [freed.released, if_neg notSwept, if_neg notCud, Nat.add_zero]

end World.Freed

/-- Closing a client cancels the marks of the client and of the objects that belong to
it, releases those among them that were valid, each of them once, leaves all other
objects as they are, and makes the references to its objects invalid. Releases are
counted as calls, whatever `thread_free` does to a thread that could not be created. -/
theorem clientClose_frees_exactly (world : World) (cud : Addr) (rc : Int) (script : Bool)
    (valid : world.Valid .client cud) :
    ∃ after, clientClose cud rc script world = (.ok (), after) ∧
      (∀ kind key, after.Valid kind key ↔ world.Valid kind key ∧
        ¬world.Belongs kind cud key) ∧
      (∀ kind key, world.Valid kind key ∧ world.Belongs kind cud key →
        releases kind key after.trace = releases kind key world.trace + 1) ∧
      (∀ kind key, ¬(world.Valid kind key ∧ world.Belongs kind cud key) →
        releases kind key after.trace = releases kind key world.trace) ∧
      (∀ kind key, ¬world.Belongs kind cud key →
        after.search kind key = world.search kind key) ∧
      (∀ kind key, world.Belongs kind cud key →
        check kind key after = (.error kind.invalidReference, after)) := by
  rcases clientClose_freed cud rc script world with ⟨after, run, freed⟩
  exact ⟨after, run, fun _ _ => freed.valid_iff,
    fun _ _ owned => freed.releases_of_belongs owned.1 owned.2,
    fun _ _ other => freed.releases_of_not valid other,
    fun _ _ other => freed.search_of_not_belongs other,
    fun _ _ belongs => check_eq_error (freed.not_valid_of_belongs belongs)⟩

/-- A client with a ringbuffer. -/
def World.withRingbuffer (cud rud : Addr) : World :=
  (ringbuffer (.plain cud rud) (withClient cud)).2

theorem clientClose_frees_exactly_ringbuffer :
    ∃ after, clientClose 0x601010 0 true (World.withRingbuffer 0x601010 0x602010) =
      (.ok (), after) ∧
      releases .ringbuffer 0x602010 after.trace = 0 + 1 ∧
        ¬after.Valid .ringbuffer 0x602010 := by
  have valid : (World.withRingbuffer 0x601010 0x602010).Valid .client 0x601010 :=
    ⟨_, rfl, rfl⟩
  have owned : (World.withRingbuffer 0x601010 0x602010).Valid .ringbuffer 0x602010 ∧
      (World.withRingbuffer 0x601010 0x602010).Belongs .ringbuffer 0x601010 0x602010 :=
    ⟨⟨_, rfl, rfl⟩, .inr ⟨_, rfl, rfl⟩⟩
  rcases clientClose_frees_exactly _ 0x601010 0 true valid with
    ⟨after, run, validIff, released, _, _, _⟩
  exact ⟨after, run, released _ _ owned, fun still => ((validIff _ _).mp still).2 owned.2⟩

end LuaJack
