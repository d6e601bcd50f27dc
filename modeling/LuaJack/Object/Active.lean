import LuaJack.Object.Identity
import Mathlib.Algebra.Group.Nat.Defs

/-!
# Active clients

The counter of active clients decides whether objects may be created.  It is exact
as long as no active client is activated, no inactive client is deactivated or
closed while another one is active, and JACK deactivates the clients that are closed.
-/

namespace LuaJack

open Atomic

namespace World

/-! ## Functions that do not activate or deactivate clients -/

/-- No client has been activated or deactivated. -/
structure Quiet (before after : World) : Prop where
  mainThread : after.mainThread = before.mainThread
  activeClients : after.activeClients = before.activeClients
  activated : after.activated = before.activated

namespace Quiet

variable {first second third : World}

theorem trans (one : Quiet first second) (two : Quiet second third) :
    Quiet first third where
  mainThread := two.mainThread.trans one.mainThread
  activeClients := two.activeClients.trans one.activeClients
  activated := two.activated.trans one.activated

theorem of_setTable (world : World) (kind : ObjectKind) (table : Table Addr kind.Entry) :
    Quiet world (world.setTable kind table) := by
  cases kind <;> exact ⟨rfl, rfl, rfl⟩

theorem framed (allocated : Option (ObjectKind × Addr)) : Framed allocated Quiet where
  refl := fun _ => ⟨rfl, rfl, rfl⟩
  trans := trans
  elsewhere := fun _ _ _ => ⟨rfl, rfl, rfl⟩
  perform := fun _ _ => ⟨rfl, rfl, rfl⟩
  modifyEntry := fun world kind _ _ _ => of_setTable world kind _
  insert := fun _ _ _ => of_setTable _ _ _
  freeAll := fun world kind _ _ => (of_setTable world kind _).trans ⟨rfl, rfl, rfl⟩

theorem framesReferences : FramesReferences Quiet where
  registry := fun _ _ => ⟨rfl, rfl, rfl⟩
  setRef := fun world _ _ _ => of_setTable world .client _

end Quiet

/-- Apart from its own deactivation, closing a client affects only its own activity. -/
theorem clientClose_quiet (cud : Addr) (rc : Int) (script : Bool) (world : World) :
    Quiet { (deactivate_ cud rc world).2 with
        activated := (deactivate_ cud rc world).2.activated.erase cud }
      (clientClose cud rc script world).2 := by
  have frame := (Quiet.framed none).on fun _ => True
  rcases clientClose_apply cud rc script world with ⟨code, middle, deactivated, _, run⟩
  rw [deactivated]
  have freed := frame.freeObjects (fun _ => trivial) middle cud
  have closed : Quiet { middle with activated := middle.activated.erase cud }
      { (middle.freeObjects cud).perform (.jackClientClose (some cud)
          ((middle.freeObjects cud).client cud)) with
        activated := (middle.freeObjects cud).activated.erase cud } :=
    ⟨freed.mainThread, freed.activeClients, by rw [freed.activated]⟩
  rw [run, retire]
  apply closed.trans
  cases script with
  | false => exact Quiet.of_setTable _ .client _
  | true =>
      refine (frame.unregisterAll Quiet.framesReferences trivial _ cud).trans ?_
      exact Quiet.of_setTable _ .client _

/-- The trace of calls only grows. -/
theorem framed_trace (allocated : Option (ObjectKind × Addr)) :
    Framed allocated fun before after => before.trace <+: after.trace where
  refl := fun _ => List.prefix_rfl
  trans := List.IsPrefix.trans
  elsewhere := fun _ _ _ => List.prefix_rfl
  perform := fun _ _ => List.prefix_append _ _
  modifyEntry := fun world _ _ _ _ => by rw [modifyEntry_trace]
  insert := by
    intro world kind key entry _ _ _
    cases kind <;> exact List.prefix_rfl
  freeAll := by
    intro world kind cud free
    rw [freeAll_trace]
    exact List.prefix_append _ _

end World

/-! ## Counting with a machine word -/

/-- The counter is the number of elements. -/
def Counts (counter : BitVec 64) (set : Finset Addr) : Prop := counter.toNat = set.card

/-- There are fewer objects than addresses. -/
theorem card_lt_of_nonzero {set : Finset Addr} (nonzero : 0 ∉ set) :
    set.card < 2 ^ 64 := by
  have fewer : set.card ≤ ((Finset.range (2 ^ 64)).erase 0).card := by
    apply Finset.card_le_card_of_injOn BitVec.toNat
    · intro key member
      apply Finset.mem_coe.mpr
      apply Finset.mem_erase.mpr
      refine ⟨?_, Finset.mem_range.mpr key.isLt⟩
      intro isZero
      rw [BitVec.eq_of_toNat_eq (isZero.trans BitVec.toNat_zero.symm)] at member
      exact nonzero member
    · exact fun _ _ _ _ same => BitVec.eq_of_toNat_eq same
  rw [Finset.card_erase_of_mem (Finset.mem_range.mpr (by decide)),
    Finset.card_range] at fewer
  omega

namespace Counts

variable {counter : BitVec 64} {set : Finset Addr} {key : Addr}

theorem eq_zero_iff (counts : Counts counter set) : counter = 0 ↔ set = ∅ := by
  rw [← Finset.card_eq_zero, ← counts]
  exact BitVec.toNat_eq.trans Iff.rfl

theorem insert (counts : Counts counter set) (isNew : key ∉ set)
    (nonzero : 0 ∉ Insert.insert key set) :
    Counts (counter + 1) (Insert.insert key set) := by
  have fewer := card_lt_of_nonzero nonzero
  rw [Counts, Finset.card_insert_of_notMem isNew] at *
  rw [BitVec.toNat_add, counts]
  exact Nat.mod_eq_of_lt fewer

theorem erase (counts : Counts counter set) (member : key ∈ set) :
    Counts (counter - 1) (set.erase key) := by
  have positive : 0 < set.card := Finset.card_pos.mpr ⟨key, member⟩
  rw [Counts, Finset.card_erase_of_mem member, ← counts]
  rw [← counts] at positive
  have isLt := counter.isLt
  have isSub : (counter - 1).toNat = (2 ^ 64 - 1 + counter.toNat) % 2 ^ 64 :=
    BitVec.toNat_sub _ _
  omega

/-- Counting something that is not there. -/
theorem not_add (counts : Counts counter set) : ¬Counts (counter + 1) set := by
  intro also
  have isAdd : (counter + 1).toNat = (counter.toNat + 1) % 2 ^ 64 := BitVec.toNat_add _ _
  rw [Counts, ← counts] at also
  omega

theorem not_sub (counts : Counts counter set) : ¬Counts (counter - 1) set := by
  intro also
  have isSub : (counter - 1).toNat = (2 ^ 64 - 1 + counter.toNat) % 2 ^ 64 :=
    BitVec.toNat_sub _ _
  rw [Counts, ← counts] at also
  omega

/-- Missing something that is gone. -/
theorem not_erase (counts : Counts counter set) (member : key ∈ set) :
    ¬Counts counter (set.erase key) := by
  intro also
  have positive : 0 < set.card := Finset.card_pos.mpr ⟨key, member⟩
  rw [Counts, Finset.card_erase_of_mem member, counts] at also
  omega

end Counts

/-! ## What the counter is for -/

namespace World

/-- The counter is exact, and therefore does what it is for. -/
structure Counted (world : World) : Prop where
  counter : Counts world.activeClients world.activated
  creates : (checkcreate world).1 = .ok true ↔ world.activated = ∅
  closes : ∀ cud rc script, cud ∈ world.activated →
    ∃ rest, (clientClose cud rc script world).2.trace =
      world.trace ++ .jackDeactivate cud rc :: rest

/-- What holds of the activity of clients whether the counter is exact or not. -/
structure Sound (world : World) : Prop where
  mainThread : world.mainThread = true
  distinct : world.Distinct
  present : ∀ cud ∈ world.activated, (world.search .client cud).isSome

variable {world : World}

/-- An active client is deactivated by the first call that closes it. -/
theorem clientClose_deactivates (sound : world.Sound)
    (counts : Counts world.activeClients world.activated)
    {cud : Addr} (rc : Int) (script : Bool) (active : cud ∈ world.activated) :
    ∃ rest, (clientClose cud rc script world).2.trace =
      world.trace ++ .jackDeactivate cud rc :: rest := by
  have notZero : world.activeClients ≠ 0 := by
    intro isZero
    rw [counts.eq_zero_iff.mp isZero] at active
    exact Finset.notMem_empty cud active
  rcases clientClose_apply cud rc script world with ⟨code, middle, deactivated, _, run⟩
  have isTrace : middle.trace = world.trace ++ [.jackDeactivate cud rc] := by
    rw [deactivate_apply, if_pos sound.mainThread, if_neg notZero,
      if_neg (not_not_intro active)] at deactivated
    split at deactivated
    next isZero =>
      cases deactivated
      rw [isZero]
      rfl
    next =>
      cases deactivated
      rfl
  have frame := (framed_trace none).on fun _ => True
  have later := frame.trans (frame.freeObjects (fun _ => trivial) middle cud)
    (frame.retire ⟨fun _ _ => List.prefix_rfl,
      fun world _ _ _ => by rw [setRef, modifyEntry_trace]⟩
      (fun _ _ _ => List.prefix_rfl) trivial _ cud script)
  rcases later with ⟨rest, isRest⟩
  refine ⟨rest, ?_⟩
  rw [run, ← isRest, isTrace, List.append_assoc]
  rfl

theorem counted_iff (sound : world.Sound) :
    world.Counted ↔ Counts world.activeClients world.activated := by
  constructor
  · exact Counted.counter
  · intro counts
    refine ⟨counts, ?_, fun _ rc script => clientClose_deactivates sound counts rc script⟩
    rw [checkcreate_apply, if_pos sound.mainThread, ← counts.eq_zero_iff]
    split
    next positive =>
      simp only [Except.ok.injEq, Bool.false_eq_true, false_iff]
      rintro isZero
      rw [isZero] at positive
      exact absurd positive (by decide)
    next notPositive =>
      simp only [true_iff]
      exact BitVec.le_zero_iff.mp (BitVec.not_lt.mp notPositive)

/-- Null is no client. -/
theorem Sound.zero_not_mem (sound : world.Sound) : 0 ∉ world.activated := by
  intro member
  have present := sound.present 0 member
  rw [sound.distinct.nonzero] at present
  cases present

end World

/-! ## What the operations do to the counter -/

section Operations

variable {world : World} {ref : LuaInteger} {cud : Addr} {rc : Int}

theorem clientActivate_of_valid (valid : world.Valid .client ref) :
    (clientActivate ref rc world).2 = (activate_ ref rc world).2 := by
  rw [clientActivate, cudCheck, check_bind_of_valid valid, Lua.bind_apply]
  rcases activate_ ref rc world with ⟨_ | code, after⟩
  · rfl
  · simp only [Lua.ite_apply]
    split <;> rfl

theorem clientDeactivate_of_valid (valid : world.Valid .client ref) :
    (clientDeactivate ref rc world).2 = (deactivate_ ref rc world).2 := by
  rw [clientDeactivate, cudCheck, check_bind_of_valid valid, Lua.bind_apply]
  rcases deactivate_ ref rc world with ⟨_ | code, after⟩
  · rfl
  · simp only [Lua.ite_apply]
    split <;> rfl

/-- A client is activated only while it is inactive, and deactivated or closed only
while it is active, unless no client is. JACK deactivates every active client that is
closed. -/
def Operation.Proper : Operation → World → Prop
  | activate ref _, world => world.Valid .client ref → ref ∉ world.activated
  | deactivate ref _, world =>
      world.Valid .client ref → ref ∈ world.activated ∨ world.activated = ∅
  | clientClose ref rc, world =>
      world.Valid .client ref → ref ∈ world.activated ∧ rc = 0 ∨ world.activated = ∅
  | _, _ => True

/-- What an operation does to the activity of clients. -/
inductive Operation.Acts (world : World) : Operation → World → Prop where
  | activate {ref : LuaInteger} {rc : Int} : world.Valid .client ref →
      Acts world (.activate ref rc) (activate_ ref rc world).2
  | deactivate {ref : LuaInteger} {rc : Int} : world.Valid .client ref →
      Acts world (.deactivate ref rc) (deactivate_ ref rc world).2
  | clientClose {ref : LuaInteger} {rc : Int} : world.Valid .client ref →
      Acts world (.clientClose ref rc) (LuaJack.clientClose ref rc true world).2
  | quiet {operation : Operation} {after : World} : World.Quiet world after →
      operation.Proper world → Acts world operation after

/-- References that are not valid are rejected. -/
theorem acts_perform (operation : Operation) (world : World) :
    operation.Acts world (operation.perform world) := by
  have frame := World.Quiet.framed
  have quiet (isQuiet : operation.setsActivity = false) :
      World.Quiet world (operation.perform world) := by
    apply (frame _).operation _ fun _ => World.Quiet.framesReferences
    intro sets
    rw [isQuiet] at sets
    cases sets
  cases operation with
  | activate ref rc =>
      by_cases valid : world.Valid .client ref
      · rw [Operation.perform, clientActivate_of_valid valid]
        exact .activate valid
      · rw [Operation.perform, clientActivate, cudCheck, check_bind_of_not_valid valid]
        exact .quiet ((frame none).refl world) fun isValid => absurd isValid valid
  | deactivate ref rc =>
      by_cases valid : world.Valid .client ref
      · rw [Operation.perform, clientDeactivate_of_valid valid]
        exact .deactivate valid
      · rw [Operation.perform, clientDeactivate, cudCheck, check_bind_of_not_valid valid]
        exact .quiet ((frame none).refl world) fun isValid => absurd isValid valid
  | clientClose ref rc =>
      by_cases valid : world.Valid .client ref
      · rw [Operation.perform, clientCloseRef, cudCheck, check_bind_of_valid valid]
        exact .clientClose valid
      · rw [Operation.perform, clientCloseRef, cudCheck, check_bind_of_not_valid valid]
        exact .quiet ((frame none).refl world) fun isValid => absurd isValid valid
  | _ => exact .quiet (quiet rfl) trivial

/-- After the operation the main thread is the same, and no clients have become active but
valid ones. -/
structure Activates (before after : World) : Prop where
  mainThread : after.mainThread = before.mainThread
  activated : ∀ cud ∈ after.activated, cud ∈ before.activated ∨ before.Valid .client cud

namespace Activates

theorem of_subset {after : World} (mainThread : after.mainThread = world.mainThread)
    (subset : after.activated ⊆ world.activated) : Activates world after where
  mainThread := mainThread
  activated := fun _ member => .inl (subset member)

theorem activate_ (valid : world.Valid .client cud) :
    Activates world (activate_ cud rc world).2 := by
  rw [activate_apply]
  split
  · split
    · exact of_subset rfl fun _ => id
    · split
      · refine ⟨rfl, ?_⟩
        intro other member
        rcases Finset.mem_insert.mp member with rfl | member
        · exact .inr valid
        · exact .inl member
      · exact of_subset rfl fun _ => id
  · exact of_subset rfl fun _ => id

theorem deactivate_ : Activates world (deactivate_ cud rc world).2 := by
  rw [deactivate_apply]
  split
  · split
    · exact of_subset rfl fun _ => id
    · split
      · exact of_subset rfl fun _ => id
      · split
        · exact of_subset rfl (Finset.erase_subset _ _)
        · exact of_subset rfl fun _ => id
  · exact of_subset rfl fun _ => id

theorem clientClose {script : Bool} :
    Activates world (clientClose cud rc script world).2 := by
  have deactivated : Activates world (LuaJack.deactivate_ cud rc world).2 := deactivate_
  have quiet := World.clientClose_quiet cud rc script world
  refine ⟨quiet.mainThread.trans deactivated.mainThread, ?_⟩
  intro other member
  rw [quiet.activated] at member
  exact deactivated.activated other (Finset.mem_of_mem_erase member)

theorem perform (operation : Operation) (world : World) :
    Activates world (operation.perform world) := by
  have acts := acts_perform operation world
  generalize operation.perform world = after at acts
  cases acts with
  | activate valid => exact activate_ valid
  | deactivate valid => exact deactivate_
  | clientClose valid => exact clientClose
  | quiet quiet proper => exact of_subset quiet.mainThread quiet.activated.subset

end Activates

theorem sound_step (operation : Operation) (before after : World) (sound : before.Sound)
    (performed : session operation before = some after) : after.Sound := by
  have distinct := distinct_step operation before after sound.distinct performed
  rcases session_eq_some.mp performed with ⟨_, rfl⟩
  have extended := extends_perform operation before
  have activates := Activates.perform operation before
  refine ⟨activates.mainThread.trans sound.mainThread, distinct, ?_⟩
  intro cud member
  apply extended.kept
  rcases activates.activated cud member with active | ⟨entry, found, _⟩
  · exact sound.present cud active
  · rw [found]
    rfl

section Counting

variable (sound : world.Sound) (counts : Counts world.activeClients world.activated)
include sound counts

theorem counts_activate_ (valid : world.Valid .client cud) :
    Counts (activate_ cud rc world).2.activeClients (activate_ cud rc world).2.activated ↔
      cud ∉ world.activated := by
  rw [activate_apply, if_pos sound.mainThread]
  split
  next active => exact iff_of_false counts.not_add (not_not_intro active)
  next inactive =>
    split
    · have nonzero : 0 ∉ insert cud world.activated := by
        intro member
        rcases Finset.mem_insert.mp member with isZero | member
        · rcases valid with ⟨entry, found, _⟩
          rw [← isZero, sound.distinct.nonzero] at found
          cases found
        · exact sound.zero_not_mem member
      exact iff_of_true (counts.insert inactive nonzero) inactive
    · exact iff_of_true counts inactive

theorem counts_deactivate_ :
    Counts (deactivate_ cud rc world).2.activeClients
      (deactivate_ cud rc world).2.activated ↔
      cud ∈ world.activated ∨ world.activated = ∅ := by
  rw [deactivate_apply, if_pos sound.mainThread]
  split
  next isZero => exact iff_of_true counts (.inr (counts.eq_zero_iff.mp isZero))
  next notZero =>
    have notEmpty : world.activated ≠ ∅ :=
      fun isEmpty => notZero (counts.eq_zero_iff.mpr isEmpty)
    split
    next inactive => exact iff_of_false counts.not_sub (not_or_intro inactive notEmpty)
    next active =>
      have active := not_not.mp active
      split
      · exact iff_of_true (counts.erase active) (.inl active)
      · exact iff_of_true counts (.inl active)

theorem counts_clientClose {script : Bool} :
    Counts (clientClose cud rc script world).2.activeClients
        (clientClose cud rc script world).2.activated ↔
      cud ∈ world.activated ∧ rc = 0 ∨ world.activated = ∅ := by
  have quiet := World.clientClose_quiet cud rc script world
  rw [quiet.activeClients, quiet.activated, deactivate_apply, if_pos sound.mainThread]
  split
  next isZero =>
    have isEmpty := counts.eq_zero_iff.mp isZero
    apply iff_of_true _ (.inr isEmpty)
    have same : world.activated.erase cud = world.activated := by
      rw [isEmpty]
      rfl
    simp only [same]
    exact counts
  next notZero =>
    have notEmpty : world.activated ≠ ∅ :=
      fun isEmpty => notZero (counts.eq_zero_iff.mpr isEmpty)
    split
    next inactive =>
      apply iff_of_false
      · have same : (world.perform (.jackDeactivate cud 0)).activated.erase cud =
            world.activated :=
          Finset.erase_eq_of_notMem inactive
        simp only [same]
        exact counts.not_sub
      · exact not_or_intro (fun both => inactive both.1) notEmpty
    next active =>
      have active := not_not.mp active
      split
      next isOk =>
        apply iff_of_true _ (.inl ⟨active, isOk⟩)
        simp only [Finset.erase_idem]
        exact counts.erase active
      next fails =>
        exact iff_of_false (counts.not_erase active)
          (not_or_intro (fun both => fails both.2) notEmpty)

/-- A step keeps the counter exact exactly if it is proper. -/
theorem counts_perform (operation : Operation) :
    Counts (operation.perform world).activeClients (operation.perform world).activated ↔
      operation.Proper world := by
  have acts := acts_perform operation world
  generalize operation.perform world = after at acts
  cases acts with
  | activate valid =>
      rw [counts_activate_ sound counts valid]
      exact (imp_iff_right valid).symm
  | deactivate valid =>
      rw [counts_deactivate_ sound counts]
      exact (imp_iff_right valid).symm
  | clientClose valid =>
      rw [counts_clientClose sound counts]
      exact (imp_iff_right valid).symm
  | quiet quiet proper =>
      rw [quiet.activeClients, quiet.activated]
      exact iff_of_true counts proper

end Counting

end Operations

/-- All worlds that a session reaches are counted exactly if all of its steps are
proper. -/
theorem counted_iff_proper (operations : List Operation) (world : World)
    (run : session.run operations World.initial = some world) :
    (∀ first second reached, operations = first ++ second →
      session.run first World.initial = some reached → reached.Counted) ↔
      session.Along Operation.Proper operations World.initial := by
  have sound : World.initial.Sound :=
    ⟨rfl, World.distinct_initial, fun _ member => by cases member⟩
  apply Machine.all_reached_iff_along sound_step _ sound _ run
  · intro operation before after sound counted performed
    rw [World.counted_iff (sound_step operation before after sound performed)]
    rcases session_eq_some.mp performed with ⟨_, rfl⟩
    exact counts_perform sound counted.counter operation
  · exact (World.counted_iff sound).mpr rfl

/-- A client is opened, activated and closed. -/
theorem counted_iff_proper_closed :
    ∃ world, session.run [.create (.clientOpen (.plain 0x601010)), .activate 0x601010 0,
      .clientClose 0x601010 0] World.initial = some world ∧ world.Counted := by
  refine ⟨_, rfl, ?_⟩
  apply (counted_iff_proper
    [.create (.clientOpen (.plain 0x601010)), .activate 0x601010 0,
    .clientClose 0x601010 0] _ rfl).mpr _ _ [] _ (List.append_nil _).symm rfl
  refine ⟨trivial, ?_⟩
  rintro _ ⟨⟩
  refine ⟨fun _ => by decide, ?_⟩
  rintro _ ⟨⟩
  refine ⟨fun _ => .inl ⟨by decide, rfl⟩, fun _ _ => trivial⟩

/-- A client that is activated twice is counted twice. -/
theorem not_always_counted : ¬∀ operations world,
    session.run operations World.initial = some world → world.Counted := by
  intro always
  have counted := always [.create (.clientOpen (.plain 0x601010)), .activate 0x601010 0,
    .activate 0x601010 0] _ rfl
  have wrong := counted.counter
  revert wrong
  unfold Counts
  decide

end LuaJack
