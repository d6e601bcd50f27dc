import LuaJack.Object.Identity
import LuaJack.Object.Process
import Mathlib.Algebra.Order.Group.Multiset

/-!
# Creations that fail

A creation that fails has to give back what it has acquired: its entry must not stay
valid, and what it has registered in JACK must be unregistered.  Otherwise the closing
of the client releases the half-created object once more.
-/

namespace LuaJack

open Atomic

namespace Process

/-- The databases and what is registered in JACK are as they were. -/
structure Unchanged (before after : Process) : Prop where
  tables : ∀ kind, after.world.table kind = before.world.table kind
  jackObjects : after.jackObjects = before.jackObjects

/-- There are no new valid objects, and nothing new is registered in JACK. -/
structure Unwound (before after : Process) : Prop where
  valid : ∀ kind key, after.world.Valid kind key → before.world.Valid kind key
  jackObjects : after.jackObjects ≤ before.jackObjects

/-- Nothing is left of a failed creation: no valid object, nothing in JACK, and no client
that is closed later releases anything for an object that has not been valid before,
unless its key is that of an object created since. -/
structure Clean (before after : Process) : Prop extends Unwound before after where
  released : ∀ happenings later, life.run happenings after = some later →
    ∀ kind key, ¬before.world.Valid kind key →
      (∀ happening ∈ happenings, happening.resolved.allocated ≠ some (kind, key)) →
      ∀ ref rc, releases kind key (clientCloseRef ref rc later.world).2.trace =
        releases kind key later.world.trace

/-- The process with another entry. -/
def insertEntry (process : Process) (kind : ObjectKind)
    (key : Addr) (entry : kind.Entry) : Process :=
  { process with
    world := process.world.setTable kind ((process.world.table kind).insert key entry) }

variable {before middle after : Process}

theorem Unchanged.refl (process : Process) : Unchanged process process where
  tables := fun _ => rfl
  jackObjects := rfl

theorem Unchanged.trans (first : Unchanged before middle)
    (second : Unchanged middle after) :
    Unchanged before after where
  tables := fun kind => (second.tables kind).trans (first.tables kind)
  jackObjects := second.jackObjects.trans first.jackObjects

theorem Unwound.of_tables
    (tables : ∀ kind, after.world.table kind = before.world.table kind)
    (jackObjects : after.jackObjects ≤ before.jackObjects) : Unwound before after where
  valid := by
    intro kind key valid
    cases valid with
    | intro entry found =>
        rw [World.search, tables] at found
        exact ⟨entry, found⟩
  jackObjects := jackObjects

theorem Unchanged.unwound (unchanged : Unchanged before after) : Unwound before after :=
  .of_tables unchanged.tables unchanged.jackObjects.le

theorem Unchanged.unwound_trans (first : Unchanged before middle)
    (second : Unwound middle after) :
    Unwound before after where
  valid := fun kind key valid => first.unwound.valid kind key
    (second.valid kind key valid)
  jackObjects := second.jackObjects.trans first.jackObjects.le

/-- An object that is not valid becomes valid only by being created. -/
theorem not_valid_of_run {kind : ObjectKind} {key : Addr} {happenings : List Happening}
    (invalid : ¬before.world.Valid kind key)
    (run : life.run happenings before = some after)
    (other : ∀ happening ∈ happenings, happening.resolved.allocated ≠ some (kind, key)) :
    ¬after.world.Valid kind key := by
  induction happenings generalizing before with
  | nil =>
      cases run
      exact invalid
  | cons happening rest ih =>
      rcases Machine.run_cons.mp run with ⟨next, performed, run⟩
      have isNext := (session_eq_some.mp (session_of_life performed)).2
      apply ih _ run fun later member => other later (List.mem_cons_of_mem _ member)
      intro valid
      rw [← isNext] at valid
      have extended := extends_perform happening.resolved before.world
      cases found : before.world.search kind key with
      | some entry =>
          exact invalid (extended.valid kind key (by rw [found]; rfl) valid)
      | none =>
          apply other happening List.mem_cons_self
          apply extended.new kind key found
          cases valid with
          | intro entry both =>
              rw [both.1]
              rfl

/-- The closing of a client releases only valid objects. -/
theorem releases_clientCloseRef {world : World} {kind : ObjectKind} {key : Addr}
    (invalid : ¬world.Valid kind key) (ref : LuaInteger) (rc : Int) :
    releases kind key (clientCloseRef ref rc world).2.trace =
      releases kind key world.trace := by
  by_cases valid : world.Valid .client ref
  · rw [clientCloseRef, cudCheck, check_bind_of_valid valid]
    cases clientClose_freed ref rc true world with
    | intro after both =>
        rw [both.1]
        exact both.2.releases_of_not valid fun owned => invalid owned.1
  · rw [clientCloseRef, cudCheck, check_bind_of_not_valid valid]

theorem Unwound.clean (unwound : Unwound before after) : Clean before after where
  toUnwound := unwound
  released := by
    intro happenings later run kind key invalid other ref rc
    apply releases_clientCloseRef
    exact not_valid_of_run (fun valid => invalid (unwound.valid kind key valid)) run other

end Process

/-! ## Functions that unwind -/

/-- The function returns an integer, or leaves nothing new behind. -/
def Proc.Unwinds (function : Proc (Option LuaInteger)) : Prop :=
  ∀ before process, Process.Unchanged before process →
    (∃ ref after, function process = (.ok (some ref), after)) ∨
      Process.Unwound before (function process).2

/-- The answer is no integer. -/
def Failed (answer : Except String (Option LuaInteger)) :
    Prop := ∀ ref, answer ≠ .ok (some ref)

namespace Proc

open Process

variable {α : Type}

theorem unwinds_error (message : String) :
    Unwinds (Fallible.error message : Proc (Option LuaInteger)) :=
  fun _ _ unchanged => .inr unchanged.unwound

theorem unwinds_none : Unwinds (pure none) := fun _ _ unchanged => .inr unchanged.unwound

theorem unwinds_bind {function : Proc α} {rest : α → Proc (Option LuaInteger)}
    (quiet : function.Respects Unchanged) (unwinds : ∀ value, Unwinds (rest value)) :
    Unwinds (function >>= rest) := by
  intro before process unchanged
  have unchanged := unchanged.trans (quiet process)
  rw [Fallible.bind_apply]
  cases result : function process with
  | mk answer middle =>
      rw [result] at unchanged
      cases answer with
      | ok value => exact unwinds value before middle unchanged
      | error message => exact .inr unchanged.unwound

/-- A function that does not change the databases. -/
theorem respects_lift {function : Lua α}
    (quiet : function.Respects fun before after => ∀ kind, after.table kind =
      before.table kind) :
    (lift function).Respects Unchanged :=
  fun process => ⟨quiet process.world, rfl⟩

/-- Functions that touch no database. -/
theorem framed_tables : FramedOn (fun _ => False) none
    fun before after : World => ∀ kind, after.table kind = before.table kind where
  refl := fun _ _ => rfl
  trans := fun one two kind => (two kind).trans (one kind)
  elsewhere := fun _ _ _ kind => by cases kind <;> rfl
  perform := fun world effect kind => world.table_perform effect kind
  modifyEntry := fun _ _ _ _ isTouched => isTouched.elim
  insert := fun isTouched => isTouched.elim
  freeAll := fun _ _ _ _ isTouched => isTouched.elim

theorem quiet_checkcreate : (lift checkcreate).Respects Unchanged :=
  respects_lift framed_tables.respects_checkcreate

theorem quiet_cudCheck (ref : LuaInteger) : (lift (cudCheck ref)).Respects Unchanged :=
  respects_lift (framed_tables.respects_check .client ref)

theorem quiet_ofExcept (answer : Except String α) :
    (lift (Lua.ofExcept answer)).Respects Unchanged :=
  respects_lift (framed_tables.respects_ofExcept answer)

theorem unwinds_checkcreate {body : Proc (Option LuaInteger)} (unwinds : Unwinds body) :
    Unwinds (do if ← lift checkcreate then body else return none) := by
  apply unwinds_bind quiet_checkcreate
  intro allowed
  cases allowed with
  | true => exact unwinds
  | false => exact unwinds_none

/-- What the allocation of an entry does to the databases. -/
theorem new_cases (kind : ObjectKind) (malloc : Option Addr)
    (entry : kind.Entry) (world : World) :
    (∃ after, new kind malloc entry world = (.ok none, after) ∧
      ∀ other, after.table other = world.table other) ∨
    ∃ key, malloc = some key ∧ world.search kind key = none ∧
      new kind malloc entry world =
      (.ok (some key), world.setTable kind ((world.table kind).insert key entry)) := by
  unfold new
  cases malloc with
  | none => exact .inl ⟨world, rfl, fun _ => rfl⟩
  | some key =>
      cases found : world.search kind key with
      | none =>
          simp only [Lua.asks_bind, found]
          exact .inr ⟨key, rfl, found, rfl⟩
      | some old =>
          simp only [Lua.asks_bind, found]
          exact .inl ⟨_, rfl, world.table_luajackError unexpectedError⟩

theorem cudNew_cases (malloc : Option Addr) (process : Process) :
    (∃ after, cudNew malloc process = (.ok none, after) ∧ Unchanged process after ∧
      after.fifo = process.fifo) ∨
    ∃ key, process.world.search .client key = none ∧
      cudNew malloc process = (.ok (some key),
      (process.insertEntry .client key Cud.new).cudFifoInit key) := by
  cases new_cases .client malloc Cud.new process.world with
  | inl failed =>
      rcases failed with ⟨after, isNew, tables⟩
      refine .inl ⟨{ process with world := after }, ?_, ⟨tables, rfl⟩, rfl⟩
      rw [cudNew, Fallible.bind_of_ok (lift_of_ok isNew)]
      rfl
  | inr created =>
      rcases created with ⟨key, _, absent, isNew⟩
      exact .inr ⟨key, absent, Fallible.bind_of_ok (lift_of_ok isNew)⟩

theorem pudNew_cases (malloc : Option Addr) (cud : Addr) (process : Process) :
    (∃ after, pudNew malloc cud process = (.ok none, after) ∧ Unchanged process after ∧
      after.fifo = process.fifo) ∨
    ∃ key, process.world.search .port key = none ∧
      pudNew malloc cud process = (.ok (some key),
      (process.insertEntry .port key (Pud.new cud)).cudFifoInsert cud key) := by
  cases new_cases .port malloc (Pud.new cud) process.world with
  | inl failed =>
      rcases failed with ⟨after, isNew, tables⟩
      refine .inl ⟨{ process with world := after }, ?_, ⟨tables, rfl⟩, rfl⟩
      rw [pudNew, Fallible.bind_of_ok (lift_of_ok isNew)]
      rfl
  | inr created =>
      rcases created with ⟨key, _, absent, isNew⟩
      exact .inr ⟨key, absent, Fallible.bind_of_ok (lift_of_ok isNew)⟩

/-- A client without an entry is closed in JACK. -/
theorem clientOpen_unwinds (call : ClientOpen) : Unwinds (clientOpen call) := by
  apply unwinds_checkcreate
  cases call.name.toString? with
  | none => exact unwinds_error _
  | some name =>
      apply unwinds_bind (quiet_ofExcept _)
      intro request before process unchanged
      rw [Fallible.bind_apply, jackClientOpen_apply]
      cases call.jackClientOpen request with
      | error status => exact .inr unchanged.unwound
      | ok client =>
          dsimp only
          cases cudNew_cases call.malloc (process.registerJack (.client client)) with
          | inr created =>
              rcases created with ⟨key, _, isNew⟩
              rw [Fallible.bind_of_ok isNew]
              exact .inl ⟨key, _, rfl⟩
          | inl failed =>
              rcases failed with ⟨after, isNew, same, _⟩
              rw [Fallible.bind_of_ok isNew]
              have remaining : after.jackObjects.filter
                  (fun object => object.handle ≠ client) ≤
                  before.jackObjects := by
                rw [same.jackObjects, registerJack,
                  Multiset.filter_cons_of_neg _ (by simp [JackObject.handle]),
                    unchanged.jackObjects]
                exact Multiset.filter_le _ _
              refine .inr (.of_tables ?_ remaining)
              intro kind
              have isTable : (after.world.perform (.jackClientClose none client)).table
                  kind = after.world.table kind := World.table_perform _ _ kind
              exact isTable.trans ((same.tables kind).trans (unchanged.tables kind))

/-- A port without an entry is unregistered in JACK. -/
theorem portRegister_unwinds (flags : BitVec 64) (call : PortRegister) :
    Unwinds (portRegister flags call) := by
  apply unwinds_checkcreate
  apply unwinds_bind (quiet_cudCheck _)
  intro cud
  apply unwinds_bind (quiet_ofExcept _)
  intro name
  apply unwinds_bind (respects_lift (framed_tables.respects_asks _))
  intro client before process unchanged
  rw [Fallible.bind_apply, jackPortRegister_apply]
  cases call.jackPortRegister (portRequest client name flags call.options) with
  | none => exact .inr unchanged.unwound
  | some port =>
      dsimp only
      cases pudNew_cases call.malloc cud (process.registerJack (.port _ port)) with
      | inr created =>
          rcases created with ⟨key, _, isNew⟩
          rw [Fallible.bind_of_ok isNew]
          exact .inl ⟨key, _, rfl⟩
      | inl failed =>
          rcases failed with ⟨after, isNew, same, _⟩
          rw [Fallible.bind_of_ok isNew]
          have remaining : after.jackObjects.erase (.port client port) =
              before.jackObjects := by
            rw [same.jackObjects, ← unchanged.jackObjects]
            exact Multiset.erase_cons_head _ _
          refine .inr (.of_tables ?_ remaining.le)
          intro kind
          have isTable : (after.world.perform
              (.jackPortUnregister none client port)).table kind =
              after.world.table kind := World.table_perform _ _ kind
          exact isTable.trans ((same.tables kind).trans (unchanged.tables kind))

end Proc

/-- Cancelling the mark of an entry makes the object invalid. -/
theorem World.not_valid_cancelled (world : World) (kind : ObjectKind) (key : Addr) :
    ¬(world.modifyEntry kind key kind.cancelValid).Valid kind key := by
  intro valid
  cases valid with
  | intro entry both =>
      rw [search_modifyEntry, if_pos rfl, Option.map_eq_some_iff] at both
      rcases both with ⟨⟨old, _, rfl⟩, isValid⟩
      rw [ObjectKind.isValid_cancelValid] at isValid
      cases isValid

/-- The entry of a new object, after its members have been assigned. -/
theorem World.search_created {world : World} {kind : ObjectKind} {key : Addr}
    (absent : world.search kind key = none) (entry : kind.Entry)
    (change : kind.Entry → kind.Entry) (other : Addr) :
    ((world.setTable kind ((world.table kind).insert key entry)).modifyEntry
      kind key change).search
      kind other = if other = key then some (change entry)
        else world.search kind other := by
  rw [search_modifyEntry, search, table_setTable, Table.find?_insert absent]
  by_cases isKey : other = key
  · simp [isKey]
  · simp [isKey, search]

/-- The new entry when it is marked as invalid. -/
theorem World.search_cancelled {world created : World} {kind : ObjectKind} {key : Addr}
    {entry : kind.Entry} (found : ∀ other, created.search kind other =
      if other = key then some entry else world.search kind other) (other : Addr) :
    (created.modifyEntry kind key kind.cancelValid).search kind other =
      if other = key then some (kind.cancelValid entry) else world.search kind other := by
  rw [search_modifyEntry, found]
  by_cases isKey : other = key
  · simp [isKey]
  · simp [isKey]

namespace Proc

open Process

theorem quiet_rbufPipe (call : RingbufferCall) (answers : PipeAnswers) :
    (rbufPipe call answers).Respects Unchanged := by
  intro process
  unfold rbufPipe syncpipeNew
  split
  · cases answers.pipe with
    | none => exact .refl process
    | some pipefd =>
        by_cases failed : answers.setfl.1 + answers.setfl.2 < 0
        · simp only [failed, if_true]
          exact ⟨fun _ => rfl, rfl⟩
        · simp only [failed, if_false]
          exact ⟨fun _ => rfl, rfl⟩
  · exact .refl process

/-- An entry that is not valid does no harm. -/
theorem unwound_of_not_valid {before after : Process} {kind : ObjectKind} {key : Addr}
    (extended : Extends (some (kind, key)) before.world after.world)
    (invalid : ¬after.world.Valid kind key)
    (jackObjects : after.jackObjects ≤ before.jackObjects) :
    Unwound before after where
  valid := by
    intro other otherKey valid
    cases found : before.world.search other otherKey with
    | some entry => exact extended.valid other otherKey (by rw [found]; rfl) valid
    | none =>
        have present : (after.world.search other otherKey).isSome := by
          cases valid with
          | intro entry both =>
              rw [both.1]
              rfl
        have isNew := extended.new other otherKey found present
        cases isNew
        exact absurd valid invalid
  jackObjects := jackObjects

/-- An entry is inserted, changed and then marked as invalid. -/
theorem extends_cancelled {kind : ObjectKind} {key : Addr} {entry : kind.Entry}
    {change : kind.Entry → kind.Entry} {world created : World}
    (absent : world.search kind key = none)
    (keeps : ∀ entry, kind.isValid (change entry) = true → kind.isValid entry = true)
    (same : ∀ other, created.table other = ((world.setTable kind
      ((world.table kind).insert key entry)).modifyEntry kind key change).table other) :
    Extends (some (kind, key)) world (created.modifyEntry kind key kind.cancelValid) := by
  apply Extends.trans (Extends.of_insert absent)
  apply Extends.trans (Extends.of_modifyEntry _ keeps)
  apply Extends.trans (Extends.of_tables same)
  exact Extends.of_modifyEntry created (ObjectKind.harmless_cancelValid kind).isValid

/-- A ringbuffer without memory is marked as invalid. -/
theorem ringbuffer_unwinds (call : RingbufferCall) (answers : PipeAnswers) :
    Unwinds (ringbuffer call answers) := by
  apply unwinds_checkcreate
  apply unwinds_bind (quiet_cudCheck _)
  intro cud
  apply unwinds_bind (quiet_ofExcept _)
  intro size
  unfold rbufNew
  simp only [bind_assoc]
  apply unwinds_bind (quiet_rbufPipe call answers)
  intro pipefd before process unchanged
  cases new_cases .ringbuffer call.malloc Rud.new process.world with
  | inl failed =>
      rcases failed with ⟨after, isNew, tables⟩
      rw [Fallible.bind_of_ok (lift_of_ok isNew)]
      refine .inr (.of_tables ?_ unchanged.jackObjects.le)
      exact fun kind => (tables kind).trans (unchanged.tables kind)
  | inr created =>
      rcases created with ⟨key, _, absent, isNew⟩
      rw [Fallible.bind_of_ok (lift_of_ok isNew)]
      cases call.ringbufferNew size call.mlock.toBoolean with
      | some rbuf => exact .inl ⟨_, _, rfl⟩
      | none =>
          have cancelled {created : World}
              (same : ∀ kind, created.table kind = World.table
              ((process.world.setTable .ringbuffer
                ((process.world.table .ringbuffer).insert key Rud.new)).modifyEntry
                  .ringbuffer key
                fun rud => { rud with cud, pipefd, rbuf := none }) kind) {after : Process}
              (isAfter : after.world =
                created.modifyEntry .ringbuffer key ObjectKind.ringbuffer.cancelValid)
              (jackObjects : after.jackObjects = process.jackObjects) :
              Unwound before after := by
            apply unchanged.unwound_trans
            apply unwound_of_not_valid
            · rw [isAfter]
              apply extends_cancelled absent _ same
              exact fun _ => id
            · rw [isAfter]
              exact World.not_valid_cancelled _ _ _
            · exact jackObjects.le
          by_cases usepipe : call.usepipe.toBoolean = true
          · simp only [usepipe, if_true]
            exact .inr (cancelled (World.table_perform _ _) rfl rfl)
          · simp only [usepipe]
            exact .inr (cancelled (fun _ => rfl) rfl rfl)

end Proc

/-! ## Threads -/

/-- The creation of a thread comes to the point where its entry exists. -/
structure ThreadCreate.Reaches (call : ThreadCreate)
    (world : World) (key : Addr) (state : Handle) :
    Prop where
  mainThread : world.mainThread = true
  inactive : ¬world.activeClients > 0
  client : world.Valid .client call.ref
  script : ∃ script, call.script = .string script
  newstate : call.newstate = some state
  loadchunk : call.loadchunk = .ok ()
  xmove : xmove 1 call.arguments = .ok ()
  malloc : call.malloc = some key
  absent : world.search .thread key = none

/-- The entry is followed by all that the thread needs. -/
def ThreadCreate.Starts (call : ThreadCreate) : Prop :=
  call.mutexInit = true ∧ call.condInit = true ∧ ∃ thread, call.createThread = .ok thread

/-- What the creation gives back when it fails is all that it has acquired: a thread must
not fail behind the creation of its entry. -/
def Creation.Unwinds (world : World) : Creation → Prop
  | threadCreate call => ∀ key state, call.Reaches world key state → call.Starts
  | _ => True

/-- Objects are created in the main thread, while no client is active. -/
theorem checkcreate_of_not_allowed {world : World}
    (refused : ¬(world.mainThread = true ∧ ¬world.activeClients > 0)) :
    ∃ after, checkcreate world = (.ok false, after) ∧
      ∀ kind, after.table kind = world.table kind := by
  rw [checkcreate_apply]
  split
  next isMain =>
    split
    next => exact ⟨_, rfl, world.table_luajackError _⟩
    next inactive => exact absurd ⟨isMain, inactive⟩ refused
  next => exact ⟨_, rfl, world.table_luajackError _⟩

theorem Proc.lift_checkcreate_bind_of_not_allowed {α : Type} {process : Process}
    (refused : ¬(process.world.mainThread = true ∧ ¬process.world.activeClients > 0))
    (rest : Bool → Proc α) :
    ∃ world, (Proc.lift checkcreate >>= rest) process =
      rest false { process with world } ∧
      ∀ kind, world.table kind = process.world.table kind := by
  rcases checkcreate_of_not_allowed refused with ⟨world, isRefused, tables⟩
  exact ⟨world, Fallible.bind_of_ok (Proc.lift_of_ok isRefused), tables⟩

section Thread

variable {call : ThreadCreate} {world : World} {key : Addr} {state : Handle}

/-- The world with the entry of the thread. -/
def World.withTud (world : World) (key cud : Addr) (state : Handle) : World :=
  (world.setTable .thread ((world.table .thread).insert key Tud.new)).modifyEntry
    .thread key
    fun tud => { tud with cud, state := some state }

theorem threadCreate_of_reaches (reaches : call.Reaches world key state) :
    threadCreate call world =
      (do return some (← threadStart key state call) : Lua (Option LuaInteger))
        (world.withTud key call.ref state) := by
  have allowed : checkcreate world = (.ok true, world) :=
    checkcreate_eq_true.mpr ⟨⟨reaches.mainThread, reaches.inactive⟩, rfl⟩
  have allocated : new .thread call.malloc Tud.new world =
      (.ok (some key), world.setTable .thread
        ((world.table .thread).insert key Tud.new)) :=
    new_eq_some.mpr ⟨reaches.malloc, reaches.absent, rfl⟩
  cases reaches.script with
  | intro script isScript =>
      rw [threadCreate, Lua.bind_apply, allowed]
      simp only [if_true, cudCheck]
      rw [check_bind_of_valid reaches.client, isScript, reaches.newstate]
      simp only [loadchunk, reaches.loadchunk, reaches.xmove, Lua.ofExcept, pure_bind]
      rw [Lua.bind_apply, allocated]
      rfl

/-- What happens behind the creation of the entry. -/
theorem threadStart_cases (key : Addr) (state : Handle)
    (call : ThreadCreate) (world : World) :
    (call.Starts ∧ ∃ ref after, threadStart key state call world = (.ok ref, after)) ∨
      (¬call.Starts ∧ ∃ message, threadStart key state call world =
        (.error message, world.perform (.luaClose state))) := by
  unfold threadStart
  cases isMutex : call.mutexInit with
  | false =>
      right
      constructor
      · intro starts
        rw [ThreadCreate.Starts, isMutex] at starts
        cases starts.1
      · exact ⟨_, rfl⟩
  | true =>
      cases isCond : call.condInit with
      | false =>
          right
          constructor
          · intro starts
            rw [ThreadCreate.Starts, isCond] at starts
            cases starts.2.1
          · exact ⟨_, rfl⟩
      | true =>
          cases isThread : call.createThread with
          | ok thread => exact .inl ⟨⟨isMutex, isCond, thread, isThread⟩, _, _, rfl⟩
          | error rc =>
              right
              constructor
              · intro starts
                cases starts.2.2 with
                | intro thread isOk =>
                    rw [isThread] at isOk
                    cases isOk
              · exact ⟨_, rfl⟩

/-- The creation comes to the point where the entry exists, or changes no database. -/
theorem threadCreate_cases (call : ThreadCreate) (world : World) :
    (∃ key state, call.Reaches world key state) ∨
      ∀ kind, (threadCreate call world).2.table kind = world.table kind := by
  by_cases allowed : world.mainThread = true ∧ ¬world.activeClients > 0
  · have isAllowed : checkcreate world = (.ok true, world) :=
      checkcreate_eq_true.mpr ⟨allowed, rfl⟩
    rw [threadCreate, Lua.bind_apply, isAllowed]
    simp only [if_true, cudCheck]
    by_cases valid : world.Valid .client call.ref
    · rw [check_bind_of_valid valid]
      cases isScript : call.script with
      | string script =>
          cases isState : call.newstate with
          | none => exact .inr fun _ => rfl
          | some state =>
              cases isLoaded : call.loadchunk with
              | error message =>
                  simp only [loadchunk, isLoaded]
                  exact .inr (world.table_perform _)
              | ok loaded =>
                  cases isMoved : xmove 1 call.arguments with
                  | error message =>
                      simp only [loadchunk, isLoaded]
                      exact .inr fun _ => rfl
                  | ok moved =>
                      simp only [loadchunk, isLoaded, Lua.ofExcept, pure_bind]
                      cases Proc.new_cases .thread call.malloc Tud.new world with
                      | inl failed =>
                          rcases failed with ⟨after, isNew, tables⟩
                          right
                          intro kind
                          rw [Lua.bind_apply, isNew]
                          exact (after.table_perform _ kind).trans (tables kind)
                      | inr created =>
                          rcases created with ⟨key, isMalloc, absent, _⟩
                          exact .inl ⟨key, state, allowed.1, allowed.2,
                            valid, ⟨script, isScript⟩,
                            isState, isLoaded, isMoved, isMalloc, absent⟩
      | _ => exact .inr fun _ => rfl
    · rw [check_bind_of_not_valid valid]
      exact .inr fun _ => rfl
  · right
    intro kind
    cases checkcreate_of_not_allowed allowed with
    | intro after refused =>
        rw [threadCreate, Lua.bind_apply, refused.1]
        exact refused.2 kind

end Thread

/-! ## Exactly the creations that unwind -/

open Process

/-- A creation that fails leaves nothing behind exactly if it is no creation of a thread
that fails behind the creation of its entry. -/
theorem create_clean_iff (answers : PipeAnswers)
    (creation : Creation) (process : Process) :
    (Failed (Proc.create answers creation process).1 →
      Clean process (Proc.create answers creation process).2) ↔
        creation.Unwinds process.world := by
  have always {function : Proc (Option LuaInteger)} (unwinds : function.Unwinds) :
      Failed (function process).1 → Clean process (function process).2 := by
    intro failed
    cases unwinds process process (.refl process) with
    | inl returned =>
        rcases returned with ⟨ref, after, isReturned⟩
        rw [isReturned] at failed
        exact absurd rfl (failed ref)
    | inr unwound => exact unwound.clean
  cases creation with
  | clientOpen call =>
      exact iff_of_true (always (Proc.clientOpen_unwinds call)) trivial
  | inputAudioPort call =>
      exact iff_of_true (always (Proc.portRegister_unwinds _ call)) trivial
  | outputAudioPort call =>
      exact iff_of_true (always (Proc.portRegister_unwinds _ call)) trivial
  | inputMidiPort call =>
      exact iff_of_true (always (Proc.portRegister_unwinds _ call)) trivial
  | outputMidiPort call =>
      exact iff_of_true (always (Proc.portRegister_unwinds _ call)) trivial
  | ringbuffer call =>
      exact iff_of_true (always (Proc.ringbuffer_unwinds call answers)) trivial
  | threadCreate call =>
      constructor
      · intro clean key state reaches
        cases threadStart_cases key state call
          (process.world.withTud key call.ref state) with
        | inl starts => exact starts.1
        | inr stops =>
            rcases stops with ⟨_, message, isError⟩
            have run : threadCreate call process.world = (.error message,
                (process.world.withTud key call.ref state).perform
                  (.luaClose state)) := by
              rw [threadCreate_of_reaches reaches, Lua.bind_apply, isError]
            have valid := (clean ?_).valid .thread key ?_
            · cases valid with
              | intro entry both =>
                  rw [reaches.absent] at both
                  cases both.1
            · intro ref returned
              rw [Proc.create, Proc.lift, run] at returned
              cases returned
            · rw [Proc.create, Proc.lift, run]
              have isValid : (process.world.withTud key call.ref state).Valid
                  .thread key :=
                World.valid_modifyEntry (World.valid_insert reaches.absent rfl) fun _ =>
                  rfl
              cases isValid with
              | intro entry both => exact ⟨entry, both⟩
      · intro unwinds failed
        cases threadCreate_cases call process.world with
        | inl reached =>
            rcases reached with ⟨key, state, reaches⟩
            cases threadStart_cases key state call
              (process.world.withTud key call.ref state) with
            | inl starts =>
                rcases starts with ⟨_, ref, after, isStarted⟩
                have run : threadCreate call process.world = (.ok (some ref), after) := by
                  rw [threadCreate_of_reaches reaches, Lua.bind_apply, isStarted]
                  rfl
                rw [Proc.create, Proc.lift, run] at failed
                exact absurd rfl (failed ref)
            | inr stops => exact absurd (unwinds key state reaches) stops.1
        | inr tables =>
            apply Unwound.clean
            exact .of_tables tables (le_refl _)

/-- A script for a thread that loads, with a lock that cannot be initialized. -/
def ThreadCreate.withoutMutex (ref : LuaInteger) (key : Addr) : ThreadCreate where
  ref
  script := .string (chars "jack.sleep()")
  arguments := []
  newstate := some 0x7f0000003000
  loadchunk := .ok ()
  malloc := some key
  mutexInit := false
  condInit := true
  createThread := .ok 0x7f0000004000

/-- The process with one client, whose entry is at a given address. -/
def Process.withClient (key : Addr) : Process :=
  (Proc.create ⟨none, 0, 0⟩ (.clientOpen (.plain key)) (.initial ∅)).2

/-- A thread whose lock cannot be initialized is valid although `thread_load` has
failed. -/
theorem create_not_always_clean :
    ¬∀ (answers : PipeAnswers) (creation : Creation) (process : Process),
      Failed (Proc.create answers creation process).1 →
        Clean process (Proc.create answers creation process).2 := by
  intro claim
  have clean := claim ⟨none, 0, 0⟩ (.threadCreate (.withoutMutex 0x601010 0x602010))
    (.withClient 0x601010) fun ref returned => by cases returned
  have valid := clean.valid .thread 0x602010 ⟨_, rfl, rfl⟩
  cases valid with
  | intro entry both => cases both.1

end LuaJack
