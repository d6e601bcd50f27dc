import LuaJack.Callback.Balance

/-!
# Process chunks that fail

A process state is stored in the entry of its client before the chunk is loaded, before
the arguments are copied, and before the chunk is executed.  Each of these may end with
an error, after which the state remains the process state of the client.
-/

namespace LuaJack

open Atomic

/-- The client is valid and has no process state yet, and the main thread calls. -/
structure LuaStates.Loadable (states : LuaStates) (cud : Addr) : Prop where
  mainThread : states.world.mainThread = true
  client : ∃ entry : Cud, states.world.search .client cud = some entry ∧
    entry.valid = true ∧
    entry.processState = none

/-- What Lua answers when a chunk is loaded. -/
structure ChunkAnswers where
  /-- `package.searchpath`: the full name of a script, or why it is not found. -/
  searchpath : CString → Except String CString
  /-- `luaL_loadfile` or `luaL_loadstring`. If it fails, its code, and the message that it
  leaves, if any. -/
  load : CString → Except (Int × Option String) Unit

namespace ChunkAnswers

/-- Whether `luajack_loadchunk` can find and load a chunk. -/
def loadchunk (answers : ChunkAnswers) (isscript : Bool) (chunk : CString) :
    Except String Unit := do
  let name ← if isscript then answers.searchpath chunk else pure chunk
  match answers.load name with
  | .ok _ => return ()
  | .error (_, some message) => throw message
  | .error (rc, none) =>
      if isscript then
        throw s!"cannot load script (luaL_loadfile() error {rc})"
      else
        throw s!"cannot load string (luaL_loadstring() error {rc})"

/-- The answers for a script that is not found, and for a chunk that does not compile. -/
def failing : ChunkAnswers where
  searchpath := fun _ => .error "no file './process.lua'"
  load := fun _ => .error (3, some "unexpected symbol near '='")

/-- The answers for a chunk that is found and loaded. -/
def loading : ChunkAnswers where
  searchpath := fun name => .ok name
  load := fun _ => .ok ()

end ChunkAnswers

namespace ProcessLoad

/-- A call of `process_loadfile` if `isscript`, and of `process_load` otherwise. -/
def calling (isscript : Bool) (ref : LuaInteger)
    (chunk : CString) (arguments : List LuaValue)
    (state : Handle) (answers : ChunkAnswers) (pcall : Except String Unit) :
    ProcessLoad where
  ref := ref
  chunk := .string chunk
  arguments := arguments
  newstate := some state
  loadchunk := answers.loadchunk isscript chunk
  pcall := pcall

/-- The call has a process state created for the client. -/
structure Starts (call : ProcessLoad) (states : LuaStates) : Prop where
  loadable : states.Loadable call.ref
  chunk : ∃ chunk, call.chunk = .string chunk
  newstate : ∃ state, call.newstate = some state

theorem starts_calling {isscript : Bool} {ref : LuaInteger} {chunk : CString}
    {arguments : List LuaValue} {state : Handle} {answers : ChunkAnswers}
    {pcall : Except String Unit} {states : LuaStates} (loadable : states.Loadable ref) :
    (calling isscript ref chunk arguments state answers pcall).Starts states :=
  ⟨loadable, ⟨chunk, rfl⟩, state, rfl⟩

/-- The chunk can be found, loaded and executed, and the arguments can be passed to it. -/
structure Correct (call : ProcessLoad) : Prop where
  chunk : ∃ chunk, call.chunk = .string chunk
  newstate : ∃ state, call.newstate = some state
  loadchunk : call.loadchunk = .ok ()
  arguments : xmove 1 call.arguments = .ok ()
  pcall : call.pcall = .ok ()

end ProcessLoad

namespace LuaStates

/-- The process state of a client is none, or one of the given states, all of which are
open. -/
structure Sound (loaded : Handle → Prop) (states : LuaStates) (cud : Addr) : Prop where
  isOpen : ∀ state, loaded state → (states.registries state).isSome
  isLoaded : ∀ (entry : Cud) state, states.world.search .client cud = some entry →
    entry.processState = some state → loaded state

/-- The client has a process state. -/
def HasState (states : LuaStates) (cud : Addr) : Prop :=
  ∃ (entry : Cud) (state : Handle), states.world.search .client cud = some entry ∧
    entry.processState = some state

/-- After a call for a client has failed, everything is as before. The process state of
the client has loaded its chunk completely, as far as this is true before the call, and
a correct chunk can be loaded unless one has been loaded before. -/
structure Restored (before after : LuaStates) (cud : Addr) : Prop where
  unchanged : after = before
  sound : ∀ loaded, before.Sound loaded cud → after.Sound loaded cud
  retry : ∀ next : ProcessLoad, next.ref = cud → next.Correct → before.Loadable cud →
    ∃ last, Stateful.processLoad next after = (.ok (), last)

end LuaStates

namespace Stateful

variable {states after : LuaStates} {call : ProcessLoad}

/-! ## What a call does -/

/-- A call that has a state created. -/
theorem processLoad_of_starts (starts : call.Starts states) :
    ∃ state, call.newstate = some state ∧
      processLoad call states = processStart call.ref state call states := by
  rcases starts.loadable.client with ⟨entry, found, isValid, noState⟩
  rcases starts.chunk with ⟨chunk, isChunk⟩
  rcases starts.newstate with ⟨state, isNew⟩
  refine ⟨state, isNew, ?_⟩
  rw [processLoad, Fallible.bind_of_ok (cudCheck_of_valid ⟨entry, found, isValid⟩),
    Fallible.bind_of_ok (checkmain_of_main starts.loadable.mainThread)]
  simp only [if_true, Fallible.asks_bind, found,
    Option.bind_some, noState, isChunk, isNew]
  rfl

/-- Any other call has no effect, except that it is an error to call from another
thread. -/
theorem processLoad_of_not_starts (never : ¬call.Starts states) :
    (∃ message, processLoad call states = (.error (.raised message), states)) ∨
    processLoad call states = (.ok (), states.modifyWorld
      (·.luajackError "function can be called only in main thread")) := by
  rcases processLoad_cases states call with isError | isOther |
    ⟨entry, chunk, state, isMain, found, isValid, noState, isChunk, isNew, _⟩
  · exact .inl isError
  · exact .inr isOther
  · have loadable : states.Loadable call.ref := ⟨isMain, entry, found, isValid, noState⟩
    exact absurd ⟨loadable, ⟨chunk, isChunk⟩, state, isNew⟩ never

theorem eq_of_fails {failure : Failure} (never : ¬call.Starts states)
    (fails : processLoad call states = (.error failure, after)) : after = states := by
  cases processLoad_of_not_starts never with
  | inl isError =>
      rcases isError with ⟨message, run⟩
      rw [run] at fails
      cases fails
      rfl
  | inr run =>
      rw [run] at fails
      cases fails

/-- A correct chunk is loaded. -/
theorem processLoad_of_correct (loadable : states.Loadable call.ref)
    (correct : call.Correct) :
    ∃ last, processLoad call states = (.ok (), last) := by
  have starts : call.Starts states := ⟨loadable, correct.chunk, correct.newstate⟩
  rcases processLoad_of_starts starts with ⟨state, _, run⟩
  rw [run, processStart, Fallible.modify_bind, correct.loadchunk]
  simp only [correct.arguments, correct.pcall]
  exact ⟨_, rfl⟩

/-- Whatever has become of the chunk, the client has the state afterwards. -/
theorem world_processStart (cud : Addr) (state : Handle) :
    (processStart cud state call states).2.world =
      states.world.setProcessState cud state := by
  have kept (answer : Except String Unit) : (lift (Lua.ofExcept answer)).Respects
      fun before after => after.world = before.world := by
    intro before
    cases answer with
    | ok _ => rfl
    | error message => rfl
  rw [processStart, Fallible.modify_bind]
  cases call.loadchunk with
  | error message => rfl
  | ok _ =>
      have executed := Fallible.respects_bind (fun one two => two.trans one)
        (kept (xmove 1 call.arguments)) fun _ => kept call.pcall
      exact executed _

theorem search_processStart {entry : Cud} {cud : Addr}
    (found : states.world.search .client cud = some entry) (state : Handle) :
    (processStart cud state call states).2.world.search .client cud =
      some { entry with processState := some state } := by
  rw [world_processStart, World.setProcessState,
    World.search_modifyEntry, if_pos rfl, found]
  rfl

/-- A call that has a state created leaves it to the client, however it ends. -/
theorem hasState_of_starts (starts : call.Starts states) :
    (processLoad call states).2.HasState call.ref := by
  rcases processLoad_of_starts starts with ⟨state, _, run⟩
  rcases starts.loadable.client with ⟨entry, found, _, _⟩
  rw [run]
  exact ⟨_, state, search_processStart found state, rfl⟩

theorem not_starts_of_hasState (has : states.HasState call.ref) :
    ¬call.Starts states := by
  rintro ⟨⟨_, entry, found, _, noState⟩, _, _⟩
  rcases has with ⟨other, state, isFound, isState⟩
  cases found.symm.trans isFound
  cases noState.symm.trans isState

theorem ne_of_starts (starts : call.Starts states) :
    (processLoad call states).2 ≠ states := by
  intro unchanged
  have has := hasState_of_starts starts
  rw [unchanged] at has
  exact not_starts_of_hasState has starts

/-- A call that fails leaves everything as it was exactly when it fails before a state is
created. -/
theorem restored_iff {failure : Failure}
    (fails : processLoad call states = (.error failure, after)) :
    states.Restored after call.ref ↔ ¬call.Starts states := by
  constructor
  · intro restored starts
    have differs := ne_of_starts starts
    rw [fails] at differs
    exact differs restored.unchanged
  · intro never
    have unchanged := eq_of_fails never fails
    subst unchanged
    refine ⟨rfl, fun _ sound => sound, ?_⟩
    rintro next isRef correct loadable
    rw [← isRef] at loadable
    exact processLoad_of_correct loadable correct

/-- A client, and no process state. -/
def started (cud : Addr) : Option LuaStates :=
  (session.run [.create (.clientOpen (.plain cud))] World.initial).map
    fun world => ⟨world, fun _ => none⟩

/-- A call without a chunk. -/
theorem restored_iff_missing :
    ∃ states, started 0x601010 = some states ∧
      ∃ failure after, processLoad
          ⟨0x601010, .nil, [], some 0x602030, .ok (), .ok ()⟩ states =
            (.error failure, after) ∧
        states.Restored after 0x601010 := by
  refine ⟨_, rfl, _, _, rfl, ?_⟩
  apply (@restored_iff _ _ ⟨0x601010, .nil, [], some 0x602030, .ok (), .ok ()⟩ _ rfl).mpr
  intro starts
  rcases starts.chunk with ⟨chunk, isChunk⟩
  cases isChunk

/-- Calls that fail, each at another place. -/
def failing : List ProcessLoad :=
  [.calling true 0x601010 (chars "process") [] 0x602030 .failing (.ok ()),
    .calling false 0x601010 (chars "x = = 1") [] 0x602030 .failing (.ok ()),
    .calling false 0x601010 (chars "x = 1") [.other "table"] 0x602030 .loading (.ok ()),
    .calling false 0x601010 (chars "error('x')") [] 0x602030 .loading (.error "x")]

theorem starts_of_failing (loadable : states.Loadable 0x601010) :
    ∀ call ∈ failing, call.Starts states := by
  intro call isFailing
  simp only [failing, List.mem_cons, List.not_mem_nil, or_false] at isFailing
  rcases isFailing with rfl | rfl | rfl | rfl
  all_goals exact ProcessLoad.starts_calling loadable

/-- Each leaves the client with its state. -/
theorem not_restored :
    ∃ states, started 0x601010 = some states ∧ ∀ call ∈ failing,
      ∃ failure after, processLoad call states = (.error failure, after) ∧
        ¬states.Restored after call.ref := by
  have each : ∃ states, started 0x601010 = some states ∧ states.Loadable 0x601010 ∧
      ∀ call ∈ failing, ∃ failure after, processLoad call states =
        (.error failure, after) := by
    refine ⟨_, rfl, ⟨rfl, _, rfl, rfl, rfl⟩, ?_⟩
    intro call isFailing
    simp only [failing, List.mem_cons, List.not_mem_nil, or_false] at isFailing
    rcases isFailing with rfl | rfl | rfl | rfl
    all_goals exact ⟨_, _, rfl⟩
  rcases each with ⟨states, isStarted, loadable, fails⟩
  refine ⟨states, isStarted, ?_⟩
  intro call isFailing
  rcases fails call isFailing with ⟨failure, after, run⟩
  refine ⟨failure, after, run, ?_⟩
  intro restored
  have differs := ne_of_starts (starts_of_failing loadable call isFailing)
  rw [run] at differs
  exact differs restored.unchanged

end Stateful

/-! ## What follows -/

/-- The clients that have a process state keep it. -/
def World.KeepsStates (before after : World) : Prop :=
  ∀ cud (entry : Cud) state, before.search .client cud = some entry →
    entry.processState = some state →
      ∃ last : Cud, after.search .client cud = some last ∧ last.processState = some state

namespace World.KeepsStates

variable {first second third before after : World}

theorem of_search (search : ∀ cud, after.search .client cud = before.search .client cud) :
    KeepsStates before after := by
  intro cud entry state found isState
  exact ⟨entry, (search cud).trans found, isState⟩

theorem refl (world : World) : KeepsStates world world := of_search fun _ => rfl

theorem trans (one : KeepsStates first second) (two : KeepsStates second third) :
    KeepsStates first third := by
  intro cud entry state found isState
  rcases one cud entry state found isState with ⟨middle, isMiddle, stillState⟩
  exact two cud middle state isMiddle stillState

theorem of_sameSlots (same : SameSlots before after) : KeepsStates before after := by
  intro cud entry state found isState
  rcases same.kept found with ⟨last, isLast, callbacks⟩
  exact ⟨last, isLast, (congrArg Callbacks.processState callbacks).trans isState⟩

/-- Other members of an entry may change. -/
theorem of_modifyEntry (world : World) (cud : Addr) {change : Cud → Cud}
    (same : ∀ entry, (change entry).processState = entry.processState) :
    KeepsStates world (world.modifyEntry .client cud change) := by
  intro other entry state found isState
  rw [search_modifyEntry, found]
  by_cases isCud : other = cud
  · rw [if_pos isCud]
    exact ⟨change entry, rfl, (same entry).trans isState⟩
  · rw [if_neg isCud]
    exact ⟨entry, rfl, isState⟩

theorem unregister (world : World) (cud : Addr) (kind : CallbackKind) :
    KeepsStates world (world.unregister cud kind) := by
  unfold World.unregister
  split
  · exact refl world
  · split
    · exact refl world
    · exact trans (of_search fun _ => rfl) (of_modifyEntry _ cud fun _ => rfl)

theorem framed : FramedOn (fun _ => False) none KeepsStates where
  refl := refl
  trans := trans
  elsewhere := fun _ _ _ => of_search fun _ => rfl
  perform := fun _ _ => of_search fun _ => rfl
  modifyEntry := fun _ _ _ _ isTouched _ => isTouched.elim
  insert := fun isTouched _ _ _ => isTouched.elim
  freeAll := fun _ _ _ _ isTouched => isTouched.elim

theorem freeAll (world : World) {kind : ObjectKind}
    (isOther : kind ≠ .client) (cud : Addr)
    (free : Addr → kind.Entry → Effect) :
    KeepsStates world (world.freeAll kind cud free) :=
  of_search (search_freeAll_of_ne world kind cud free isOther.symm)

/-- Closing a client is not among these operations. -/
theorem operation (operation : Operation) (world : World)
    (notClose : ∀ ref rc, operation ≠ .clientClose ref rc) :
    KeepsStates world (operation.perform world) := by
  cases operation with
  | clientClose ref rc => exact absurd rfl (notClose ref rc)
  | register kind registration =>
      have references : FramesReferences KeepsStates :=
        ⟨fun _ _ => of_search fun _ => rfl,
        fun world cud _ _ => of_modifyEntry world cud fun _ => rfl⟩
      exact framed.respects_registrationFunction references kind registration world
  | _ => exact of_sameSlots (.operation _ rfl world)

end World.KeepsStates

namespace Stateful

/-- The function takes no client's process state away. -/
abbrev KeepsStates {α : Type} (function : Stateful α) : Prop :=
  function.Respects fun before after => before.world.KeepsStates after.world

section

variable {α β : Type} {function : Stateful α} {rest : α → Stateful β}

theorem keeps_bind (first : KeepsStates function)
    (second : ∀ value, KeepsStates (rest value)) :
    KeepsStates (function >>= rest) :=
  Fallible.respects_bind (fun one two => one.trans two) first second

theorem keeps_pure (value : α) : KeepsStates (pure value : Stateful α) :=
  Fallible.respects_pure (fun _ => .refl _) value

theorem keeps_raise (message : String) : KeepsStates (raise message : Stateful α) :=
  Fallible.respects_error (fun _ => .refl _) _

theorem keeps_lift {function : Lua α} (keeps : function.Respects World.KeepsStates) :
    KeepsStates (lift function) := by
  intro states
  have kept := keeps states.world
  rw [lift]
  cases result : function states.world with
  | mk answer world =>
      rw [result] at kept
      cases answer with
      | ok value => exact kept
      | error message => exact kept

theorem keeps_modify {change : World → World}
    (keeps : ∀ world, World.KeepsStates world (change world)) :
    KeepsStates (lift (Lua.modify change)) := fun states => keeps states.world

theorem keeps_cudCheck (ref : LuaInteger) : KeepsStates (lift (cudCheck ref)) :=
  keeps_lift (World.KeepsStates.framed.respects_check .client ref)

theorem keeps_setProcessRef (cud : Addr) (kind : ProcessKind) (ref : Ref) :
    KeepsStates (Fallible.modify (·.modifyWorld (·.setProcessRef cud kind ref))) :=
  fun _ => .of_modifyEntry _ cud fun _ => rfl

theorem keeps_asks (access : LuaStates → α) : KeepsStates (Fallible.asks access) :=
  fun _ => .refl _

theorem keeps_luaRef (state : Option Handle) (ref : Ref) (function : LuaFunction) :
    KeepsStates (luaRef state ref function) := by
  apply keeps_bind (keeps_asks _)
  intro registry
  split
  · exact fun _ => .refl _
  · exact fun _ => .refl _

theorem keeps_unregister (cud : Addr) (kind : ProcessKind) :
    KeepsStates (unregister cud kind) := by
  intro states
  cases found : states.world.search .client cud with
  | none =>
      rw [unregister, Fallible.asks_bind, found]
      exact .refl _
  | some entry =>
      rcases unregister_cases found kind with ⟨_, run⟩ | ⟨_, _, _, _, run⟩ | ⟨_, _, run⟩
      · rw [run]
        exact .refl _
      · rw [run]
        exact .of_modifyEntry _ cud fun _ => rfl
      · rw [run]
        exact .refl _

theorem keeps_registrationFunction (state : Handle) (kind : ProcessKind)
    (registration : Registration) :
    KeepsStates (registrationFunction state kind registration) := by
  apply keeps_bind (keeps_cudCheck _)
  intro cud
  cases registration.function with
  | none => exact keeps_raise _
  | some function =>
      apply keeps_bind (keeps_unregister cud kind)
      intro _
      apply keeps_bind (keeps_luaRef _ _ _)
      intro _
      apply keeps_bind (keeps_setProcessRef cud kind _)
      intro _
      split
      · exact keeps_bind (keeps_unregister cud kind) fun _ => keeps_raise _
      · exact keeps_pure _

theorem keeps_releaseTimebase (ref : LuaInteger) (released : Except String Unit) :
    KeepsStates (releaseTimebase ref released) := by
  apply keeps_bind (keeps_cudCheck _)
  intro cud
  apply keeps_bind (keeps_unregister cud .timebase)
  intro _
  apply keeps_bind (keeps_unregister cud .timebaseConditional)
  intro _
  exact keeps_lift (World.KeepsStates.framed.respects_ofExcept released)

theorem keeps_processUnregister (cud : Addr) : KeepsStates (processUnregister cud) := by
  apply keeps_bind (keeps_asks _)
  intro found
  split
  · exact keeps_pure _
  · split
    · apply keeps_bind (keeps_unregister cud .process)
      intro _
      apply keeps_bind (keeps_unregister cud .bufferSize)
      intro _
      apply keeps_bind (keeps_unregister cud .sync)
      intro _
      exact keeps_bind (keeps_unregister cud .timebase) fun _ => keeps_unregister cud _
    · exact keeps_pure _

theorem keeps_freeAll (kind : ObjectKind) (isOther : kind ≠ .client) (cud : Addr)
    (free : World → Addr → kind.Entry → Effect) :
    KeepsStates (lift (Lua.modify fun world => world.freeAll kind cud (free world))) :=
  keeps_modify fun world => .freeAll world isOther cud (free world)

theorem keeps_threadFreeAll (cud : Addr) : KeepsStates (lift (threadFreeAll cud)) :=
  keeps_freeAll .thread (by decide) cud fun _ => threadFree

theorem keeps_rbufFreeAll (cud : Addr) : KeepsStates (lift (rbufFreeAll cud)) :=
  keeps_freeAll .ringbuffer (by decide) cud fun _ => rbufFree

theorem keeps_portCloseAll (cud : Addr) : KeepsStates (lift (portCloseAll cud)) :=
  keeps_freeAll .port (by decide) cud portClose

theorem keeps_jackClientClose (cud : Addr) : KeepsStates (lift (jackClientClose cud)) :=
  keeps_modify fun _ => .of_search fun _ => rfl

theorem keeps_callbackUnregister (cud : Addr) :
    KeepsStates (lift (callbackUnregister cud)) := by
  rw [callbackUnregister_eq]
  apply keeps_modify
  intro world
  induction releasedCallbacks generalizing world with
  | nil => exact .refl world
  | cons kind rest ih => exact (World.KeepsStates.unregister world cud kind).trans (ih _)

theorem keeps_clientCloseRef (ref : LuaInteger) (rc : Int) :
    KeepsStates (clientCloseRef ref rc) := by
  have activity : FramesActivity World.KeepsStates := fun _ _ _ => .of_search fun _ => rfl
  apply keeps_bind (keeps_cudCheck _)
  intro cud
  apply keeps_bind
    (keeps_lift (World.KeepsStates.framed.respects_deactivate_ activity cud rc))
  intro _
  apply keeps_bind (keeps_threadFreeAll cud)
  intro _
  apply keeps_bind (keeps_rbufFreeAll cud)
  intro _
  apply keeps_bind (keeps_portCloseAll cud)
  intro _
  apply keeps_bind (keeps_jackClientClose cud)
  intro _
  apply keeps_bind (keeps_callbackUnregister cud)
  intro _
  apply keeps_bind (keeps_processUnregister cud)
  intro _
  exact keeps_modify fun world => .of_modifyEntry world cud fun _ => rfl

/-- A process state is created only for a client that has none. -/
theorem keeps_processLoad (call : ProcessLoad) : KeepsStates (processLoad call) := by
  intro states
  by_cases starts : call.Starts states
  · rcases processLoad_of_starts starts with ⟨state, _, run⟩
    rcases starts.loadable.client with ⟨entry, isFound, _, noState⟩
    rw [run, world_processStart]
    intro cud other otherState found isState
    have different : cud ≠ call.ref := by
      rintro rfl
      cases isFound.symm.trans found
      cases noState.symm.trans isState
    rw [World.setProcessState, World.search_modifyEntry, if_neg different]
    exact ⟨other, found, isState⟩
  · cases processLoad_of_not_starts starts with
    | inl isError =>
        rcases isError with ⟨message, run⟩
        rw [run]
        exact .refl _
    | inr run =>
        rw [run]
        exact .of_search fun _ => rfl

end

end Stateful

/-- Whatever is called in one of the Lua states, the clients keep their process states. -/
theorem keeps_step {operation : StateOperation} {before after : LuaStates}
    (performed : luaRun operation before = some after) :
    before.world.KeepsStates after.world := by
  rcases luaRun_eq_some performed with ⟨_, rfl⟩
  cases operation with
  | main operation =>
      cases operation with
      | clientClose ref rc => exact Stateful.keeps_clientCloseRef ref rc before
      | _ => exact World.KeepsStates.operation _ before.world fun _ _ => nofun
  | processLoad call => exact Stateful.keeps_processLoad call before
  | process state call =>
      cases call with
      | timebaseCallback registration conditional =>
          rw [StateOperation.run, ProcessCall.run, Stateful.timebaseCallback_eq]
          exact Stateful.keeps_registrationFunction state _ registration before
      | releaseTimebase ref released =>
          exact Stateful.keeps_releaseTimebase ref released before
      | processCallback registration | bufferSizeCallback registration
      | syncCallback registration =>
          exact Stateful.keeps_registrationFunction state _ registration before

theorem LuaStates.HasState.step {states after : LuaStates} {operation : StateOperation}
    {cud : Addr} (has : states.HasState cud)
    (performed : luaRun operation states = some after) :
    after.HasState cud := by
  rcases has with ⟨entry, state, found, isState⟩
  rcases keeps_step performed cud entry state found isState with
    ⟨last, isLast, stillState⟩
  exact ⟨last, state, isLast, stillState⟩

/-- When a chunk has failed after its state was created, no chunk is ever loaded for the
client, whatever happens next. -/
theorem never_loaded {states after final : LuaStates}
    {call : ProcessLoad} {failure : Failure}
    {operations : List StateOperation} (starts : call.Starts states)
    (fails : Stateful.processLoad call states = (.error failure, after))
    (run : luaRun.run operations after = some final) (next : ProcessLoad)
    (isRef : next.ref = call.ref) : ¬next.Starts final := by
  have has : after.HasState call.ref := by
    have left := Stateful.hasState_of_starts starts
    rw [fails] at left
    exact left
  have still : final.HasState call.ref :=
    @Machine.invariant_of_any_run _ _ luaRun operations after final (·.HasState call.ref)
      (fun _ _ _ has performed => has.step performed) has run
  rw [← isRef] at still
  exact Stateful.not_starts_of_hasState still

/-- The chunk does not compile. The client is activated, and then a correct chunk is
passed. -/
theorem never_loaded_compiled :
    ∃ states, Stateful.started 0x601010 = some states ∧
      ∃ failure after final, Stateful.processLoad
          (.calling false 0x601010 (chars "x = = 1") [] 0x602030 .failing (.ok ()))
            states =
            (.error failure, after) ∧
        luaRun.run [.main (.activate 0x601010 0)] after = some final ∧
        ¬ProcessLoad.Starts
          (.calling false 0x601010 (chars "x = 1") [] 0x602040 .loading (.ok ()))
            final := by
  have reached : ∃ states, Stateful.started 0x601010 = some states ∧
      states.Loadable 0x601010 ∧
      ∃ failure after final, Stateful.processLoad
          (.calling false 0x601010 (chars "x = = 1") [] 0x602030 .failing (.ok ()))
            states =
            (.error failure, after) ∧
        luaRun.run [.main (.activate 0x601010 0)] after = some final :=
    ⟨_, rfl, ⟨rfl, _, rfl, rfl, rfl⟩, _, _, _, rfl, rfl⟩
  rcases reached with ⟨states, isStarted, loadable, failure, after, final, fails, run⟩
  refine ⟨states, isStarted, failure, after, final, fails, run, ?_⟩
  exact never_loaded (ProcessLoad.starts_calling loadable) fails run _ rfl

end LuaJack
