import LuaJack.Object.Ownership
import LuaJack.Object.Session

/-!
# What the functions leave alone

Most functions access the world in a few ways only: they insert the entry that has
been allocated, change entries without setting marks, and record calls, errors
and events.  A relation between worlds that these accesses respect is therefore
respected by all of these functions.
-/

namespace LuaJack

/-- The references that an entry holds. Only clients hold any. -/
def ObjectKind.refs : (kind : ObjectKind) → kind.Entry → CallbackKind → Ref
  | client, cud => cud.refs
  | _, _ => fun _ => noRef

/-- A change of an entry that neither sets its mark nor the references that it holds. -/
structure ObjectKind.Harmless (kind : ObjectKind)
    (change : kind.Entry → kind.Entry) : Prop where
  isValid : ∀ entry, kind.isValid (change entry) = true → kind.isValid entry = true
  refs : ∀ entry, kind.refs (change entry) = kind.refs entry

theorem ObjectKind.harmless_cancelValid (kind : ObjectKind) :
    kind.Harmless kind.cancelValid where
  isValid := by
    intro entry isValid
    rw [isValid_cancelValid] at isValid
    cases isValid
  refs := fun entry => by cases kind <;> rfl

/-- The relation is respected by everything that functions usually do to the world. -/
structure Framed (allocated : Option (ObjectKind × Addr))
    (relation : World → World → Prop) :
    Prop where
  refl : ∀ world, relation world world
  trans : ∀ {first second third}, relation first second → relation second third →
    relation first third
  elsewhere : ∀ (world : World) exiting queue,
  relation world { world with exiting, queue }
  perform : ∀ (world : World) effect, relation world (world.perform effect)
  modifyEntry : ∀ (world : World) {kind} (key) {change}, ObjectKind.Harmless kind change →
    relation world (world.modifyEntry kind key change)
  insert : ∀ {world : World} {kind key entry}, allocated = some (kind, key) →
    world.search kind key = none → kind.refs entry = (fun _ => noRef) →
    relation world (world.setTable kind ((world.table kind).insert key entry))
  freeAll : ∀ (world : World) kind cud free, relation world (world.freeAll kind cud free)

/-- The relation is respected by everything that functions usually do to some of the
databases, and to the rest of the world. -/
structure FramedOn (touched : ObjectKind → Prop) (allocated : Option (ObjectKind × Addr))
    (relation : World → World → Prop) : Prop where
  refl : ∀ world, relation world world
  trans : ∀ {first second third}, relation first second → relation second third →
    relation first third
  elsewhere : ∀ (world : World) exiting queue,
  relation world { world with exiting, queue }
  perform : ∀ (world : World) effect, relation world (world.perform effect)
  modifyEntry : ∀ (world : World) {kind} (key) {change}, touched kind →
    ObjectKind.Harmless kind change → relation world (world.modifyEntry kind key change)
  insert : ∀ {world : World} {kind key entry}, touched kind →
    allocated = some (kind, key) →
    world.search kind key = none → kind.refs entry = (fun _ => noRef) →
    relation world (world.setTable kind ((world.table kind).insert key entry))
  freeAll : ∀ (world : World) kind cud free, touched kind →
    relation world (world.freeAll kind cud free)

theorem Framed.on {allocated : Option (ObjectKind × Addr)}
    {relation : World → World → Prop}
    (framed : Framed allocated relation) (touched : ObjectKind → Prop) :
    FramedOn touched allocated relation where
  refl := framed.refl
  trans := framed.trans
  elsewhere := framed.elsewhere
  perform := framed.perform
  modifyEntry := fun world _ key _ _ harmless => framed.modifyEntry world key harmless
  insert := fun _ isKey absent noRefs => framed.insert isKey absent noRefs
  freeAll := fun world kind cud free _ => framed.freeAll world kind cud free

/-- The relation is respected by everything that activates and deactivates clients. -/
def FramesActivity (relation : World → World → Prop) : Prop :=
  ∀ (world : World) activeClients activated,
    relation world { world with activeClients, activated }

/-- The relation is respected by everything that registers and unregisters callbacks. -/
structure FramesReferences (relation : World → World → Prop) : Prop where
  registry : ∀ (world : World) registry, relation world { world with registry }
  setRef : ∀ (world : World) cud kind ref, relation world (world.setRef cud kind ref)

namespace FramedOn

variable {α β : Type} {touched : ObjectKind → Prop}
  {allocated : Option (ObjectKind × Addr)}
variable {relation : World → World → Prop} {function : Lua α} {rest : α → Lua β}

section

variable (framed : FramedOn touched allocated relation)
include framed

theorem respects_pure (value : α) : (pure value : Lua α).Respects relation :=
  Lua.respects_pure framed.refl value

theorem respects_error (message : String) :
    (Lua.error message : Lua α).Respects relation :=
  Lua.respects_error framed.refl message

theorem respects_asks (access : World → α) : (Lua.asks access).Respects relation :=
  Lua.respects_asks framed.refl access

theorem respects_bind (first : function.Respects relation)
    (second : ∀ value, (rest value).Respects relation) :
    (function >>= rest).Respects relation :=
  Lua.respects_bind framed.trans first second

theorem respects_ofExcept (answer : Except String α) :
    (Lua.ofExcept answer).Respects relation := by
  cases answer with
  | ok value => exact framed.respects_pure value
  | error message => exact framed.respects_error message

theorem luajackError (world : World) (message : String) :
    relation world (world.luajackError message) := framed.elsewhere world _ _

theorem respects_perform (effect : World → Effect) :
    (Lua.modify fun world => world.perform (effect world)).Respects relation :=
  fun world => framed.perform world _

theorem respects_modifyEntry {kind : ObjectKind}
    {key : Addr} {change : kind.Entry → kind.Entry}
    (isTouched : touched kind) (harmless : kind.Harmless change) :
    (Lua.modify (·.modifyEntry kind key change)).Respects relation :=
  fun world => framed.modifyEntry world key isTouched harmless

theorem respects_check (kind : ObjectKind) (ref : LuaInteger) :
    (check kind ref).Respects relation := by
  intro world
  by_cases valid : world.Valid kind ref
  · rw [check_of_valid valid]
    exact framed.refl world
  · rw [check_eq_error valid]
    exact framed.refl world

theorem respects_checkcreate : checkcreate.Respects relation := by
  intro world
  rw [checkcreate_apply]
  split
  · split
    · exact framed.luajackError world _
    · exact framed.refl world
  · exact framed.luajackError world _

theorem respects_create {body : Lua (Option LuaInteger)}
    (respected : body.Respects relation) :
    (do if ← checkcreate then body else return none : Lua (Option LuaInteger)).Respects
        relation := by
  apply framed.respects_bind framed.respects_checkcreate
  intro allowed
  cases allowed with
  | true => exact respected
  | false => exact framed.respects_pure none

theorem respects_rbufPipe (call : RingbufferCall) :
    (rbufPipe call).Respects relation := by
  unfold rbufPipe
  split
  · cases call.syncpipeNew with
    | none => exact framed.respects_error _
    | some pipefd => exact framed.respects_pure _
  · exact framed.respects_pure _

theorem respects_loadchunk (state : Handle) (call : ThreadCreate) :
    (loadchunk state call).Respects relation := by
  unfold loadchunk
  cases call.loadchunk with
  | ok _ => exact framed.respects_pure _
  | error message =>
      apply framed.respects_bind (framed.respects_perform _)
      exact fun _ => framed.respects_error _

theorem respects_threadStart (isTouched : touched .thread) (key : Addr) (state : Handle)
    (call : ThreadCreate) : (threadStart key state call).Respects relation := by
  have fails (message : String) : (do
      Lua.modify (·.perform (.luaClose state))
      Lua.error message : Lua LuaInteger).Respects relation :=
    framed.respects_bind (framed.respects_perform _) fun _ => framed.respects_error _
  unfold threadStart
  split
  · split
    · cases call.createThread with
      | error rc => exact fails _
      | ok thread =>
          apply framed.respects_bind
          · exact framed.respects_modifyEntry isTouched ⟨fun _ => id, fun _ => rfl⟩
          · exact fun _ => framed.respects_pure _
    · exact fails _
  · exact fails _

end

/-! ## Creating functions -/

section

/-- `new` inserts nothing but the allocated entry. -/
theorem respects_new {kind : ObjectKind} {malloc : Option Addr} {entry : kind.Entry}
    (framed : FramedOn touched (malloc.map fun key => (kind, key)) relation)
    (isTouched : touched kind)
    (noRefs : kind.refs entry = fun _ => noRef) :
    (new kind malloc entry).Respects relation := by
  cases malloc with
  | none => exact framed.refl
  | some key =>
      intro world
      cases found : world.search kind key with
      | some old =>
          simp only [new, Lua.asks_bind, found]
          exact framed.luajackError world _
      | none =>
          simp only [new, Lua.asks_bind, found]
          exact framed.insert isTouched rfl found noRefs

/-- An entry is inserted and its members are set, or something is given back. -/
theorem respects_newEntry {kind : ObjectKind} {malloc : Option Addr} {entry : kind.Entry}
    {effect : Effect} {message : String} {change : kind.Entry → kind.Entry}
    {rest : Addr → Lua (Option LuaInteger)}
    (framed : FramedOn touched (malloc.map fun key => (kind, key)) relation)
    (isTouched : touched kind) (noRefs : kind.refs entry = fun _ => noRef)
    (harmless : kind.Harmless change) (continues : ∀ key, (rest key).Respects relation) :
    (do
      match ← new kind malloc entry with
      | none =>
          Lua.modify (·.perform effect)
          Lua.error message
      | some key =>
          Lua.modify (·.modifyEntry kind key change)
          rest key : Lua (Option LuaInteger)).Respects relation := by
  apply framed.respects_bind (respects_new framed isTouched noRefs)
  intro created
  cases created with
  | none =>
      apply framed.respects_bind (framed.respects_perform _)
      exact fun _ => framed.respects_error _
  | some key =>
      apply framed.respects_bind (framed.respects_modifyEntry isTouched harmless)
      exact fun _ => continues key

theorem respects_clientOpen {call : ClientOpen}
    (framed : FramedOn touched (call.malloc.map fun key => (.client, key)) relation)
    (isTouched : touched .client) :
    (clientOpen call).Respects relation := by
  apply framed.respects_create
  cases call.name.toString? with
  | none => exact framed.respects_error _
  | some name =>
      apply framed.respects_bind (framed.respects_ofExcept _)
      intro request
      cases call.jackClientOpen request with
      | error status => exact framed.respects_error _
      | ok client =>
          exact respects_newEntry framed isTouched rfl ⟨fun _ => id, fun _ => rfl⟩
            fun _ => framed.respects_pure _

theorem respects_portRegister (flags : BitVec 64) {call : PortRegister}
    (framed : FramedOn touched (call.malloc.map fun key => (.port, key)) relation)
    (isTouched : touched .port) :
    (portRegister flags call).Respects relation := by
  apply framed.respects_create
  apply framed.respects_bind (framed.respects_check _ _)
  intro cud
  apply framed.respects_bind (framed.respects_ofExcept _)
  intro name
  apply framed.respects_bind (framed.respects_asks _)
  intro client
  cases call.jackPortRegister (portRequest client name flags call.options) with
  | none => exact framed.respects_error _
  | some port =>
      exact respects_newEntry framed isTouched rfl ⟨fun _ => id, fun _ => rfl⟩
        fun _ => framed.respects_pure _

/-- A ringbuffer that cannot be created leaves an invalid entry. -/
theorem respects_rbufNew (cud : Addr) (size : BitVec 64) {call : RingbufferCall}
    (framed : FramedOn touched (call.malloc.map fun key => (.ringbuffer, key)) relation)
    (isTouched : touched .ringbuffer) :
    (rbufNew cud size call).Respects relation := by
  apply framed.respects_bind (framed.respects_rbufPipe call)
  intro pipefd
  apply framed.respects_bind (respects_new framed isTouched rfl)
  intro created
  cases created with
  | none => exact framed.respects_error _
  | some key =>
      apply framed.respects_bind
      · exact framed.respects_modifyEntry isTouched ⟨fun _ => id, fun _ => rfl⟩
      intro _
      have cancelled : (do
          Lua.modify (·.modifyEntry .ringbuffer key ObjectKind.ringbuffer.cancelValid)
          Lua.error "cannot create ringbuffer" : Lua (BitVec 32)).Respects relation := by
        apply framed.respects_bind
        · exact framed.respects_modifyEntry isTouched (ObjectKind.harmless_cancelValid _)
        · exact fun _ => framed.respects_error _
      cases call.ringbufferNew size call.mlock.toBoolean with
      | none =>
          cases usepipe : call.usepipe.toBoolean with
          | true =>
              apply framed.respects_bind (framed.respects_perform _)
              exact fun _ => cancelled
          | false => exact cancelled
      | some rbuf => exact framed.respects_pure _

theorem respects_ringbuffer {call : RingbufferCall}
    (framed : FramedOn touched (call.malloc.map fun key => (.ringbuffer, key)) relation)
    (isTouched : touched .ringbuffer) :
    (ringbuffer call).Respects relation := by
  apply framed.respects_create
  apply framed.respects_bind (framed.respects_check _ _)
  intro cud
  apply framed.respects_bind (framed.respects_ofExcept _)
  intro size
  apply framed.respects_bind (respects_rbufNew cud size framed isTouched)
  exact fun _ => framed.respects_pure _

theorem respects_threadCreate {call : ThreadCreate}
    (framed : FramedOn touched (call.malloc.map fun key => (.thread, key)) relation)
    (isTouched : touched .thread) :
    (threadCreate call).Respects relation := by
  apply framed.respects_create
  apply framed.respects_bind (framed.respects_check _ _)
  intro cud
  split
  next script isScript =>
    cases call.newstate with
    | none => exact framed.respects_error _
    | some state =>
        apply framed.respects_bind (framed.respects_loadchunk state call)
        intro loaded
        apply framed.respects_bind (framed.respects_ofExcept _)
        intro moved
        refine respects_newEntry framed isTouched rfl ⟨fun _ => id, fun _ => rfl⟩ ?_
        intro key
        apply framed.respects_bind (framed.respects_threadStart isTouched key state call)
        exact fun _ => framed.respects_pure _
  next notScript => exact framed.respects_error _

theorem respects_creation {creation : Creation}
    (framed : FramedOn touched
      (creation.malloc.map fun key => (creation.kind, key)) relation)
    (isTouched : touched creation.kind) : creation.run.Respects relation := by
  cases creation with
  | clientOpen call => exact respects_clientOpen framed isTouched
  | inputAudioPort call => exact respects_portRegister _ framed isTouched
  | outputAudioPort call => exact respects_portRegister _ framed isTouched
  | inputMidiPort call => exact respects_portRegister _ framed isTouched
  | outputMidiPort call => exact respects_portRegister _ framed isTouched
  | ringbuffer call => exact respects_ringbuffer framed isTouched
  | threadCreate call => exact respects_threadCreate framed isTouched

end

section

variable (framed : FramedOn touched allocated relation)

/-! ## Activation -/

section

variable (activity : FramesActivity relation)
include framed activity

theorem respects_activate_ (cud : Addr) (rc : Int) :
    (activate_ cud rc).Respects relation := by
  intro world
  rw [activate_apply]
  split
  · split
    · exact framed.trans (framed.perform world _) (activity _ _ _)
    · split
      · exact framed.trans (framed.perform world _) (activity _ _ _)
      · exact framed.perform world _
  · exact framed.refl world

theorem respects_deactivate_ (cud : Addr) (rc : Int) :
    (deactivate_ cud rc).Respects relation := by
  intro world
  rw [deactivate_apply]
  split
  · split
    · exact framed.refl world
    · split
      · exact framed.trans (framed.perform world _) (activity _ _ _)
      · split
        · exact framed.trans (framed.perform world _) (activity _ _ _)
        · exact framed.perform world _
  · exact framed.refl world

theorem respects_clientActivate (ref : LuaInteger) (rc : Int) :
    (clientActivate ref rc).Respects relation := by
  apply framed.respects_bind (framed.respects_check _ _)
  intro cud
  apply framed.respects_bind (framed.respects_activate_ activity cud rc)
  intro code
  split
  · exact framed.respects_error _
  · exact framed.respects_pure _

theorem respects_clientDeactivate (ref : LuaInteger) (rc : Int) :
    (clientDeactivate ref rc).Respects relation := by
  apply framed.respects_bind (framed.respects_check _ _)
  intro cud
  apply framed.respects_bind (framed.respects_deactivate_ activity cud rc)
  intro code
  split
  · exact framed.respects_error _
  · exact framed.respects_pure _

end

/-! ## Registration and closing -/

include framed

theorem respects_portUnregister (isTouched : touched .port) (ref : LuaInteger) :
    (portUnregister ref).Respects relation := by
  apply framed.respects_bind (framed.respects_check _ _)
  intro key world
  simp only [Lua.modify_apply]
  split
  · exact framed.refl world
  · apply framed.trans (framed.perform world _)
    exact framed.modifyEntry _ key isTouched (ObjectKind.harmless_cancelValid _)

theorem respects_processUnregister (isTouched : touched .client) (cud : Addr) :
    (processUnregister cud).Respects relation := by
  apply framed.respects_modifyEntry isTouched
  constructor
  · intro entry isValid
    rcases entry with ⟨valid, _, processState, _, _, _, _⟩
    cases processState <;> exact isValid
  · intro entry
    rcases entry with ⟨valid, _, processState, _, _, _, _⟩
    cases processState <;> rfl

theorem freeObjects (areTouched : ∀ kind, touched kind) (world : World) (cud : Addr) :
    relation world (world.freeObjects cud) := by
  rw [World.freeObjects]
  apply framed.trans
  · apply framed.trans (framed.freeAll world .thread cud threadFree (areTouched .thread))
    exact framed.freeAll _ .ringbuffer cud rbufFree (areTouched .ringbuffer)
  · exact framed.freeAll _ .port cud _ (areTouched .port)

section

variable (references : FramesReferences relation)
include references

theorem unregister (world : World) (cud : Addr) (kind : CallbackKind) :
    relation world (world.unregister cud kind) := by
  unfold World.unregister
  split
  · exact framed.refl world
  · split
    · exact framed.refl world
    · apply framed.trans (references.registry world _)
      exact references.setRef _ cud kind noRef

theorem respects_callbackUnregister (cud : Addr) :
    (callbackUnregister cud).Respects relation := by
  have foldl (kinds : List CallbackKind) (world : World) :
      relation world (kinds.foldl (·.unregister cud ·) world) := by
    induction kinds generalizing world with
    | nil => exact framed.refl world
    | cons kind rest ih =>
        exact framed.trans (framed.unregister references world cud kind) (ih _)
  intro world
  simp only [callbackUnregister, Lua.modify_apply]
  exact foldl _ world

theorem unregisterAll (isTouched : touched .client) (world : World) (cud : Addr) :
    relation world (world.unregisterAll cud) := by
  rw [World.unregisterAll]
  apply framed.respects_bind (framed.respects_callbackUnregister references cud)
  exact fun _ => framed.respects_processUnregister isTouched cud

theorem respects_registrationFunction (kind : CallbackKind)
    (registration : Registration) :
    (registrationFunction kind registration).Respects relation := by
  apply framed.respects_bind (framed.respects_check _ _)
  intro cud
  cases registration.function with
  | none => exact framed.respects_error _
  | some function =>
      apply framed.respects_bind fun world => framed.unregister references world cud kind
      intro _
      apply framed.respects_bind
      · intro world
        apply framed.trans (references.registry world _)
        exact references.setRef _ cud kind registration.ref
      · intro _
        split
        · apply framed.respects_bind fun world =>
            framed.unregister references world cud kind
          exact fun _ => framed.respects_error _
        · exact framed.respects_pure _

variable (activity : FramesActivity relation)
include activity

theorem retire (isTouched : touched .client)
    (world : World) (cud : Addr) (script : Bool) :
    relation world (world.retire cud script) := by
  have cancelled (world : World) :
      relation world (world.modifyEntry .client cud ObjectKind.client.cancelValid) :=
    framed.modifyEntry world cud isTouched (ObjectKind.harmless_cancelValid _)
  rw [World.retire]
  apply framed.trans (framed.trans (framed.perform world _) (activity _ _ _))
  cases script with
  | true =>
      exact framed.trans (framed.unregisterAll references isTouched _ cud) (cancelled _)
  | false => exact cancelled _

theorem respects_clientClose (areTouched : ∀ kind, touched kind) (cud : Addr) (rc : Int)
    (script : Bool) : (clientClose cud rc script).Respects relation := by
  intro world
  rcases clientClose_apply cud rc script world with ⟨code, middle, isDeactivated, _, run⟩
  have deactivated := framed.respects_deactivate_ activity cud rc world
  rw [isDeactivated] at deactivated
  rw [run]
  apply framed.trans (framed.trans deactivated (framed.freeObjects areTouched middle cud))
  exact framed.retire references activity (areTouched .client) _ cud script

theorem respects_clientCloseRef (areTouched : ∀ kind, touched kind)
    (ref : LuaInteger) (rc : Int) :
    (clientCloseRef ref rc).Respects relation := by
  apply framed.respects_bind (framed.respects_check _ _)
  exact fun cud => framed.respects_clientClose references activity areTouched cud rc true

end

/-! ## Notifications -/

theorem copy (src : CString) (world : World) :
    relation world (Precallback.copy src world).2 := by
  unfold Precallback.copy
  split
  · exact framed.luajackError world _
  · exact framed.refl world

section

variable {cud : Addr} (sampled : ∀ (world : World) nframes,
  relation world (world.modifyEntry .client cud fun cud =>
    { cud with sampleRate := nframes }))
include sampled

theorem store (ports : PortNames) (notification : Notification)
    (evt : Evt) (world : World) :
    relation world (notification.store ports cud evt world).2 := by
  cases notification with
  | sampleRate nframes => exact sampled world nframes
  | clientRegistration name reg => exact framed.copy name world
  | portRegistration portid reg => exact framed.copy (ports.name portid) world
  | shutdown code reason => exact framed.copy reason world
  | portRename portid oldName newName =>
      exact framed.trans (framed.copy oldName world) (framed.copy newName _)
  | portConnect a b connect =>
      exact framed.trans (framed.copy (ports.name a) world) (framed.copy (ports.name b) _)
  | _ => exact framed.refl world

theorem notify (ports : PortNames) (notification : Notification)
    (evtNew : Bool) (world : World) :
    relation world (notify ports notification cud evtNew world) := by
  rw [notify_eq, Precallback.precallback]
  split
  · exact framed.refl world
  · split
    · exact framed.refl world
    · split
      · exact framed.refl world
      · split
        · exact framed.luajackError world _
        · exact framed.trans (framed.store sampled ports notification _ world)
            (framed.elsewhere _ _ _)

end

theorem threadEnd (isTouched : touched .thread) (world : World) (tud : Addr)
    (error : Option String) : relation world (world.threadEnd tud error) := by
  have ended (status : TudStatus) : relation world
      (world.modifyEntry .thread tud fun tud =>
      { tud with status, state := none }) :=
    framed.modifyEntry world tud isTouched ⟨fun _ => id, fun _ => rfl⟩
  cases error with
  | none => exact ended .done
  | some message => exact framed.trans (ended .failed) (framed.luajackError _ message)

end

end FramedOn

/-! ## Sessions -/

namespace Operation

/-- The operations that activate and deactivate clients. -/
def setsActivity : Operation → Bool
  | activate .. | deactivate .. | clientClose .. => true
  | _ => false

/-- The operations that register and unregister callbacks. -/
def setsReferences : Operation → Bool
  | register .. | clientClose .. => true
  | _ => false

/-- The databases that an operation may change. -/
def touches : Operation → ObjectKind → Prop
  | create creation, kind => kind = creation.kind
  | clientClose .., _ => True
  | portUnregister _, kind => kind = .port
  | register .., kind | notify .., kind => kind = .client
  | threadEnd .., kind => kind = .thread
  | activate .., _ | deactivate .., _ | deliver, _ => False

end Operation

theorem FramedOn.operation {operation : Operation} {relation : World → World → Prop}
    (framed : FramedOn operation.touches operation.allocated relation)
    (activity : operation.setsActivity = true → FramesActivity relation)
    (references : operation.setsReferences = true → FramesReferences relation)
    (world : World) :
    relation world (operation.perform world) := by
  cases operation with
  | create creation => exact FramedOn.respects_creation framed rfl world
  | activate ref rc => exact framed.respects_clientActivate (activity rfl) ref rc world
  | deactivate ref rc =>
      exact framed.respects_clientDeactivate (activity rfl) ref rc world
  | clientClose ref rc =>
      exact framed.respects_clientCloseRef (references rfl)
        (activity rfl) (fun _ => trivial)
        ref rc world
  | portUnregister ref => exact framed.respects_portUnregister rfl ref world
  | register kind registration =>
      exact framed.respects_registrationFunction (references rfl) kind registration world
  | notify ports notification cud evtNew =>
      have sampled (world : World) (nframes : BitVec 32) : relation world
          (world.modifyEntry .client cud fun cud => { cud with sampleRate := nframes }) :=
        framed.modifyEntry world cud rfl ⟨fun _ => id, fun _ => rfl⟩
      exact framed.notify sampled ports notification evtNew world
  | deliver => exact framed.elsewhere world _ _
  | threadEnd tud error => exact framed.threadEnd rfl world tud error

theorem Framed.operation {operation : Operation} {relation : World → World → Prop}
    (framed : Framed operation.allocated relation)
    (activity : operation.setsActivity = true → FramesActivity relation)
    (references : operation.setsReferences = true → FramesReferences relation)
    (world : World) :
    relation world (operation.perform world) :=
  (framed.on operation.touches).operation activity references world

/-- The databases that an operation does not touch stay as they are. -/
theorem table_perform_of_not_touches {operation : Operation} {kind : ObjectKind}
    (untouched : ¬operation.touches kind) (world : World) :
    (operation.perform world).table kind = world.table kind := by
  have different {other : ObjectKind} (isTouched : operation.touches other) :
      kind ≠ other := by
    intro same
    rw [same] at untouched
    exact untouched isTouched
  have framed : FramedOn operation.touches operation.allocated fun before after : World =>
      after.table kind = before.table kind := {
    refl := fun _ => rfl
    trans := fun one two => two.trans one
    elsewhere := fun _ _ _ => by cases kind <;> rfl
    perform := fun world effect => world.table_perform effect kind
    modifyEntry := fun world _ _ _ isTouched _ =>
      world.table_setTable_of_ne (different isTouched) _
    insert := fun isTouched _ _ _ => World.table_setTable_of_ne _ (different isTouched) _
    freeAll := fun world kind cud free isTouched =>
      world.freeAll_table_of_ne kind cud free (different isTouched) }
  apply framed.operation
  · exact fun _ _ _ _ => by cases kind <;> rfl
  · intro sets
    have isTouched : operation.touches .client := by
      cases operation with
      | register => rfl
      | clientClose => trivial
      | _ => cases sets
    exact ⟨fun _ _ => by cases kind <;> rfl,
      fun world _ _ _ => world.table_setTable_of_ne (different isTouched) _⟩

end LuaJack
