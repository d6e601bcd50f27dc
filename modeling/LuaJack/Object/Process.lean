import LuaJack.Fallible
import LuaJack.Object.Frame
import Mathlib.Data.Multiset.Filter

/-!
# The process around the databases

Beside their entries, objects hold resources of the process: the clients and ports
that are registered in JACK, the descriptors of pipes, and for each client the queue
of its ports.  The functions that acquire and give back resources are repeated here
with these steps; what they do to the databases is what they do without them.
-/

namespace LuaJack

open Atomic

/-- What JACK knows of the process. -/
inductive JackObject where
  | client (client : Handle)
  | port (client port : Handle)
  deriving DecidableEq

/-- The client in JACK that an object goes away with. -/
def JackObject.handle : JackObject → Handle
  | client handle => handle
  | port handle _ => handle

/-- The databases and the resources. -/
structure Process where
  world : World
  /-- The open descriptors. -/
  descriptors : Finset Int
  jackObjects : Multiset JackObject
  /-- The members `fifo` of the clients' entries. -/
  fifo : Addr → List Addr

namespace Process

/-- The state at program start, with the descriptors that are open then. -/
def initial (descriptors : Finset Int) : Process where
  world := .initial
  descriptors
  jackObjects := 0
  fifo := fun _ => []

/-- Open both ends of a pipe. -/
def openPipe (process : Process) (pipefd : Int × Int) : Process :=
  { process with descriptors := insert pipefd.1 (insert pipefd.2 process.descriptors) }

/-- Close both ends of a pipe. -/
def closePipe (process : Process) (pipefd : Int × Int) : Process :=
  { process with descriptors := (process.descriptors.erase pipefd.1).erase pipefd.2 }

/-- Something is registered in JACK. -/
def registerJack (process : Process) (object : JackObject) : Process :=
  { process with jackObjects := object ::ₘ process.jackObjects }

/-- A port is unregistered in JACK. -/
def unregisterJack (process : Process) (client port : Handle) : Process :=
  { process with jackObjects := process.jackObjects.erase (.port client port) }

/-- A client is closed in JACK, and its ports with it. -/
def closeJack (process : Process) (client : Handle) : Process :=
  { process with jackObjects :=
    process.jackObjects.filter fun object => object.handle ≠ client }

/-- `cud_fifo_insert`. -/
def cudFifoInsert (process : Process) (cud pud : Addr) : Process :=
  { process with fifo := Function.update process.fifo cud (process.fifo cud ++ [pud]) }

/-- `SIMPLEQ_INIT`. -/
def cudFifoInit (process : Process) (cud : Addr) : Process :=
  { process with fifo := Function.update process.fifo cud [] }

end Process

/-- A function called from Lua, with the resources that it acquires and gives back. -/
abbrev Proc := Fallible Process String

/-- A function that handles no resources. -/
def Proc.lift {α : Type} (function : Lua α) : Proc α := fun process =>
  ((function process.world).1, { process with world := (function process.world).2 })

/-- The answers that `syncpipe_new` receives: the ends of a pipe from `pipe`, and what
`fcntl` returns when these are made non-blocking. -/
structure PipeAnswers where
  pipe : Option (Int × Int)
  setfl : Int × Int

namespace Proc

theorem lift_of_ok {α : Type} {function : Lua α}
    {process : Process} {value : α} {world : World}
    (returns : function process.world = (.ok value, world)) :
    lift function process = (.ok value, { process with world }) := by
  rw [lift, returns]

theorem lift_of_error {α : Type} {function : Lua α} {process : Process} {message : String}
    {world : World} (fails : function process.world = (.error message, world)) :
    lift function process = (.error message, { process with world }) := by
  rw [lift, fails]

section Checks

variable {α : Type} {kind : ObjectKind} {ref : LuaInteger} {process : Process}

theorem lift_check_bind_of_valid (valid : process.world.Valid kind ref)
    (rest : LuaInteger → Proc α) :
    (lift (check kind ref) >>= rest) process = rest ref process :=
  Fallible.bind_of_ok (lift_of_ok (check_of_valid valid))

theorem lift_check_bind_of_not_valid (invalid : ¬process.world.Valid kind ref)
    (rest : LuaInteger → Proc α) :
    (lift (check kind ref) >>= rest) process = (.error kind.invalidReference, process) :=
  Fallible.bind_of_error (lift_of_error (check_eq_error invalid))

theorem lift_checkcreate_bind_of_allowed
    (allowed : process.world.mainThread = true ∧ ¬process.world.activeClients > 0)
    (rest : Bool → Proc α) : (lift checkcreate >>= rest) process = rest true process :=
  Fallible.bind_of_ok (lift_of_ok (checkcreate_eq_true.mpr ⟨allowed, rfl⟩))

end Checks

/-! ## Creation -/

/-- `jack_client_open`. -/
def jackClientOpen (call : ClientOpen) (request : ClientRequest) :
    Proc (Except (BitVec 32) Handle) := do
  match call.jackClientOpen request with
  | .error status => return .error status
  | .ok client =>
      Fallible.modify (·.registerJack (.client client))
      return .ok client

theorem jackClientOpen_apply (call : ClientOpen)
    (request : ClientRequest) (process : Process) :
    jackClientOpen call request process =
      match call.jackClientOpen request with
      | .error status => (.ok (.error status), process)
      | .ok client => (.ok (.ok client), process.registerJack (.client client)) := by
  unfold jackClientOpen
  cases call.jackClientOpen request with
  | error status => rfl
  | ok client => rfl

/-- `cud_new`. -/
def cudNew (malloc : Option Addr) : Proc (Option Addr) := do
  match ← lift (new .client malloc Cud.new) with
  | none => return none
  | some key =>
      Fallible.modify (·.cudFifoInit key)
      return some key

/-- `ClientOpen`. -/
def clientOpen (call : ClientOpen) : Proc (Option LuaInteger) := do
  if ← lift checkcreate then
    match call.name.toString? with
    | none => Fallible.error "bad argument #1 (string expected)"
    | some name =>
        let request ← lift (Lua.ofExcept (clientRequest name call.options))
        match ← jackClientOpen call request with
        | .error status =>
            Fallible.error s!"cannot create client ({clientPushstatus status})"
        | .ok client =>
            match ← cudNew call.malloc with
            | none =>
                lift (Lua.modify (·.perform (.jackClientClose none client)))
                Fallible.modify (·.closeJack client)
                Fallible.error "cannot create userdata for client"
            | some key =>
                lift (Lua.modify (·.modifyEntry .client key fun cud => { cud with
                  client, sampleRate := call.sampleRate, bufferSize := call.bufferSize }))
                return some key
  else
    return none

/-- `jack_port_register`. -/
def jackPortRegister (call : PortRegister) (request : PortRequest) :
    Proc (Option Handle) := do
  match call.jackPortRegister request with
  | none => return none
  | some port =>
      Fallible.modify (·.registerJack (.port request.client port))
      return some port

theorem jackPortRegister_apply (call : PortRegister)
    (request : PortRequest) (process : Process) :
    jackPortRegister call request process =
      match call.jackPortRegister request with
      | none => (.ok none, process)
      | some port =>
          (.ok (some port), process.registerJack (.port request.client port)) := by
  unfold jackPortRegister
  cases call.jackPortRegister request with
  | none => rfl
  | some port => rfl

/-- `pud_new`. -/
def pudNew (malloc : Option Addr) (cud : Addr) : Proc (Option Addr) := do
  match ← lift (new .port malloc (Pud.new cud)) with
  | none => return none
  | some key =>
      Fallible.modify (·.cudFifoInsert cud key)
      return some key

/-- `PortRegister`. -/
def portRegister (flags : BitVec 64) (call : PortRegister) :
    Proc (Option LuaInteger) := do
  if ← lift checkcreate then
    let cud ← lift (cudCheck call.ref)
    let name ← lift (Lua.ofExcept (call.name.checkString 2))
    let client ← lift (Lua.asks (·.client cud))
    match ← jackPortRegister call (portRequest client name flags call.options) with
    | none => Fallible.error "cannot register port"
    | some port =>
        match ← pudNew call.malloc cud with
        | none =>
            lift (Lua.modify (·.perform (.jackPortUnregister none client port)))
            Fallible.modify (·.unregisterJack client port)
            Fallible.error "cannot create userdata for port"
        | some key =>
            lift (Lua.modify (·.modifyEntry .port key fun pud => { pud with
              port
              flags := portFlags flags call.options
              samplesize := 0
              buf := none
              nframes := 0
              bufp := 0 }))
            return some key
  else
    return none

/-- `syncpipe_new`. -/
def syncpipeNew (answers : PipeAnswers) : Proc (Option (Int × Int)) := do
  match answers.pipe with
  | none => return none
  | some pipefd =>
      Fallible.modify (·.openPipe pipefd)
      if answers.setfl.1 + answers.setfl.2 < 0 then
        return none
      else
        return some pipefd

/-- The pipe of a new ringbuffer. -/
def rbufPipe (call : RingbufferCall) (answers : PipeAnswers) : Proc (Int × Int) := do
  if call.usepipe.toBoolean then
    match ← syncpipeNew answers with
    | none => Fallible.error "cannot create pipe"
    | some pipefd => return pipefd
  else
    return (-1, -1)

/-- `rbuf_new`. -/
def rbufNew (cud : Addr) (size : BitVec 64)
    (call : RingbufferCall) (answers : PipeAnswers) :
    Proc (BitVec 32) := do
  let pipefd ← rbufPipe call answers
  match ← lift (new .ringbuffer call.malloc Rud.new) with
  | none => Fallible.error "cannot create userdata"
  | some key =>
      let rbuf := call.ringbufferNew size call.mlock.toBoolean
      lift (Lua.modify (·.modifyEntry .ringbuffer key fun rud =>
        { rud with cud, pipefd, rbuf }))
      match rbuf with
      | none =>
          if call.usepipe.toBoolean then
            lift (Lua.modify (·.perform (.closePipe pipefd)))
            Fallible.modify (·.closePipe pipefd)
          lift
            (Lua.modify (·.modifyEntry .ringbuffer key ObjectKind.ringbuffer.cancelValid))
          Fallible.error "cannot create ringbuffer"
      | some _ => return key.setWidth 32

/-- `Ringbuffer`. -/
def ringbuffer (call : RingbufferCall) (answers : PipeAnswers) :
    Proc (Option LuaInteger) := do
  if ← lift checkcreate then
    let cud ← lift (cudCheck call.ref)
    let size ← lift (Lua.ofExcept call.size)
    let key ← rbufNew cud size call answers
    return some (key.signExtend 64)
  else
    return none

/-- The functions that create objects. The Lua states and locks of threads are no
resources that are counted here. -/
def create (answers : PipeAnswers) : Creation → Proc (Option LuaInteger)
  | .clientOpen call => clientOpen call
  | .inputAudioPort call => portRegister (jackPortIsInput ||| luaJackPortIsAudio) call
  | .outputAudioPort call => portRegister (jackPortIsOutput ||| luaJackPortIsAudio) call
  | .inputMidiPort call => portRegister (jackPortIsInput ||| luaJackPortIsMidi) call
  | .outputMidiPort call => portRegister (jackPortIsOutput ||| luaJackPortIsMidi) call
  | .ringbuffer call => ringbuffer call answers
  | .threadCreate call => lift (threadCreate call)

/-! ## Closing -/

/-- `port_close`, for the valid ports of a client or for a single one: what JACK does. -/
def jackUnregister (process : Process) (puds : List Pud) : Process :=
  puds.foldl
    (fun process pud => process.unregisterJack (process.world.client pud.cud) pud.port)
    process

/-- `port_close_all`. -/
def portCloseAll (cud : Addr) : Proc Unit := do
  Fallible.modify fun process => jackUnregister process
    (process.world.puds.entries.map Prod.snd |>.filter (ObjectKind.port.ownedBy cud))
  lift (LuaJack.portCloseAll cud)

/-- `PortUnregister`. -/
def portUnregister (ref : LuaInteger) : Proc Unit := do
  let key ← lift (pudCheck ref)
  Fallible.modify fun process =>
    jackUnregister process (process.world.search .port key).toList
  lift (LuaJack.portUnregister ref)

/-- `client_close`. -/
def clientClose (cud : Addr) (rc : Int) (script : Bool) : Proc Unit := do
  let _ ← lift (deactivate_ cud rc)
  lift (threadFreeAll cud)
  lift (rbufFreeAll cud)
  portCloseAll cud
  Fallible.modify fun process => process.closeJack (process.world.client cud)
  lift (jackClientClose cud)
  if script then
    lift (callbackUnregister cud)
    lift (processUnregister cud)
  lift (Lua.modify (·.modifyEntry .client cud ObjectKind.client.cancelValid))

/-- `ClientClose`. -/
def clientCloseRef (ref : LuaInteger) (rc : Int) : Proc Unit := do
  let cud ← lift (cudCheck ref)
  clientClose cud rc true

/-! ## The databases -/

/-- The function does to the databases, and returns, what a function without resources
does. -/
def Projects {α : Type} (function : Proc α) (projected : Lua α) : Prop :=
  ∀ process, (function process).1 = (projected process.world).1 ∧
    (function process).2.world = (projected process.world).2

section Projects

variable {α β : Type} {function : Proc α} {projected : Lua α}
variable {rest : α → Proc β} {projectedRest : α → Lua β}

theorem projects_lift (function : Lua α) : Projects (lift function) function :=
  fun _ => ⟨rfl, rfl⟩

theorem projects_pure (value : α) :
    Projects (pure value) (pure value) := fun _ => ⟨rfl, rfl⟩

theorem projects_error (message : String) :
    Projects (Fallible.error message : Proc α) (Lua.error message) := fun _ => ⟨rfl, rfl⟩

theorem projects_bind (first : Projects function projected)
    (second : ∀ value, Projects (rest value) (projectedRest value)) :
    Projects (function >>= rest) (projected >>= projectedRest) := by
  intro process
  have projection := first process
  rw [Fallible.bind_apply, Lua.bind_apply]
  cases result : function process with
  | mk answer middle =>
      cases projectedResult : projected process.world with
      | mk projectedAnswer world =>
          rw [result, projectedResult] at projection
          cases projection.1
          cases projection.2
          cases answer with
          | ok value => exact second value middle
          | error message => exact ⟨rfl, rfl⟩

/-- A step that concerns only resources. -/
theorem projects_modify {change : Process → Process}
    (sameWorld : ∀ process, (change process).world = process.world)
    {rest : PUnit → Proc β} {projected : Lua β}
    (projects : Projects (rest ⟨⟩) projected) :
    Projects (Fallible.modify change >>= rest) projected := by
  intro process
  have projection := projects (change process)
  rw [sameWorld] at projection
  exact projection

/-- A function that handles resources and returns what is known anyway. -/
theorem projects_bind_pure {value : α} (first : Projects function (pure value))
    {projected : Lua β} (second : Projects (rest value) projected) :
    Projects (function >>= rest) projected := by
  intro process
  have projection := first process
  rw [Fallible.bind_apply]
  cases result : function process with
  | mk answer middle =>
      rw [result] at projection
      cases projection.1
      have isWorld : middle.world = process.world := projection.2
      rw [← isWorld]
      exact second middle

/-- A creation that may not be allowed. -/
theorem projects_checkcreate {body : Proc (Option LuaInteger)}
    {projected : Lua (Option LuaInteger)} (projects : Projects body projected) :
    Projects (do if ← lift checkcreate then body else return none)
      (do if ← checkcreate then projected else return none) := by
  apply projects_bind (projects_lift _)
  intro allowed
  cases allowed with
  | true => exact projects
  | false => exact projects_pure none

/-- A new entry is put into a queue. -/
theorem projects_new {created : Lua (Option Addr)} {queue : Addr → Process → Process}
    (sameWorld : ∀ key process, (queue key process).world = process.world) :
    Projects
      (do
        match ← lift created with
        | none => return none
        | some key =>
            Fallible.modify (queue key)
            return some key)
      created := by
  have split : created >>= pure = created := Lua.bind_pure _
  rw [← congrArg (Projects _) split]
  apply projects_bind (projects_lift created)
  intro result
  cases result with
  | none => exact projects_pure none
  | some key => exact projects_modify (sameWorld key) (projects_pure _)

/-- An object of JACK is closed again when there is no entry for it. -/
theorem projects_entry {close : World → World}
    {forget : Process → Process} {message : String}
    {assign : Addr → World → World}
    (sameWorld : ∀ process, (forget process).world = process.world)
    (created : Option Addr) :
    Projects
      (match created with
      | none => do
          lift (Lua.modify close)
          Fallible.modify forget
          Fallible.error message
      | some key => do
          lift (Lua.modify (assign key))
          return some (key : LuaInteger))
      (match created with
      | none => do
          Lua.modify close
          Lua.error message
      | some key => do
          Lua.modify (assign key)
          return some (key : LuaInteger)) := by
  cases created with
  | none =>
      apply projects_bind (projects_lift _)
      exact fun _ => projects_modify sameWorld (projects_error _)
  | some key => exact projects_bind (projects_lift _) fun _ => projects_pure _

end Projects

theorem jackClientOpen_projects (call : ClientOpen) (request : ClientRequest) :
    Projects (jackClientOpen call request) (pure (call.jackClientOpen request)) := by
  unfold jackClientOpen
  cases call.jackClientOpen request with
  | error status => exact projects_pure _
  | ok client =>
      apply projects_modify
      · exact fun _ => rfl
      · exact projects_pure _

theorem cudNew_projects (malloc : Option Addr) :
    Projects (cudNew malloc) (new .client malloc Cud.new) :=
  projects_new fun _ _ => rfl

theorem clientOpen_projects (call : ClientOpen) :
    Projects (clientOpen call) (LuaJack.clientOpen call) := by
  apply projects_checkcreate
  cases call.name.toString? with
  | none => exact projects_error _
  | some name =>
      apply projects_bind (projects_lift _)
      intro request
      apply projects_bind_pure (jackClientOpen_projects call request)
      cases call.jackClientOpen request with
      | error status => exact projects_error _
      | ok client =>
          exact projects_bind (cudNew_projects _) (projects_entry fun _ => rfl)

theorem jackPortRegister_projects (call : PortRegister) (request : PortRequest) :
    Projects (jackPortRegister call request) (pure (call.jackPortRegister request)) := by
  unfold jackPortRegister
  cases call.jackPortRegister request with
  | none => exact projects_pure none
  | some port =>
      apply projects_modify
      · exact fun _ => rfl
      · exact projects_pure _

theorem pudNew_projects (malloc : Option Addr) (cud : Addr) :
    Projects (pudNew malloc cud) (new .port malloc (Pud.new cud)) :=
  projects_new fun _ _ => rfl

theorem portRegister_projects (flags : BitVec 64) (call : PortRegister) :
    Projects (portRegister flags call) (LuaJack.portRegister flags call) := by
  apply projects_checkcreate
  apply projects_bind (projects_lift _)
  intro cud
  apply projects_bind (projects_lift _)
  intro name
  apply projects_bind (projects_lift _)
  intro client
  apply projects_bind_pure (jackPortRegister_projects call _)
  cases call.jackPortRegister (portRequest client name flags call.options) with
  | none => exact projects_error _
  | some port => exact projects_bind (pudNew_projects _ cud) (projects_entry fun _ => rfl)

end Proc

/-- What `syncpipe_new` returns. -/
def PipeAnswers.outcome (answers : PipeAnswers) : Option (Int × Int) :=
  answers.pipe.filter fun _ => 0 ≤ answers.setfl.1 + answers.setfl.2

/-- The call without the steps of `syncpipe_new`. -/
def RingbufferCall.resolve (answers : PipeAnswers) (call : RingbufferCall) :
    RingbufferCall :=
  { call with syncpipeNew := answers.outcome }

/-- The call without the steps of `syncpipe_new`. -/
def Creation.resolve (answers : PipeAnswers) : Creation → Creation
  | ringbuffer call => ringbuffer (call.resolve answers)
  | creation => creation

namespace Proc

theorem syncpipeNew_projects (answers : PipeAnswers) :
    Projects (syncpipeNew answers) (pure answers.outcome) := by
  unfold syncpipeNew PipeAnswers.outcome
  cases answers.pipe with
  | none => exact projects_pure none
  | some pipefd =>
      apply projects_modify
      · exact fun _ => rfl
      by_cases failed : answers.setfl.1 + answers.setfl.2 < 0
      · rw [if_pos failed, Option.filter_some_neg (by simpa using failed)]
        exact projects_pure none
      · rw [if_neg failed, Option.filter_some_pos (by simpa using failed)]
        exact projects_pure _

theorem rbufPipe_projects (call : RingbufferCall) (answers : PipeAnswers) :
    Projects (rbufPipe call answers) (LuaJack.rbufPipe (call.resolve answers)) := by
  unfold rbufPipe LuaJack.rbufPipe RingbufferCall.resolve
  cases call.usepipe.toBoolean with
  | false => exact projects_pure _
  | true =>
      apply projects_bind_pure (syncpipeNew_projects answers)
      cases answers.outcome with
      | none => exact projects_error _
      | some pipefd => exact projects_pure _

theorem rbufNew_projects (cud : Addr) (size : BitVec 64) (call : RingbufferCall)
    (answers : PipeAnswers) :
    Projects (rbufNew cud size call answers)
      (LuaJack.rbufNew cud size (call.resolve answers)) := by
  apply projects_bind (rbufPipe_projects call answers)
  intro pipefd
  apply projects_bind (projects_lift _)
  intro created
  cases created with
  | none => exact projects_error _
  | some key =>
      apply projects_bind (projects_lift _)
      intro _
      have sameRbuf : (call.resolve answers).ringbufferNew size
          (call.resolve answers).mlock.toBoolean =
          call.ringbufferNew size call.mlock.toBoolean := rfl
      rw [sameRbuf]
      cases call.ringbufferNew size call.mlock.toBoolean with
      | some rbuf => exact projects_pure _
      | none =>
          by_cases usepipe : call.usepipe.toBoolean = true
          · have sameUsepipe : (call.resolve answers).usepipe.toBoolean = true := usepipe
            rw [if_pos usepipe, if_pos sameUsepipe]
            apply projects_bind (projects_lift _)
            intro _
            apply projects_modify
            · exact fun _ => rfl
            apply projects_bind (projects_lift _)
            exact fun _ => projects_error _
          · have sameUsepipe : ¬(call.resolve answers).usepipe.toBoolean = true := usepipe
            rw [if_neg usepipe, if_neg sameUsepipe]
            apply projects_bind (projects_lift _)
            exact fun _ => projects_error _

theorem ringbuffer_projects (call : RingbufferCall) (answers : PipeAnswers) :
    Projects (ringbuffer call answers) (LuaJack.ringbuffer (call.resolve answers)) := by
  apply projects_checkcreate
  apply projects_bind (projects_lift _)
  intro cud
  apply projects_bind (projects_lift _)
  intro size
  apply projects_bind (rbufNew_projects cud size call answers)
  exact fun _ => projects_pure _

/-- What a creation does to the databases. -/
theorem create_projects (answers : PipeAnswers) (creation : Creation) :
    Projects (create answers creation) (creation.resolve answers).run := by
  cases creation with
  | clientOpen call => exact clientOpen_projects call
  | inputAudioPort call => exact portRegister_projects _ call
  | outputAudioPort call => exact portRegister_projects _ call
  | inputMidiPort call => exact portRegister_projects _ call
  | outputMidiPort call => exact portRegister_projects _ call
  | ringbuffer call => exact ringbuffer_projects call answers
  | threadCreate call => exact projects_lift _

theorem jackUnregister_world (puds : List Pud) (process : Process) :
    (jackUnregister process puds).world = process.world := by
  induction puds generalizing process with
  | nil => rfl
  | cons pud rest ih => exact ih _

theorem portUnregister_projects (ref : LuaInteger) :
    Projects (portUnregister ref) (LuaJack.portUnregister ref) := by
  intro process
  by_cases valid : process.world.Valid .port ref
  · rw [portUnregister, pudCheck, lift_check_bind_of_valid valid, Fallible.modify_bind]
    simp only [lift, jackUnregister_world, and_self]
  · have unregistered : LuaJack.portUnregister ref process.world =
        (.error ObjectKind.port.invalidReference, process.world) :=
      check_bind_of_not_valid valid _
    have stopped : portUnregister ref process =
        (.error ObjectKind.port.invalidReference, process) :=
      lift_check_bind_of_not_valid valid _
    simp [stopped, unregistered]

theorem portCloseAll_projects (cud : Addr) :
    Projects (portCloseAll cud) (LuaJack.portCloseAll cud) := by
  apply projects_modify
  · exact fun _ => jackUnregister_world _ _
  · exact projects_lift _

theorem clientClose_projects (cud : Addr) (rc : Int) (script : Bool) :
    Projects (clientClose cud rc script) (LuaJack.clientClose cud rc script) := by
  apply projects_bind (projects_lift _)
  intro _
  apply projects_bind (projects_lift _)
  intro _
  apply projects_bind (projects_lift _)
  intro _
  apply projects_bind (portCloseAll_projects cud)
  intro _
  apply projects_modify
  · exact fun _ => rfl
  apply projects_bind (projects_lift _)
  intro _
  cases script with
  | false => exact projects_lift _
  | true =>
      apply projects_bind (projects_lift _)
      intro _
      apply projects_bind (projects_lift _)
      exact fun _ => projects_lift _

theorem clientCloseRef_projects (ref : LuaInteger) (rc : Int) :
    Projects (clientCloseRef ref rc) (LuaJack.clientCloseRef ref rc) := by
  apply projects_bind (projects_lift _)
  exact fun cud => clientClose_projects cud rc true

end Proc

/-! ## Resources that are left alone -/

namespace Proc

open Fallible

section Keeps

variable {α β : Type} {access : Process → β}

/-- What is accessed stays the same. -/
def Keeps (access : Process → β) (function : Proc α) : Prop :=
  function.Respects fun before after => access after = access before

theorem keeps_bind {γ : Type} {function : Proc α} {rest : α → Proc γ}
    (first : Keeps access function) (second : ∀ value, Keeps access (rest value)) :
    Keeps access (function >>= rest) :=
  respects_bind (fun one two => two.trans one) first second

theorem keeps_pure (value : α) : Keeps access (pure value) := fun _ => rfl

theorem keeps_error (message : String) : Keeps access (Fallible.error message : Proc α) :=
  fun _ => rfl

variable (databases : ∀ (process : Process) world, access { process with world } =
  access process)
include databases

theorem keeps_lift (function : Lua α) : Keeps access (lift function) :=
  fun process => databases process _

theorem keeps_checkcreate {body : Proc (Option LuaInteger)} (keeps : Keeps access body) :
    Keeps access (do if ← lift checkcreate then body else return none) := by
  apply keeps_bind (keeps_lift databases _)
  intro allowed
  cases allowed with
  | true => exact keeps
  | false => exact keeps_pure none

theorem keeps_new {created : Lua (Option Addr)} {queue : Addr → Process → Process}
    (queues : ∀ key process, access (queue key process) = access process) :
    Keeps access (do
      match ← lift created with
      | none => return none
      | some key =>
          Fallible.modify (queue key)
          return some key) := by
  apply keeps_bind (keeps_lift databases _)
  intro result
  cases result with
  | none => exact keeps_pure none
  | some key => exact queues key

theorem keeps_entry {close : World → World}
    {forget : Process → Process} {message : String}
    {assign : Addr → World → World}
    (forgets : ∀ process, access (forget process) = access process)
    (created : Option Addr) :
    Keeps access
      (match created with
      | none => do
          lift (Lua.modify close)
          Fallible.modify forget
          Fallible.error message
      | some key => do
          lift (Lua.modify (assign key))
          return some (key : LuaInteger)) := by
  cases created with
  | none =>
      apply keeps_bind (keeps_lift databases _)
      intro _
      exact keeps_bind forgets fun _ => keeps_error _
  | some key =>
      apply keeps_bind (keeps_lift databases _)
      exact fun _ => keeps_pure _

section Jack

variable (jack : ∀ (process : Process) jackObjects,
  access { process with jackObjects } = access process)
include jack

omit databases in
theorem jackUnregister_keeps (puds : List Pud) (process : Process) :
    access (jackUnregister process puds) = access process := by
  induction puds generalizing process with
  | nil => rfl
  | cons pud rest ih =>
      have first : access
          (process.unregisterJack (process.world.client pud.cud) pud.port) =
          access process := jack process _
      exact (ih _).trans first

theorem portUnregister_keeps (ref : LuaInteger) : Keeps access (portUnregister ref) := by
  apply keeps_bind (keeps_lift databases _)
  intro key
  apply keeps_bind
  · exact fun process => jackUnregister_keeps jack _ process
  · exact fun _ => keeps_lift databases _

theorem clientClose_keeps (cud : Addr) (rc : Int) (script : Bool) :
    Keeps access (clientClose cud rc script) := by
  have lifted (function : Lua Unit) : Keeps access (lift function) :=
    keeps_lift databases function
  apply keeps_bind (keeps_lift databases _)
  intro _
  apply keeps_bind (lifted _)
  intro _
  apply keeps_bind (lifted _)
  intro _
  apply keeps_bind
  · apply keeps_bind
    · exact fun process => jackUnregister_keeps jack _ process
    · exact fun _ => lifted _
  intro _
  apply keeps_bind
  · exact fun process => jack process _
  intro _
  apply keeps_bind (lifted _)
  intro _
  cases script with
  | false => exact lifted _
  | true =>
      apply keeps_bind (lifted _)
      intro _
      apply keeps_bind (lifted _)
      exact fun _ => lifted _

theorem clientCloseRef_keeps (ref : LuaInteger) (rc : Int) :
    Keeps access (clientCloseRef ref rc) := by
  apply keeps_bind (keeps_lift databases _)
  exact fun cud => clientClose_keeps databases jack cud rc true

section Queues

variable (queues : ∀ (process : Process) fifo, access { process with fifo } =
  access process)
include queues

theorem clientOpen_keeps (call : ClientOpen) : Keeps access (clientOpen call) := by
  apply keeps_checkcreate databases
  cases call.name.toString? with
  | none => exact keeps_error _
  | some name =>
      apply keeps_bind (keeps_lift databases _)
      intro request
      apply keeps_bind
      · unfold jackClientOpen
        cases call.jackClientOpen request with
        | error status => exact keeps_pure _
        | ok client => exact fun process => jack process _
      intro opened
      cases opened with
      | error status => exact keeps_error _
      | ok client =>
          apply keeps_bind
          · exact keeps_new databases fun _ process => queues process _
          · exact keeps_entry databases fun process => jack process _

theorem portRegister_keeps (flags : BitVec 64) (call : PortRegister) :
    Keeps access (portRegister flags call) := by
  apply keeps_checkcreate databases
  apply keeps_bind (keeps_lift databases _)
  intro cud
  apply keeps_bind (keeps_lift databases _)
  intro name
  apply keeps_bind (keeps_lift databases _)
  intro client
  apply keeps_bind
  · unfold jackPortRegister
    cases call.jackPortRegister (portRequest client name flags call.options) with
    | none => exact keeps_pure none
    | some port => exact fun process => jack process _
  intro registered
  cases registered with
  | none => exact keeps_error _
  | some port =>
      apply keeps_bind
      · exact keeps_new databases fun _ process => queues process _
      · exact keeps_entry databases fun process => jack process _

end Queues

end Jack

theorem ringbuffer_keeps (pipes : ∀ (process : Process) descriptors,
    access { process with descriptors } = access process) (call : RingbufferCall)
    (answers : PipeAnswers) : Keeps access (ringbuffer call answers) := by
  apply keeps_checkcreate databases
  apply keeps_bind (keeps_lift databases _)
  intro cud
  apply keeps_bind (keeps_lift databases _)
  intro size
  apply keeps_bind
  · apply keeps_bind
    · unfold rbufPipe syncpipeNew
      cases call.usepipe.toBoolean with
      | false => exact keeps_pure _
      | true =>
          cases answers.pipe with
          | none => exact keeps_error _
          | some pipefd =>
              intro process
              by_cases failed : answers.setfl.1 + answers.setfl.2 < 0
              · simp only [failed, if_true]
                exact pipes process _
              · simp only [failed, if_false]
                exact pipes process _
    intro pipefd
    apply keeps_bind (keeps_lift databases _)
    intro created
    cases created with
    | none => exact keeps_error _
    | some key =>
        apply keeps_bind (keeps_lift databases _)
        intro _
        cases call.ringbufferNew size call.mlock.toBoolean with
        | some rbuf => exact keeps_pure _
        | none =>
            have cancels : Keeps access (do
                lift (Lua.modify
                  (·.modifyEntry .ringbuffer key ObjectKind.ringbuffer.cancelValid))
                Fallible.error "cannot create ringbuffer" : Proc (BitVec 32)) :=
              keeps_bind (keeps_lift databases _) fun _ => keeps_error _
            cases call.usepipe.toBoolean with
            | false => exact cancels
            | true =>
                apply keeps_bind (keeps_lift databases _)
                intro _
                apply keeps_bind
                · exact fun process => pipes process _
                · exact fun _ => cancels
  · exact fun _ => keeps_pure _

end Keeps

end Proc

/-! ## Lives -/

/-- Something that happens in the life of a process. -/
structure Happening where
  operation : Operation
  /-- The answers to the creation of a ringbuffer. -/
  pipe : PipeAnswers

namespace Happening

/-- The operation as the databases see it. -/
def resolved (happening : Happening) : Operation :=
  match happening.operation with
  | .create creation => .create (creation.resolve happening.pipe)
  | operation => operation

/-- Besides the answers that the databases depend on, `pipe` returns two different
descriptors that are not open. -/
def permitted (happening : Happening) (process : Process) : Bool :=
  happening.resolved.permitted process.world &&
    happening.pipe.pipe.all fun pipefd => 0 ≤ pipefd.1 && 0 ≤
      pipefd.2 && pipefd.1 ≠ pipefd.2 &&
      pipefd.1 ∉ process.descriptors && pipefd.2 ∉ process.descriptors

/-- The process afterwards. -/
def perform (happening : Happening) (process : Process) : Process :=
  match happening.operation with
  | .create creation => (Proc.create happening.pipe creation process).2
  | .clientClose ref rc => (Proc.clientCloseRef ref rc process).2
  | .portUnregister ref => (Proc.portUnregister ref process).2
  | operation => { process with world := operation.perform process.world }

/-- Opening a client. -/
def clientOpen (key : Addr) : Happening where
  operation := .create (.clientOpen (.plain key))
  pipe := ⟨none, 0, 0⟩

/-- Creating a ringbuffer with a pipe. -/
def ringbuffer (ref : LuaInteger) (key : Addr) (pipefd : Int × Int) : Happening where
  operation :=
    .create (.ringbuffer { RingbufferCall.plain ref key with usepipe := .boolean true })
  pipe := ⟨some pipefd, 0, 0⟩

/-- Closing a client. -/
def clientClose (ref : LuaInteger) : Happening where
  operation := .clientClose ref 0
  pipe := ⟨none, 0, 0⟩

end Happening

/-- The life of a process. -/
def life : Machine Happening Process := fun happening process =>
  if happening.permitted process then some (happening.perform process) else none

theorem life_eq_some {happening : Happening} {before after : Process} :
    life happening before = some after ↔
      happening.permitted before = true ∧ happening.perform before = after := by
  simp [life]

theorem Happening.perform_world (happening : Happening) (process : Process) :
    (happening.perform process).world = happening.resolved.perform process.world := by
  rcases happening with ⟨operation, pipe⟩
  cases operation with
  | create creation => exact (Proc.create_projects pipe creation process).2
  | clientClose ref rc => exact (Proc.clientCloseRef_projects ref rc process).2
  | portUnregister ref => exact (Proc.portUnregister_projects ref process).2
  | _ => rfl

/-- What happens in the life of a process is a session, as far as the databases are
concerned. -/
theorem session_of_life {happening : Happening} {before after : Process}
    (performed : life happening before = some after) :
    session happening.resolved before.world = some after.world := by
  have both := life_eq_some.mp performed
  have permitted := (Bool.and_eq_true_iff.mp both.1).1
  rw [session_eq_some, ← both.2, happening.perform_world]
  exact ⟨permitted, rfl⟩

end LuaJack
