import LuaJack.Object.Failure

/-!
# The queues of ports

Each client's entry has a queue that links the entries of its ports.  Entries are
appended to it when ports are created and stay in it, whether the ports are valid or
not.
-/

namespace LuaJack

open Atomic

namespace Process

/-- The client that a port belongs to, valid or not. -/
def portOwner (process : Process) (key : Addr) : Option Addr :=
  (process.world.search .port key).map Pud.cud

/-- The queue of a client lists exactly its ports, each of them once, and the client of a
port has an entry. -/
structure Linked (process : Process) : Prop where
  nodup : ∀ cud, (process.fifo cud).Nodup
  listed : ∀ cud key, key ∈ process.fifo cud ↔ process.portOwner key = some cud
  owned : ∀ cud key, process.portOwner key = some cud →
    (process.world.search .client cud).isSome = true

theorem linked_initial (descriptors : Finset Int) : (initial descriptors).Linked where
  nodup := fun _ => List.nodup_nil
  listed := fun _ _ => iff_of_false List.not_mem_nil
    (by simp [portOwner, initial, World.search, World.table, World.initial])
  owned := fun _ _ isOwner => by cases isOwner

variable {before after : Process}

/-- Only the queues, the owners of ports and the existence of clients matter. -/
theorem Linked.congr (linked : before.Linked) (fifo : after.fifo = before.fifo)
    (portOwner : ∀ key, after.portOwner key = before.portOwner key)
    (clients : ∀ cud, (before.world.search .client cud).isSome = true →
      (after.world.search .client cud).isSome = true) : after.Linked where
  nodup := fun cud => by
    rw [fifo]
    exact linked.nodup cud
  listed := fun cud key => by
    rw [fifo, portOwner]
    exact linked.listed cud key
  owned := fun cud key isOwner => by
    rw [portOwner] at isOwner
    exact clients cud (linked.owned cud key isOwner)

/-- A port without an owner is in no queue. -/
theorem Linked.not_mem (linked : before.Linked) {key : Addr}
    (absent : before.portOwner key = none) (cud : Addr) : key ∉ before.fifo cud := by
  rw [linked.listed, absent]
  simp

/-- A client without an entry has no ports. -/
theorem Linked.fifo_eq_nil (linked : before.Linked) {cud : Addr}
    (absent : before.world.search .client cud = none) (key : Addr) :
    before.portOwner key ≠ some cud := by
  intro isOwner
  have present := linked.owned cud key isOwner
  rw [absent] at present
  cases present

/-- A port is created. -/
theorem Linked.insert (linked : before.Linked) {cud key : Addr}
    (client : (before.world.search .client cud).isSome = true)
    (absent : before.portOwner key = none)
    (fifo : after.fifo = Function.update before.fifo cud (before.fifo cud ++ [key]))
    (portOwner : ∀ other, after.portOwner other =
      if other = key then some cud else before.portOwner other)
    (clients : ∀ cud, (before.world.search .client cud).isSome = true →
      (after.world.search .client cud).isSome = true) : after.Linked where
  nodup := by
    intro other
    rw [fifo]
    by_cases isCud : other = cud
    · rw [isCud, Function.update_self]
      apply (linked.nodup cud).append (List.nodup_singleton key)
      intro member inQueue isKey
      rw [List.mem_singleton.mp isKey] at inQueue
      exact linked.not_mem absent cud inQueue
    · rw [Function.update_of_ne isCud]
      exact linked.nodup other
  listed := by
    intro other member
    rw [fifo, portOwner]
    by_cases isCud : other = cud
    · rw [isCud, Function.update_self, List.mem_append, List.mem_singleton, linked.listed]
      by_cases isKey : member = key
      · simp [isKey]
      · simp [isKey]
    · rw [Function.update_of_ne isCud, linked.listed]
      by_cases isKey : member = key
      · simp [isKey, absent, Ne.symm isCud]
      · simp [isKey]
  owned := by
    intro other member isOwner
    apply clients
    rw [portOwner] at isOwner
    split at isOwner
    · rw [← Option.some.inj isOwner]
      exact client
    · exact linked.owned other member isOwner

/-- A client is created. -/
theorem Linked.init (linked : before.Linked) {key : Addr}
    (absent : before.world.search .client key = none)
    (fifo : after.fifo = Function.update before.fifo key [])
    (portOwner : ∀ other, after.portOwner other = before.portOwner other)
    (clients : ∀ cud, (before.world.search .client cud).isSome = true →
      (after.world.search .client cud).isSome = true) : after.Linked where
  nodup := by
    intro cud
    rw [fifo]
    by_cases isKey : cud = key
    · rw [isKey, Function.update_self]
      exact List.nodup_nil
    · rw [Function.update_of_ne isKey]
      exact linked.nodup cud
  listed := by
    intro cud member
    rw [fifo, portOwner]
    by_cases isKey : cud = key
    · rw [isKey, Function.update_self]
      exact iff_of_false List.not_mem_nil (linked.fifo_eq_nil absent member)
    · rw [Function.update_of_ne isKey]
      exact linked.listed cud member
  owned := by
    intro cud member isOwner
    rw [portOwner] at isOwner
    exact clients cud (linked.owned cud member isOwner)

end Process

/-! ## Functions that create -/

namespace Proc

open Process

/-- A creating function does nothing to the queues, or creates a port. -/
theorem portRegister_queues (flags : BitVec 64)
    (call : PortRegister) (process : Process) :
    ((portRegister flags call process).2.fifo = process.fifo ∧
      ∀ key, (portRegister flags call process).2.portOwner key = process.portOwner key) ∨
    ∃ key, (process.world.search .client call.ref).isSome = true ∧
      process.portOwner key = none ∧
      (portRegister flags call process).2.fifo =
        Function.update process.fifo call.ref (process.fifo call.ref ++ [key]) ∧
      ∀ other, (portRegister flags call process).2.portOwner other =
        if other = key then some call.ref else process.portOwner other := by
  have still {after : Process} (fifo : after.fifo = process.fifo)
      (table : after.world.table .port = process.world.table .port) :
      after.fifo = process.fifo ∧ ∀ key, after.portOwner key = process.portOwner key := by
    refine ⟨fifo, fun key => ?_⟩
    rw [portOwner, World.search, table]
    rfl
  by_cases allowed : process.world.mainThread = true ∧ ¬process.world.activeClients > 0
  · rw [portRegister, lift_checkcreate_bind_of_allowed allowed]
    simp only [if_true]
    by_cases valid : process.world.Valid .client call.ref
    · rw [cudCheck, lift_check_bind_of_valid valid]
      cases call.name.checkString 2 with
      | error message => exact .inl (still rfl rfl)
      | ok name =>
          have named : lift (Lua.ofExcept (.ok name)) process = (.ok name, process) := rfl
          have asked : lift (Lua.asks (·.client call.ref)) process =
              (.ok (process.world.client call.ref), process) := rfl
          rw [Fallible.bind_of_ok named, Fallible.bind_of_ok asked]
          rw [Fallible.bind_apply, jackPortRegister_apply]
          cases call.jackPortRegister
              (portRequest (process.world.client call.ref) name flags call.options) with
          | none => exact .inl (still rfl rfl)
          | some port =>
              dsimp only
              cases pudNew_cases call.malloc call.ref
                (process.registerJack (.port _ port)) with
              | inl failed =>
                  rcases failed with ⟨after, isNew, same, sameFifo⟩
                  rw [Fallible.bind_of_ok isNew]
                  exact .inl (still sameFifo (same.tables .port))
              | inr created =>
                  rcases created with ⟨key, absent, isNew⟩
                  rw [Fallible.bind_of_ok isNew]
                  have noOwner : process.portOwner key = none :=
                    congrArg (Option.map Pud.cud) absent
                  have present : (process.world.search .client call.ref).isSome =
                      true := by
                    cases valid with
                    | intro entry both =>
                        rw [both.1]
                        rfl
                  refine .inr ⟨key, present, noOwner, rfl, fun other => ?_⟩
                  have found := congrArg (Option.map Pud.cud) (World.search_created absent
                    (Pud.new call.ref) (fun pud => { pud with
                      port
                      flags := portFlags flags call.options
                      samplesize := 0
                      buf := none
                      nframes := 0
                      bufp := 0 }) other)
                  rw [apply_ite (Option.map Pud.cud)] at found
                  exact found
    · rw [cudCheck, lift_check_bind_of_not_valid valid]
      exact .inl (still rfl rfl)
  · rw [portRegister]
    cases lift_checkcreate_bind_of_not_allowed allowed _ with
    | intro world refused =>
        rw [refused.1]
        exact .inl (still rfl (refused.2 .port))

/-- Opening a client does nothing to the queues, or empties the queue of the new
client. -/
theorem clientOpen_queues (call : ClientOpen) (process : Process) :
    (clientOpen call process).2.fifo = process.fifo ∨
    ∃ key, process.world.search .client key = none ∧
      (clientOpen call process).2.fifo = Function.update process.fifo key [] := by
  by_cases allowed : process.world.mainThread = true ∧ ¬process.world.activeClients > 0
  · rw [clientOpen, lift_checkcreate_bind_of_allowed allowed]
    simp only [if_true]
    cases call.name.toString? with
    | none => exact .inl rfl
    | some name =>
        dsimp only
        cases clientRequest name call.options with
        | error message => exact .inl rfl
        | ok request =>
            have requested :
                lift (Lua.ofExcept (.ok request)) process = (.ok request, process) := rfl
            rw [Fallible.bind_of_ok requested, Fallible.bind_apply, jackClientOpen_apply]
            cases call.jackClientOpen request with
            | error status => exact .inl rfl
            | ok client =>
                dsimp only
                cases cudNew_cases call.malloc
                  (process.registerJack (.client client)) with
                | inl failed =>
                    rcases failed with ⟨after, isNew, _, sameFifo⟩
                    rw [Fallible.bind_of_ok isNew]
                    exact .inl sameFifo
                | inr created =>
                    rcases created with ⟨key, absent, isNew⟩
                    rw [Fallible.bind_of_ok isNew]
                    exact .inr ⟨key, absent, rfl⟩
  · rw [clientOpen]
    cases lift_checkcreate_bind_of_not_allowed allowed _ with
    | intro world refused =>
        rw [refused.1]
        exact .inl rfl

end Proc

/-! ## The life of a process -/

namespace Process

variable {before after : Process}

/-- Entries of ports are changed, but not their owners. -/
theorem portOwner_of_change {key : Addr} {change : Pud → Pud}
    (changed : after.world.search .port key = (before.world.search .port key).map change)
    (keeps : ∀ pud, (change pud).cud = pud.cud) :
    after.portOwner key = before.portOwner key := by
  rw [portOwner, changed, portOwner]
  cases before.world.search .port key with
  | none => rfl
  | some pud => exact congrArg some (keeps pud)

theorem cancelValid_cud (pud : Pud) :
    (ObjectKind.port.cancelValid pud).cud = pud.cud := rfl

/-- Closing a client leaves the entries of its ports in its queue. -/
theorem portOwner_clientClose (ref : LuaInteger)
    (rc : Int) (process : Process) (key : Addr) :
    (Proc.clientCloseRef ref rc process).2.portOwner key = process.portOwner key := by
  have isWorld := (Proc.clientCloseRef_projects ref rc process).2
  by_cases valid : process.world.Valid .client ref
  · cases clientClose_freed ref rc true process.world with
    | intro closed both =>
        have swept := both.2.objects .port (by simp) key
        rw [clientCloseRef, cudCheck, check_bind_of_valid valid, both.1] at isWorld
        have isClosed : closed = (Proc.clientCloseRef ref rc process).2.world :=
          isWorld.symm
        rw [isClosed] at swept
        apply portOwner_of_change swept
        intro pud
        split
        · exact cancelValid_cud pud
        · rfl
  · rw [clientCloseRef, cudCheck, check_bind_of_not_valid valid] at isWorld
    rw [portOwner, isWorld]
    rfl

theorem portOwner_portUnregister (ref : LuaInteger) (process : Process) (key : Addr) :
    (Proc.portUnregister ref process).2.portOwner key = process.portOwner key := by
  have isWorld := (Proc.portUnregister_projects ref process).2
  by_cases valid : process.world.Valid .port ref
  · cases valid with
    | intro pud both =>
        rw [portUnregister, pudCheck, check_bind_of_valid ⟨pud, both⟩] at isWorld
        simp only [Lua.modify_apply, both.1] at isWorld
        have changed := @World.search_modifyEntry
          (process.world.perform (portClose process.world ref pud)) .port ref
          ObjectKind.port.cancelValid key
        rw [← isWorld] at changed
        by_cases isRef : key = ref
        · rw [if_pos isRef] at changed
          exact portOwner_of_change changed cancelValid_cud
        · rw [if_neg isRef] at changed
          rw [portOwner, changed]
          rfl
  · rw [portUnregister, pudCheck, check_bind_of_not_valid valid] at isWorld
    rw [portOwner, isWorld]
    rfl

theorem linked_step {happening : Happening} (linked : before.Linked)
    (performed : life happening before = some after) : after.Linked := by
  rcases life_eq_some.mp performed with ⟨permitted, rfl⟩
  have clients (cud : Addr) (present : (before.world.search .client cud).isSome = true) :
      ((happening.perform before).world.search .client cud).isSome = true := by
    rw [happening.perform_world]
    exact (extends_perform happening.resolved before.world).kept .client cud present
  have untouched (untouched : ¬happening.resolved.touches .port) (key : Addr) :
      (happening.perform before).portOwner key = before.portOwner key := by
    rw [portOwner, happening.perform_world, World.search,
      table_perform_of_not_touches untouched]
    rfl
  rcases happening with ⟨operation, pipe⟩
  cases operation with
  | create creation =>
      have port (flags : BitVec 64) (call : PortRegister)
          (isPort : Happening.perform ⟨.create creation, pipe⟩ before =
            (Proc.portRegister flags call before).2) :
          (Happening.perform ⟨.create creation, pipe⟩ before).Linked := by
        rw [isPort] at clients ⊢
        cases Proc.portRegister_queues flags call before with
        | inl same => exact linked.congr same.1 same.2 clients
        | inr created =>
            rcases created with ⟨key, client, absent, fifo, owners⟩
            exact linked.insert client absent fifo owners clients
      cases creation with
      | clientOpen call =>
          have owners := untouched fun touched => by cases touched
          cases Proc.clientOpen_queues call before with
          | inl same => exact linked.congr same owners clients
          | inr created =>
              rcases created with ⟨key, absent, fifo⟩
              exact linked.init absent fifo owners clients
      | inputAudioPort call => exact port _ call rfl
      | outputAudioPort call => exact port _ call rfl
      | inputMidiPort call => exact port _ call rfl
      | outputMidiPort call => exact port _ call rfl
      | ringbuffer call =>
          have keeps : Proc.Keeps Process.fifo (Proc.ringbuffer call pipe) :=
            Proc.ringbuffer_keeps (fun _ _ => rfl) (fun _ _ => rfl) call pipe
          exact linked.congr (keeps before)
            (untouched fun touched => by cases touched) clients
      | threadCreate call =>
          exact linked.congr rfl (untouched fun touched => by cases touched) clients
  | clientClose ref rc =>
      have keeps : Proc.Keeps Process.fifo (Proc.clientCloseRef ref rc) :=
        Proc.clientCloseRef_keeps (fun _ _ => rfl) (fun _ _ => rfl) ref rc
      exact linked.congr (keeps before) (portOwner_clientClose ref rc before) clients
  | portUnregister ref =>
      have keeps : Proc.Keeps Process.fifo (Proc.portUnregister ref) :=
        Proc.portUnregister_keeps (fun _ _ => rfl) (fun _ _ => rfl) ref
      exact linked.congr (keeps before) (portOwner_portUnregister ref before) clients
  | _ => exact linked.congr rfl (untouched fun touched => by cases touched) clients

end Process

end LuaJack
