import LuaJack.Callback.Registered

/-!
# From notifications to Lua callbacks

A notification of JACK is encoded into an event, and later the event is decoded into
the arguments of a Lua callback.  All arguments survive this but one: the argument
of a freewheel notification is stored in a member that is not read.
-/

namespace LuaJack

namespace Notification

/-- What a Lua callback is documented to receive behind the client key. Nothing is
documented for modes and types that JACK does not define. -/
def documented (ports : PortNames) : Notification → Option (List LuaValue)
  | sampleRate nframes => some [.integer (nframes.setWidth 64)]
  | xrun | graphOrder => some []
  | freewheel starting =>
      some [.string (chars (if starting = 0 then "stopping" else "starting"))]
  | clientRegistration name reg =>
      some [.string name,
        .string (chars (if reg = 0 then "unregistered" else "registered"))]
  | portRegistration portid reg =>
      some [.string (ports.name portid),
        .string (chars (if reg = 0 then "unregistered" else "registered"))]
  | portRename _ oldName newName => some [.string oldName, .string newName]
  | portConnect a b connect =>
      some [.string (ports.name a), .string (ports.name b),
        .string (chars (if connect = 0 then "disconnected" else "connected"))]
  | shutdown code reason => some [.string (chars (clientPushstatus code)), .string reason]
  | latency mode =>
      if mode = 0 then some [.string (chars "capture")]
      else if mode = 1 then some [.string (chars "playback")]
      else none
  | session event =>
      let arguments := fun type => [.string (chars type), .string event.sessionDir,
        .string event.clientUuid]
      if event.type = 1 then some (arguments "save")
      else if event.type = 2 then some (arguments "save_and_quit")
      else if event.type = 3 then some (arguments "save_template")
      else none

/-- The strings that are copied into the event. -/
def names (ports : PortNames) : Notification → List CString
  | clientRegistration name _ => [name]
  | portRegistration portid _ => [ports.name portid]
  | portRename _ oldName newName => [oldName, newName]
  | portConnect a b _ => [ports.name a, ports.name b]
  | shutdown _ reason => [reason]
  | _ => []

/-- All strings are shorter than `MAX_ARG_LEN`. -/
def Short (notification : Notification) (ports : PortNames) : Prop :=
  ∀ name ∈ notification.names ports, name.length < maxArgLen

/-! ## Encoding -/

section Encoding

variable {ports : PortNames} {notification : Notification}
  {cud : Addr} {world : World} {evt : Evt}

theorem copy_short {src : CString} (short : src.length < maxArgLen) :
    Precallback.copy src world = (src, world) := by
  rw [Precallback.copy, if_neg (not_le.mpr short),
    List.take_of_length_le (le_of_lt short)]

/-- Strings that are not too long are copied as they are. -/
theorem store_queue (short : notification.Short ports) :
    (notification.store ports cud evt world).2.queue = world.queue := by
  have copied (name : CString) (member : name ∈ notification.names ports)
      (world : World) :
      Precallback.copy name world = (name, world) := copy_short (short name member)
  cases notification with
  | clientRegistration name reg => simp only [store, copied name (by simp [names])]
  | portRegistration portid reg =>
      simp only [store, copied (ports.name portid) (by simp [names])]
  | portRename portid oldName newName =>
      simp only [store, copied oldName (by simp [names]),
        copied newName (by simp [names])]
  | portConnect a b connect =>
      simp only [store, copied (ports.name a) (by simp [names]),
        copied (ports.name b) (by simp [names])]
  | shutdown code reason => simp only [store, copied reason (by simp [names])]
  | _ => rfl

/-- The event that a client receives that has registered a callback. -/
theorem notify_queue (short : notification.Short ports)
    (listening : world.ref (cud, notification.kind) ≠ noRef) :
    (notify ports notification cud true world).queue = world.queue ++
      [(notification.store ports cud { clientKey := cud, type := notification.kind.code }
          world).1] := by
  rw [notify_eq, Precallback.precallback]
  cases found : world.search .client cud with
  | none =>
      rw [World.ref, found] at listening
      exact absurd rfl listening
  | some entry =>
      cases isValid : entry.valid with
      | false =>
          simp only [World.ref, found, isValid] at listening
          exact absurd rfl listening
      | true =>
          rw [World.ref_of_valid found isValid] at listening
          simp only [isValid, listening, Bool.not_true, Bool.false_eq_true, if_false]
          rw [← @store_queue ports notification cud world
            { clientKey := cud, type := notification.kind.code } short]

/-- The code and the client of the event. -/
theorem store_type : (notification.store ports cud evt world).1.type = evt.type := by
  cases notification <;> rfl

theorem store_clientKey :
    (notification.store ports cud evt world).1.clientKey = evt.clientKey := by
  cases notification <;> rfl

end Encoding

/-! ## Decoding -/

section Decoding

variable {ports : PortNames} {notification : Notification}
  {cud : Addr} {world : World} {evt : Evt}

theorem latencyPushmode_toOption (mode : BitVec 32) :
    (latencyPushmode mode).toOption.map (fun mode => [pushLiteral mode]) =
      (latency mode).documented ports := by
  simp only [latencyPushmode, documented]
  split
  · rfl
  · split <;> rfl

theorem sessionPushtype_toOption (event : SessionEvent) :
    ((sessionPushtype event.type).toOption.map fun type =>
        [pushLiteral type, .string event.sessionDir, .string event.clientUuid]) =
      (session event).documented ports := by
  simp only [sessionPushtype, documented]
  split
  · rfl
  · split
    · rfl
    · split <;> rfl

/-- What is stored is what the handler reads, except for freewheel notifications. -/
theorem arguments_store (short : notification.Short ports)
    (notFreewheel : notification.kind ≠ .freewheel) :
    (notification.store ports cud evt world).1.arguments notification.kind =
      notification.documented ports := by
  have copied (name : CString) (member : name ∈ notification.names ports)
      (world : World) :
      Precallback.copy name world = (name, world) := copy_short (short name member)
  have literal (value : BitVec 32) (one other : String) :
      pushLiteral (if value ≠ 0 then one else other) =
        .string (chars (if value = 0 then other else one)) := by
    rw [pushLiteral, ite_not]
  cases notification with
  | sampleRate nframes => rfl
  | xrun => rfl
  | graphOrder => rfl
  | freewheel starting => exact absurd rfl notFreewheel
  | clientRegistration name reg =>
      simp only [store, kind, Evt.arguments, documented,
        copied name (by simp [names]), literal, pushString]
  | portRegistration portid reg =>
      simp only [store, kind, Evt.arguments, documented,
        copied (ports.name portid) (by simp [names]), literal, pushString]
  | portRename portid oldName newName =>
      simp only [store, kind, Evt.arguments, documented, copied oldName (by simp [names]),
        copied newName (by simp [names]), pushString]
  | portConnect a b connect =>
      simp only [store, kind, Evt.arguments, documented,
        copied (ports.name a) (by simp [names]),
        copied (ports.name b) (by simp [names]), literal, pushString]
  | shutdown code reason =>
      simp only [store, kind, Evt.arguments, documented, copied reason (by simp [names]),
        pushString, pushLiteral]
  | latency mode => exact latencyPushmode_toOption mode
  | session event => exact sessionPushtype_toOption event

end Decoding

/-! ## Translation -/

/-- The client is notified in one world, and the event that it receives is dispatched in a
later one. Then the function is called with the documented arguments. -/
def Translated (notification : Notification) (ports : PortNames) (cud : Addr)
    (functions : LuaFunctions) (function : LuaFunction) (world later : World) : Prop :=
  ∃ evt, (notify ports notification cud true world).queue = world.queue ++ [evt] ∧
    (later.dispatch functions evt).2.calls =
      (notification.documented ports).toList.map fun args =>
      ⟨function, .integer cud :: args⟩

/-- The notifications that are translated correctly. -/
def Translatable (notification : Notification) (ports : PortNames) (cud : Addr)
    (function : LuaFunction) (later : World) : Prop :=
  match notification with
  | freewheel starting => starting = 0
  | session event => ((session event).documented ports).isSome →
      later.lookup (cud, .latency) = some function
  | _ => True

end Notification

open Notification in
/-- A client that has registered a callback is notified, and the event is dispatched
while the client is valid and the program does not exit. Then the function is called
with the client key and the documented arguments, in their order, unless freewheel mode
starts or the function is a session callback that is not the latency callback as
well. -/
theorem translated_iff (ports : PortNames) (notification : Notification) (cud : Addr)
    (functions : LuaFunctions) (function : LuaFunction) (world later : World)
    (short : notification.Short ports)
    (listening : world.ref (cud, notification.kind) ≠ noRef)
    (running : later.exiting = none) (valid : later.Valid .client cud)
    (isRegistered : later.lookup (cud, notification.kind) = some function) :
    notification.Translated ports cud functions function world later ↔
      notification.Translatable ports cud function later := by
  have queued := notify_queue short listening
  generalize isEvt : (notification.store ports cud
    { clientKey := cud, type := notification.kind.code } world).1 = evt at queued
  have isType : evt.type = notification.kind.code := by rw [← isEvt, store_type]
  have isKey : evt.clientKey = cud := by rw [← isEvt, store_clientKey]
  rcases valid with ⟨entry, found, isValid⟩
  have called := @calls_dispatch later functions evt entry notification.kind isType
    (by rw [isKey]; exact found) isValid running
  have slot (kind : CallbackKind) : later.registry (entry.refs kind) =
      later.lookup (cud, kind) := by
    rw [World.lookup, World.ref_of_valid found isValid]
  have isTranslated : notification.Translated ports cud functions function world later ↔
      (later.dispatch functions evt).2.calls =
        (notification.documented ports).toList.map fun args =>
            ⟨function, .integer cud :: args⟩ := by
    constructor
    · rintro ⟨other, alsoQueued, isCalled⟩
      rw [queued] at alsoQueued
      cases List.append_cancel_left alsoQueued
      exact isCalled
    · exact fun isCalled => ⟨evt, queued, isCalled⟩
  rw [isTranslated, called, slot, isKey, ← isEvt]
  cases notification with
  | freewheel starting =>
      simp only [store, kind, CallbackKind.slot,
        Evt.arguments, documented, Translatable] at *
      have different : chars "stopping" ≠ chars "starting" := by decide
      rw [isRegistered]
      by_cases isStopping : starting = 0
      · simp [isStopping, pushLiteral]
      · apply iff_of_false _ isStopping
        intro same
        rw [if_neg isStopping] at same
        simp [pushLiteral] at same
        exact different same
  | session event =>
      rw [arguments_store short (by rintro ⟨⟩)]
      simp only [kind, CallbackKind.slot, Translatable]
      cases (Notification.session event).documented ports with
      | none => simp
      | some args =>
          cases later.lookup (cud, .latency) with
          | none => simp
          | some other => simp
  | _ =>
      rw [arguments_store short (by rintro ⟨⟩)]
      apply iff_of_true _ trivial
      simp only [kind, CallbackKind.slot] at isRegistered ⊢
      rw [isRegistered]
      simp only [Option.toList_some, List.map_cons, List.map_nil]
      exact List.map_eq_flatMap.symm

/-- A client that has registered one callback. -/
def World.registering (cud : Addr) (kind : CallbackKind)
    (function : LuaFunction) : World :=
  ((session.run (LuaJack.registering cud kind function) initial).getD initial)

theorem translated_iff_portConnect :
    (Notification.portConnect 1 2 1).Translated
      (fun _ => some (chars "system:capture_1")) 0x601010
      (fun _ world => (.ok [], world)) 7 (World.registering 0x601010 .portConnect 7)
      (World.registering 0x601010 .portConnect 7) := by
  have short : (Notification.portConnect 1 2 1).Short fun _ =>
      some (chars "system:capture_1") := by
    intro name member
    simp only [Notification.names, List.mem_cons, List.not_mem_nil, or_false] at member
    rcases member with rfl | rfl <;> decide
  exact (translated_iff _ _ _ _ _ _ _ short (by decide) rfl ⟨_, rfl, rfl⟩ rfl).mpr trivial

/-- When freewheel mode starts, the callback is told that it stops. -/
theorem not_always_translated : ¬∀ ports notification cud functions function world later,
    Notification.Short notification ports →
      World.ref world (cud, notification.kind) ≠ noRef →
    later.exiting = none → later.Valid .client cud →
    later.lookup (cud, notification.kind) = some function →
      notification.Translated ports cud functions function world later := by
  intro always
  have translated := always (fun _ => none) (.freewheel 1) 0x601010
      (fun _ world => (.ok [], world)) 7
    (World.registering 0x601010 .freewheel 7) (World.registering 0x601010 .freewheel 7)
    (fun _ member => by cases member) (by decide) rfl ⟨_, rfl, rfl⟩ rfl
  rcases translated with ⟨evt, queued, called⟩
  cases queued
  revert called
  decide

end LuaJack
