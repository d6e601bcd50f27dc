import LuaJack.Basic

/-!
# Events

What JACK notifies a client of outside the real-time thread is stored in an
event, one untagged record for all kinds of notifications, until the main thread
dispatches it.
-/

namespace LuaJack

/-- The kinds of callbacks that are not executed in the real-time thread. -/
inductive CallbackKind where
  | sampleRate
  | xrun
  | graphOrder
  | freewheel
  | clientRegistration
  | portRegistration
  | portRename
  | portConnect
  | shutdown
  | latency
  | session
  deriving DecidableEq, Repr

namespace CallbackKind

/-- The `CT_` code of a kind. -/
def code : CallbackKind → Nat
  | sampleRate => 1
  | xrun => 2
  | graphOrder => 3
  | freewheel => 4
  | clientRegistration => 5
  | portRegistration => 6
  | portRename => 7
  | portConnect => 8
  | shutdown => 9
  | latency => 10
  | session => 11

/-- The kind with a given `CT_` code. -/
def ofCode? : Nat → Option CallbackKind
  | 1 => some sampleRate
  | 2 => some xrun
  | 3 => some graphOrder
  | 4 => some freewheel
  | 5 => some clientRegistration
  | 6 => some portRegistration
  | 7 => some portRename
  | 8 => some portConnect
  | 9 => some shutdown
  | 10 => some latency
  | 11 => some session
  | _ => none

@[simp] theorem ofCode?_code (kind : CallbackKind) : ofCode? kind.code = some kind := by
  cases kind <;> rfl

end CallbackKind

/-- A `jack_session_event_t`, as far as it is passed to the callback. -/
structure SessionEvent where
  type : BitVec 32
  sessionDir : CString
  clientUuid : CString
  deriving DecidableEq, Repr

/-- A `luajack_evt_t`. The defaults are those of `evt_new`, which clears the memory. -/
structure Evt where
  clientKey : Addr
  /-- A `CT_` code. -/
  type : Nat
  nframes : BitVec 32 := 0
  op : BitVec 32 := 0
  code : BitVec 32 := 0
  mode : BitVec 32 := 0
  sessionEvent : Option SessionEvent := none
  arg1 : Option CString := none
  arg2 : Option CString := none
  deriving DecidableEq, Repr

end LuaJack
