import LuaJack.Ringbuffer.Protocol

/-!
# The mailbox

What a ringbuffer is for: a first-in first-out queue of messages between one
writer and one reader.  A mailbox is such a queue with atomic operations, and a
sequence of events is a *history* of the mailbox when every event is what the
corresponding operation returns in the state that the preceding events lead to.
-/

namespace LuaJack.Ringbuffer

open Atomic

/-- Tag and data of a message, as a reader sees them (the tag modulo 2^32). -/
abbrev Content := BitVec 32 × List UInt8

/-- A tag survives the way through a Lua integer. -/
@[simp] theorem setWidth_signExtend_tag (tag : BitVec 32) :
    (tag.signExtend 64).setWidth 32 = tag := by
  ext i inside
  simp only [BitVec.getElem_setWidth, BitVec.getLsbD_signExtend]
  simp only [inside, if_true, BitVec.getLsbD_eq_getElem]
  simp
  omega

/-- The content of a message. -/
def Message.content (message : Message) : Content := (message.tag, message.data)

/-! ## Calls and events -/

/-- A call of the writer, with data shorter than 2^32 bytes. -/
inductive WriterCall where
  | luawrite (tag : Option LuaInteger) (data : Option (List UInt8))
      (short : (data.getD []).length < 2 ^ 32)
  | cwrite (tag : BitVec 32) (data : Option (List UInt8))
      (short : (data.getD []).length < 2 ^ 32)

/-- A call of the reader. -/
inductive ReaderCall where
  | luaread (advance : Bool)
  | cread (bufsz : Nat) (advance : Bool)
  | luareadAdvance
  | creadAdvance

/-- What a returning call reports. -/
inductive Event where
  | wrote (call : WriterCall) (outcome : WriteOutcome)
  | luaread (advance : Bool) (result : Option (LuaInteger × List UInt8))
  | cread (advance : Bool) (outcome : ReadOutcome)
  | advanced (success : Bool)

/-- The message that a call of the writer asks to send, if its tag is valid. -/
def WriterCall.message? : WriterCall → Option Message
  | .luawrite none _ _ => none
  | .luawrite (some tag) data short => some ⟨tag.setWidth 32, data.getD [], short⟩
  | .cwrite tag data short => some ⟨tag, data.getD [], short⟩

/-- The function that a call of the writer is a call of. -/
def WriterCall.write : WriterCall → RingProgram WriteOutcome
  | .luawrite tag data _ => ringbufferLuawrite tag data
  | .cwrite tag data _ => ringbufferCwrite tag data

/-- The code that a call of the writer runs. -/
def WriterCall.program (call : WriterCall) : RingProgram Event := do
  let outcome ← call.write
  return .wrote call outcome

/-- The code that a call of the reader runs. -/
def ReaderCall.program : ReaderCall → RingProgram Event
  | .luaread advance => do return .luaread advance (← ringbufferLuaread advance)
  | .cread bufsz advance => do return .cread advance (← ringbufferCread bufsz advance)
  | .luareadAdvance => do return .advanced (← ringbufferLuareadAdvance)
  | .creadAdvance => do return .advanced (← ringbufferCreadAdvance)

namespace Event

/-- The event is an `UNEXPECTED_ERROR` exit. -/
def Unexpected : Event → Prop
  | .wrote _ outcome => outcome = .unexpectedError
  | _ => False

/-- The message that a successful write has sent. -/
def sent : Event → Option Message
  | .wrote call .written => call.message?
  | _ => none

/-- What a read or peek has returned: `some none` is the result that there is no
message. A read refused for lack of space in the caller's buffer returns nothing. -/
def reading : Event → Option (Option Content)
  | .luaread _ result => some (result.map fun (tag, data) => (tag.setWidth 32, data))
  | .cread _ (.message tag data) => some (some (tag, data))
  | .cread _ .empty => some none
  | _ => none

/-- What a peek has shown. -/
def peeked : Event → Option Content
  | .luaread false (some (tag, data)) => some (tag.setWidth 32, data)
  | .cread false (.message tag data) => some (tag, data)
  | _ => none

/-- What the event has consumed: `some none` is a message that was skipped unread. -/
def consumed : Event → Option (Option Content)
  | .luaread true (some (tag, data)) => some (some (tag.setWidth 32, data))
  | .cread true (.message tag data) => some (some (tag, data))
  | .advanced true => some none
  | _ => none

end Event

/-- The messages sent, in order. -/
def written (events : List Event) : List Message := events.filterMap Event.sent

/-- What the reader has consumed, in order. -/
def consumptions (events : List Event) : List (Option Content) :=
  events.filterMap Event.consumed

/-- A consumption shows the message, unless it skipped it unread. -/
def Agrees (consumption : Option Content) (message : Message) : Prop :=
  ∀ content, consumption = some content → content = message.content

/-! ## The abstract queue -/

/-- The unread messages, first to last. -/
abbrev Mailbox := List Message

namespace Mailbox

/-- Look at the first message and check what was seen of it. -/
def take (mailbox : Mailbox) (advance : Bool) (seen : Message → Bool) : Option Mailbox :=
  match mailbox with
  | [] => none
  | message :: rest =>
      if seen message then some (if advance then rest else message :: rest) else none

/-- The mailbox is found empty. -/
def vacant (mailbox : Mailbox) : Option Mailbox :=
  if mailbox = [] then some mailbox else none

/-- The mailbox after an event; `none` when an atomic mailbox in this state could
not have reported the event. -/
def accept (mailbox : Mailbox) : Event → Option Mailbox
  | .wrote call .written => call.message?.map fun message => mailbox ++ [message]
  | .wrote _ .noSpace => some mailbox
  | .wrote _ .invalidTag => some mailbox
  | .wrote _ .unexpectedError => none
  | .luaread _ none => mailbox.vacant
  | .luaread advance (some (tag, data)) =>
      mailbox.take advance fun message => tag = message.tag.signExtend 64 ∧
        data = message.data
  | .cread _ .empty => mailbox.vacant
  | .cread _ (.tooSmall needed) =>
      mailbox.take false fun message => needed = message.data.length
  | .cread advance (.message tag data) =>
      mailbox.take advance fun message => tag = message.tag ∧ data = message.data
  | .advanced true => mailbox.take true fun _ => true
  | .advanced false => mailbox.vacant

/-- The mailbox after a sequence of events, when they are a history of it. -/
def after (mailbox : Mailbox) (events : List Event) : Option Mailbox :=
  events.foldlM accept mailbox

@[simp] theorem after_nil (mailbox : Mailbox) : mailbox.after [] = some mailbox := rfl

theorem after_append (mailbox : Mailbox) (first second : List Event) :
    mailbox.after (first ++ second) = (mailbox.after first).bind (·.after second) := by
  simp only [after, List.foldlM_append]
  rfl

theorem after_cons (mailbox : Mailbox) (event : Event) (events : List Event) :
    mailbox.after (event :: events) = (mailbox.accept event).bind (·.after events) := by
  simp only [after, List.foldlM_cons]
  rfl

theorem vacant_eq_some {mailbox result : Mailbox} (eq : mailbox.vacant = some result) :
    mailbox = [] ∧ result = [] := by
  unfold vacant at eq
  split at eq
  next empty =>
    cases eq
    exact ⟨empty, empty⟩
  next => cases eq

theorem take_eq_some {mailbox result : Mailbox} {advance : Bool} {seen : Message → Bool}
    (eq : mailbox.take advance seen = some result) :
    ∃ message rest, mailbox = message :: rest ∧ seen message = true ∧
      result = if advance then rest else message :: rest := by
  cases mailbox with
  | nil => cases eq
  | cons message rest =>
      simp only [take] at eq
      split at eq
      next accepted =>
        cases eq
        exact ⟨message, rest, rfl, accepted, rfl⟩
      next => cases eq

/-- A read from Lua that finds a message shows the first one. -/
theorem accept_luaread {mailbox result : Mailbox} {advance : Bool} {tag : LuaInteger}
    {data : List UInt8}
    (eq : mailbox.accept (.luaread advance (some (tag, data))) = some result) :
    ∃ message rest, mailbox = message :: rest ∧
      (tag.setWidth 32, data) = message.content ∧
      result = if advance then rest else message :: rest := by
  rcases take_eq_some eq with ⟨message, rest, rfl, seen, rfl⟩
  simp only [Bool.decide_and, Bool.and_eq_true, decide_eq_true_eq] at seen
  refine ⟨message, rest, rfl, ?_, rfl⟩
  simp [Message.content, seen.1, seen.2]

/-- A read from C that finds a message shows the first one. -/
theorem accept_cread {mailbox result : Mailbox} {advance : Bool} {tag : BitVec 32}
    {data : List UInt8}
    (eq : mailbox.accept (.cread advance (.message tag data)) = some result) :
    ∃ message rest, mailbox = message :: rest ∧ (tag, data) = message.content ∧
      result = if advance then rest else message :: rest := by
  rcases take_eq_some eq with ⟨message, rest, rfl, seen, rfl⟩
  simp only [Bool.decide_and, Bool.and_eq_true, decide_eq_true_eq] at seen
  refine ⟨message, rest, rfl, ?_, rfl⟩
  rw [seen.1, seen.2, Message.content]

/-- Everything an event can do: send a message at the end, consume the first one
after showing it truly or not at all, or leave the mailbox alone. -/
theorem accept_eq_some {mailbox result : Mailbox} {event : Event}
    (eq : mailbox.accept event = some result) :
    (∃ message, event.sent = some message ∧ event.consumed = none ∧
      result = mailbox ++ [message]) ∨
    (∃ message consumption, event.sent = none ∧ event.consumed = some consumption ∧
      Agrees consumption message ∧ mailbox = message :: result) ∨
    (event.sent = none ∧ event.consumed = none ∧ result = mailbox) := by
  cases event with
  | wrote call outcome =>
      cases outcome with
      | written =>
          left
          simp only [accept, Option.map_eq_some_iff] at eq
          rcases eq with ⟨message, valid, rfl⟩
          exact ⟨message, valid, rfl, rfl⟩
      | noSpace | invalidTag =>
          right; right
          cases eq
          exact ⟨rfl, rfl, rfl⟩
      | unexpectedError => cases eq
  | luaread advance found =>
      right
      cases found with
      | none =>
          right
          rcases vacant_eq_some eq with ⟨rfl, rfl⟩
          exact ⟨rfl, by cases advance <;> rfl, rfl⟩
      | some found =>
          rcases accept_luaread eq with ⟨message, rest, rfl, shown, rfl⟩
          cases advance with
          | true =>
              left
              refine ⟨message, _, rfl, rfl, ?_, rfl⟩
              intro content same
              cases same
              exact shown
          | false =>
              right
              exact ⟨rfl, rfl, rfl⟩
  | cread advance outcome =>
      right
      cases outcome with
      | empty =>
          right
          rcases vacant_eq_some eq with ⟨rfl, rfl⟩
          exact ⟨rfl, by cases advance <;> rfl, rfl⟩
      | tooSmall needed =>
          right
          rcases take_eq_some eq with ⟨message, rest, rfl, seen, rfl⟩
          exact ⟨rfl, by cases advance <;> rfl, rfl⟩
      | message tag data =>
          rcases accept_cread eq with ⟨message, rest, rfl, shown, rfl⟩
          cases advance with
          | true =>
              left
              refine ⟨message, _, rfl, rfl, ?_, rfl⟩
              intro content same
              cases same
              exact shown
          | false =>
              right
              exact ⟨rfl, rfl, rfl⟩
  | advanced success =>
      right
      cases success with
      | true =>
          left
          rcases take_eq_some eq with ⟨message, rest, rfl, _, rfl⟩
          exact ⟨message, none, rfl, rfl, by simp [Agrees], rfl⟩
      | false =>
          right
          rcases vacant_eq_some eq with ⟨rfl, rfl⟩
          exact ⟨rfl, rfl, rfl⟩

/-- In a history, the messages sent are those consumed, in order, followed by
those still in the mailbox. -/
theorem written_eq {before mailbox : Mailbox} {events : List Event}
    (legal : before.after events = some mailbox) :
    ∃ received, before ++ written events = received ++ mailbox ∧
      List.Forall₂ Agrees (consumptions events) received := by
  induction events generalizing before with
  | nil =>
      cases legal
      exact ⟨[], by simp [written], by simp [consumptions]⟩
  | cons event events ih =>
      rw [after_cons, Option.bind_eq_some_iff] at legal
      rcases legal with ⟨middle, accepted, rest⟩
      rcases ih rest with ⟨received, split, agree⟩
      rcases accept_eq_some accepted with
        ⟨message, sent, consumed, rfl⟩ | ⟨message,
          consumption, sent, consumed, agrees, rfl⟩ |
        ⟨sent, consumed, rfl⟩
      · refine ⟨received, ?_, ?_⟩
        · simpa [written, sent] using split
        · simpa [consumptions, consumed] using agree
      · refine ⟨message :: received, ?_, ?_⟩
        · simpa [written, sent] using split
        · simpa [consumptions, consumed] using ⟨agrees, agree⟩
      · refine ⟨received, ?_, ?_⟩
        · simpa [written, sent] using split
        · simpa [consumptions, consumed] using agree

/-- As long as nothing is consumed, the first message stays the first. -/
theorem head_of_no_consumption {mailbox result : Mailbox} {message : Message}
    {events : List Event} (first : mailbox.head? = some message)
    (legal : mailbox.after events = some result) (none : consumptions events = []) :
    result.head? = some message := by
  induction events generalizing mailbox with
  | nil =>
      cases legal
      exact first
  | cons event events ih =>
      rw [after_cons, Option.bind_eq_some_iff] at legal
      rcases legal with ⟨middle, accepted, rest⟩
      rcases accept_eq_some accepted with
        ⟨_, sent, consumed, rfl⟩ | ⟨_, consumption, sent, consumed, agrees, rfl⟩ |
        ⟨sent, consumed, rfl⟩
      · apply ih _ rest
        · simpa [consumptions, consumed] using none
        · simp [first]
      · simp [consumptions, consumed] at none
      · apply ih first rest
        simpa [consumptions, consumed] using none

/-- A peek shows the first message. -/
theorem head_of_peeked {mailbox result : Mailbox} {event : Event} {content : Content}
    (shown : event.peeked = some content)
    (accepted : mailbox.accept event = some result) :
    ∃ message, result.head? = some message ∧ content = message.content := by
  unfold Event.peeked at shown
  split at shown
  · cases shown
    rcases accept_luaread accepted with ⟨message, rest, rfl, same, rfl⟩
    exact ⟨message, rfl, same⟩
  · cases shown
    rcases accept_cread accepted with ⟨message, rest, rfl, same, rfl⟩
    exact ⟨message, rfl, same⟩
  · cases shown

/-- A read of a mailbox that is not empty returns the first message. -/
theorem reading_eq_head {mailbox result : Mailbox} {event : Event} {message : Message}
    {found : Option Content} (first : mailbox.head? = some message)
    (read : event.reading = some found) (accepted : mailbox.accept event = some result) :
    found = some message.content := by
  unfold Event.reading at read
  split at read
  next advance answer =>
    cases read
    cases answer with
    | none =>
        rcases vacant_eq_some accepted with ⟨rfl, _⟩
        cases first
    | some answer =>
        rcases accept_luaread accepted with ⟨other, rest, rfl, same, _⟩
        cases first
        exact congrArg some same
  next advance tag data =>
    cases read
    rcases accept_cread accepted with ⟨other, rest, rfl, same, _⟩
    cases first
    exact congrArg some same
  next =>
    cases read
    rcases vacant_eq_some accepted with ⟨rfl, _⟩
    cases first
  next => cases read

/-- In a history, what a peek shows is what the next read returns. -/
theorem reading_eq_peeked {start mailbox : Mailbox} {before between rest : List Event}
    {peek next : Event} {content : Content} {found : Option Content}
    (legal : start.after (before ++ peek :: (between ++ next :: rest)) = some mailbox)
    (shown : peek.peeked = some content) (none : consumptions between = [])
    (read : next.reading = some found) : found = some content := by
  simp only [after_append, after_cons, Option.bind_eq_some_iff] at legal
  rcases legal with ⟨_, _, _, peekAccepted, _, betweenAccepted, _, nextAccepted, _⟩
  rcases head_of_peeked shown peekAccepted with ⟨message, first, rfl⟩
  have still := head_of_no_consumption first betweenAccepted none
  exact reading_eq_head still read nextAccepted

/-- No event of a history is an `UNEXPECTED_ERROR` exit. -/
theorem expected {start mailbox : Mailbox} {events : List Event}
    (legal : start.after events = some mailbox) :
    ∀ event ∈ events, ¬event.Unexpected := by
  induction events generalizing start with
  | nil => simp
  | cons event events ih =>
      rw [after_cons, Option.bind_eq_some_iff] at legal
      rcases legal with ⟨middle, accepted, rest⟩
      intro other member unexpected
      rcases List.mem_cons.mp member with rfl | later
      · cases other with
        | wrote call outcome =>
            cases unexpected
            cases accepted
        | luaread | cread | advanced => exact unexpected
      · exact ih rest other later unexpected

end Mailbox

end LuaJack.Ringbuffer
