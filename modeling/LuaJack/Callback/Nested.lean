import LuaJack.Atomic.Typestate
import LuaJack.Callback.Flush
import LuaJack.Evt.Queue

/-!
# Flushes inside flushes

The main thread runs the script.  The script calls `jack.sleep`, which flushes the queue
of events, and the callbacks are script code again: they may sleep, and so flush the
queue within a flush, may close clients and may raise errors.  Meanwhile the threads of
JACK insert events.

Script code also runs where strings are pushed on the stack, since the collector may
then call finalizers.  Each handler pushes the arguments of its call after the client
has been found to be valid.

The accesses to the queue are those of `evt.c`, and a flush is `callbackFlush` with the
code of the callbacks in the place of their calls. -/

namespace LuaJack.Nested

open Atomic

/-- An event has been handed to a Lua function. -/
structure Handing where
  pending : Pending
  /-- The world when the function was called. -/
  world : World

/-- What a call of `callback_flush` has done since it called `evt_count`. -/
structure Round where
  /-- The events that were in the queue. -/
  queued : Nat
  /-- What `evt_count` returned. -/
  counted : Nat
  /-- The events that the call itself has removed. -/
  removals : Nat

/-- What only the main thread changes, and a record of what it has done. -/
structure Own where
  world : World
  removed : List Evt
  handed : List Handing
  rounds : List Round

/-- The queue, the events that have been inserted into it so far, and the rest. -/
structure Shared where
  queue : Evt.Queue Evt
  inserted : List Evt
  own : Own

/-- At program start, with a new pipe. -/
def Shared.new (world : World) (capacity : Nat) : Shared where
  queue := .new Evt capacity
  inserted := []
  own := { world, removed := [], handed := [], rounds := [] }

/-- The accesses of all threads. -/
inductive Access where
  | queue (op : Evt.QueueOp Evt)
  /-- The access of `evt_count` in a flush. -/
  | startRound
  /-- The access of `evt_remove` that removes an event, in a flush. -/
  | removeHead (round : Nat)
  /-- The number of events that have been removed. -/
  | tally
  | cudSearch (key : Addr)
  | pcall (pending : Pending)
  /-- The script operates on clients and other objects. The arguments of the calls that
  are made for some events are being pushed meanwhile. -/
  | operate (pushing : List Pending) (change : World → World)
  | other (op : FlushOp)

/-- What each access returns. -/
@[reducible] def Access.Answer : Access → Type
  | queue op => op.Answer
  | startRound => BitVec 32 × Nat
  | removeHead _ => Unit
  | tally => Nat
  | cudSearch _ => Option Cud
  | pcall _ => Unit
  | operate .. => World
  | other op => op.Answer

namespace Own

/-- A round starts. -/
def start (own : Own) (queued counted : Nat) : Own :=
  { own with rounds := own.rounds ++ [⟨queued, counted, 0⟩] }

/-- A round removes an event. -/
def remove (own : Own) (round : Nat) (evt : Evt) : Own :=
  { own with
    removed := own.removed ++ [evt]
    rounds := own.rounds.modify round fun round =>
      { round with removals := round.removals + 1 } }

/-- An event is handed to a function. -/
def hand (own : Own) (pending : Pending) : Own :=
  { own with handed := own.handed ++ [⟨pending, own.world⟩] }

end Own

/-- The events that an access inserts. -/
def inserts : Evt.QueueOp Evt → List Evt
  | .insertTail evt => [evt]
  | _ => []

/-- The effect of an access to the queue. -/
def Shared.perform (shared : Shared) (op : Evt.QueueOp Evt) : Shared :=
  { shared with queue := (op.exec shared.queue).2, inserted :=
    shared.inserted ++ inserts op }

/-- The meaning of each access. What accesses return that concern neither the queue nor
the clients is left open. -/
def Access.meaning : Meaning Access Answer Shared
  | .queue op, before, answer, after => op.Enabled before.queue ∧
      answer = (op.exec before.queue).1 ∧ after = before.perform op
  | .startRound, before, answer, after =>
      answer = (before.queue.counter, before.own.rounds.length) ∧
        after = { before with
          own := before.own.start before.queue.head.length before.queue.counter.toNat }
  | .removeHead round, before, _, after =>
      after = { before.perform .removeHead with
        own := before.queue.head.head?.elim before.own (before.own.remove round) }
  | .tally, before, answer, after => answer = before.own.removed.length ∧ after = before
  | .cudSearch key, before, answer, after =>
      answer = before.own.world.search .client key ∧ after = before
  | .pcall pending, before, _, after =>
      after = { before with own := before.own.hand pending }
  | .operate _ change, before, answer, after => answer = change before.own.world ∧
      after = { before with own := { before.own with world := answer } }
  | .other _, before, _, after => after = before

/-- Code of a thread. -/
abbrev Code := Program Access Access.Answer

/-- Perform one access. -/
abbrev access (op : Access) : Code op.Answer := Program.perform op

/-- `evt_insert`. -/
def insertion (evt : Evt) : Code Unit :=
  (Evt.evtInsert evt).translate fun op => access (.queue op)

/-- `evt_remove`, called in a round. -/
def removal (round : Nat) : Code (Option Evt) :=
  Evt.evtRemove.translate fun
    | .removeHead => access (.removeHead round)
    | op => access (.queue op)

/-! ## The code of the main thread -/

/-- The main thread runs script code, or is in what is left of a flush. The arguments of
the calls that are made for some events are being pushed meanwhile. The number of the
round means nothing before the flush calls `evt_count`. -/
inductive Task where
  | script (pushing : List Pending)
  | flush (pushing : List Pending) (round : Nat) (code : Flush)

/-- How script code ends. -/
abbrev Result := Except LuaValue (List LuaValue)

/-- How a task ends. -/
@[reducible] def Task.Result : Task → Type
  | script _ => Nested.Result
  | flush .. => Outcome

/-- Script code may run before the access: `lua_gc` calls finalizers, and so may
`luaL_optstring`, which makes a string of a number, before `jack_session_reply`. JACK
may call back from the latter. -/
def runsCode : FlushOp → Bool
  | .collect | .handling _ (.sessionReply ..) => true
  | _ => false

/-- The access concerns neither the queue nor the clients, and no other code runs. -/
def isQuiet : FlushOp → Bool
  | .ismainthread | .luajackError _ | .exiting => true
  | .handling _ .exiting | .handling _ (.rawgeti _) | .handling _ .checkstack
  | .handling _ .evtFree => true
  | _ => false

/-- Some arguments of the call have been pushed with `lua_pushstring`. -/
def pushesStrings (call : Invocation) : Bool :=
  call.args.any fun
    | .integer _ => false
    | _ => true

/-- What follows script code in a flush, which is left if that code raises an error. -/
def unlessRaised (rest : Code Outcome) : Result → Code Outcome
  | .error value => return .raised value
  | .ok _ => rest

/-- `MainCode task code`: the task can be executed by this code. Script code inserts
events, when JACK calls back in the main thread, operates on objects, flushes the queue
in `jack.sleep`, and returns or raises an error at any time. -/
inductive MainCode : (task : Task) → Code task.Result → Prop where
  | done {pushing : List Pending} (result : Result) : MainCode
    (.script pushing) (.done result)
  | insert {pushing : List Pending} (evt : Evt) {rest : Code Result} :
      MainCode (.script pushing) rest →
      MainCode (.script pushing) (insertion evt >>= fun _ => rest)
  | operate {pushing : List Pending} (change : World → World)
    {rest : World → Code Result} :
      (∀ world, MainCode (.script pushing) (rest world)) →
      MainCode (.script pushing) (access (.operate pushing change) >>= rest)
  | sleep {pushing : List Pending} {flush : Code Outcome} {rest : Outcome → Code Result} :
      MainCode (.flush pushing 0 callbackFlush) flush →
      (∀ outcome, MainCode (.script pushing) (rest outcome)) →
      MainCode (.script pushing) (flush >>= rest)
  | ended {pushing : List Pending} (round : Nat) (outcome : Outcome) :
      MainCode (.flush pushing round (.done outcome)) (.done outcome)
  /-- `luaL_error` pushes the message first. -/
  | raised {pushing : List Pending} (round : Nat)
    (error : LuaValue) {code : Code Result} :
      MainCode (.script pushing) code →
      MainCode (.flush pushing round (.done (.raised error)))
        (code >>= unlessRaised (.done (.raised error)))
  | count {pushing : List Pending} {round : Nat} {next : BitVec 32 → Flush}
      {rest : BitVec 32 × Nat → Code Outcome} :
      (∀ answer, MainCode (.flush pushing answer.2 (next answer.1)) (rest answer)) →
      MainCode (.flush pushing round (.act .evtCount next)) (access .startRound >>= rest)
  | remove {pushing : List Pending} {round : Nat} {next : Option Pending → Flush}
      {rest : Option Evt → Nat → Code Outcome} :
      (∀ evt removed, MainCode (.flush pushing round (next (evt.map (.mk (removed - 1)))))
        (rest evt removed)) →
      MainCode (.flush pushing round (.act .evtRemove next)) (do
        let evt ← removal round
        let removed ← access .tally
        rest evt removed)
  | cudSearch {pushing : List Pending} {round : Nat} {pending : Pending} {key : Addr}
      {next : Option Cud → Flush} {rest : Option Cud → Code Outcome} :
      (∀ cud, MainCode (.flush pushing round (next cud)) (rest cud)) →
      MainCode (.flush pushing round (.act (.handling pending (.cudSearch key)) next))
        (access (.cudSearch key) >>= rest)
  /-- The arguments are pushed before the function is called. -/
  | pcall {pushing : List Pending} {round : Nat} {pending : Pending} {call : Invocation}
      {next : Result → Flush} {pushes function : Code Result}
      {rest : Result → Code Outcome} :
      (pushesStrings call = false → pushes = .done (.ok [])) →
      MainCode (.script (pending :: pushing)) pushes →
        MainCode (.script pushing) function →
      (∀ result, MainCode (.flush pushing round (next result)) (rest result)) →
      MainCode (.flush pushing round (.act (.handling pending (.pcall call)) next))
        (pushes >>= unlessRaised (do
          access (.pcall pending)
          let result ← function
          rest result))
  | foreign {pushing : List Pending} {round : Nat}
    {op : FlushOp} {next : op.Answer → Flush}
      {code : Code Result} {rest : op.Answer → Code Outcome} :
      runsCode op = true → MainCode (.script pushing) code →
      (∀ answer, MainCode (.flush pushing round (next answer)) (rest answer)) →
      MainCode (.flush pushing round (.act op next))
        (code >>= unlessRaised (access (.other op) >>= rest))
  | other {pushing : List Pending} {round : Nat} {op : FlushOp} {next : op.Answer → Flush}
      {rest : op.Answer → Code Outcome} :
      isQuiet op = true →
        (∀ answer, MainCode (.flush pushing round (next answer)) (rest answer)) →
      MainCode (.flush pushing round (.act op next)) (access (.other op) >>= rest)

/-- The code of a flush in which every function returns at once, and in which the same
script code runs wherever arguments are pushed with `lua_pushstring`. -/
def straight (pushes : Pending → Code Result) (round : Nat) : Flush → Code Outcome
  | .done outcome => .done outcome
  | .act .evtCount next => do
      let answer ← access .startRound
      straight pushes answer.2 (next answer.1)
  | .act .evtRemove next => do
      let evt ← removal round
      let removed ← access .tally
      straight pushes round (next (evt.map (.mk (removed - 1))))
  | .act (.handling _ (.cudSearch key)) next => do
      let cud ← access (.cudSearch key)
      straight pushes round (next cud)
  | .act (.handling pending (.pcall call)) next =>
      (if pushesStrings call then pushes pending else .done (.ok [])) >>= unlessRaised (do
        access (.pcall pending)
        straight pushes round (next (.ok [])))
  | .act op next => do
      let answer ← access (.other op)
      straight pushes round (next answer)

theorem mainCode_straight {pushes : Pending → Code Result}
    (script : ∀ pending, MainCode (.script [pending]) (pushes pending)) (flush : Flush)
    (round : Nat) : MainCode (.flush [] round flush) (straight pushes round flush) := by
  induction flush generalizing round with
  | done outcome => exact .ended round outcome
  | act op next ih =>
      cases op with
      | evtCount => exact .count fun answer => ih answer.1 answer.2
      | evtRemove => exact .remove fun evt removed => ih _ round
      | collect => exact .foreign rfl (.done (.ok [])) fun answer => ih answer round
      | handling pending op =>
          cases op with
          | cudSearch key => exact .cudSearch fun cud => ih cud round
          | pcall call =>
              refine .pcall ?_ ?_ (.done (.ok [])) fun result => ih result round
              · intro isNone
                rw [isNone]
                rfl
              · split
                · exact script pending
                · exact .done (.ok [])
          | sessionReply client command flags =>
              exact .foreign rfl (.done (.ok [])) fun answer => ih answer round
          | _ => exact .other rfl fun answer => ih answer round
      | _ => exact .other rfl fun answer => ih answer round

/-- The threads of JACK insert events, the main thread runs script code. -/
def dispatcher (ι : Type) : System (Evt.Thread ι) Access Access.Answer Unit Shared where
  meaning := Access.meaning
  calls := fun thread program =>
    match thread with
    | .jack _ => ∃ evt, program = insertion evt
    | .main =>
        ∃ script, MainCode (.script []) script ∧ program = do let _ ← script; return ()

/-- What the script may do to the clients of events whose arguments are being pushed. -/
abbrev Permitted := Addr → World → (World → World) → Prop

/-- While the arguments of a call are being pushed, the script does to the client of the
event only what it may do. -/
def Spares (permitted : Permitted) : Access → Shared → Prop
  | .operate pushing change, before =>
      ∀ pending ∈ pushing, permitted pending.evt.clientKey before.own.world change
  | _, _ => True

/-! ## The protocol of a flush -/

/-- How far an event is that has been removed. -/
inductive Stage where
  | removed
  /-- Its client has been found to be valid. -/
  | found
  | handed

/-- The accesses of a handler in each stage. -/
def Stage.next (evt : Evt) : Stage → (op : HandlerOp) → op.Answer → Option Stage
  | .removed, .cudSearch key, cud =>
      if key = evt.clientKey then some (if cud.any Cud.valid then .found else .removed)
        else none
  | .found, .pcall _, _ => some .handed
  | .handed, .sessionReply .., _ => some .handed
  | stage, .exiting, _ | stage, .rawgeti _, _ | stage,
  .checkstack, _ | stage, .evtFree, _ =>
      some stage
  | _, _, _ => none

/-- A flush has not counted the events yet, or may remove a number of events and handle
the one that it has removed last. -/
inductive Progress where
  | started
  | looping (budget : Nat) (current : Option (Pending × Stage))

/-- The accesses of a flush. -/
def Progress.next : Progress → (op : FlushOp) → op.Answer → Option Progress
  | .started, .evtCount, counted => some (.looping counted.toNat none)
  | .looping (budget + 1) _, .evtRemove, pending =>
      some (.looping budget (pending.map (·, .removed)))
  | .looping budget (some (current, stage)), .handling pending op, answer =>
      if pending = current then
        (stage.next current.evt op answer).map fun stage =>
          .looping budget (some (current, stage))
      else
        none
  | .looping budget _, .collect, _ => some (.looping budget none)
  | progress, .ismainthread, _ | progress, .luajackError _, _ | progress, .exiting, _ =>
      some progress
  | _, _, _ => none

section Handlers

variable {cud : Cud} {evt : Evt}

/-- A handler keeps to the protocol from a stage on. -/
abbrev HandlerFollows (evt : Evt) (stage : Stage) (handler : Handler) : Prop :=
  handler.Follows (Stage.next evt) (fun _ _ => True) stage

/-- An access after which the stage is known. -/
theorem follows_access {stage : Stage} (stage' : Stage) {op : HandlerOp}
    {rest : op.Answer → Handler}
    (allowed : ∀ answer, stage.next evt op answer = some stage')
    (follows : ∀ answer, HandlerFollows evt stage' (rest answer)) :
    HandlerFollows evt stage (handlerOp op >>= rest) :=
  Program.Follows.perform fun answer => ⟨stage', allowed answer, follows answer⟩

theorem follows_return (stage : Stage) (outcome : Outcome) :
    HandlerFollows evt stage (return outcome) := trivial

/-- A handler frees the event and is left. -/
theorem follows_evtFree (stage : Stage) (outcome : Outcome) :
    HandlerFollows evt stage (do handlerOp .evtFree; return outcome) := by
  apply follows_access stage
  · intro _
    cases stage <;> rfl
  · exact fun _ => follows_return stage outcome

theorem follows_beginHandler {slot : CallbackKind} {body : LuaFunction → Handler}
    (follows : ∀ function, HandlerFollows evt .found (body function)) :
    HandlerFollows evt .found (beginHandler cud slot body) := by
  apply follows_access .found fun _ => rfl
  intro exiting
  cases exiting with
  | true => exact follows_evtFree _ _
  | false =>
      apply follows_access .found fun _ => rfl
      intro function
      cases function with
      | none => exact follows_evtFree _ _
      | some function => exact follows function

theorem follows_exec (args : List LuaValue) (function : LuaFunction) :
    HandlerFollows evt .found (exec evt args function) := by
  apply follows_access .handed fun _ => rfl
  intro result
  cases result with
  | ok results => exact follows_return _ _
  | error value => exact follows_evtFree _ _

theorem follows_luaShutdown : HandlerFollows evt .found (luaShutdown cud evt) := by
  apply follows_beginHandler
  intro function
  apply follows_access .found fun _ => rfl
  intro canGrow
  cases canGrow with
  | true => exact follows_exec _ function
  | false => exact follows_return _ _

theorem follows_luaLatency : HandlerFollows evt .found (luaLatency cud evt) := by
  apply follows_beginHandler
  intro function
  cases latencyPushmode evt.mode with
  | ok mode => exact follows_exec _ function
  | error message => exact follows_return _ _

theorem follows_luaSession : HandlerFollows evt .found (luaSession cud evt) := by
  apply follows_beginHandler
  intro function
  cases evt.sessionEvent with
  | none => exact follows_return _ _
  | some event =>
      simp only
      cases sessionPushtype event.type with
      | error message => exact follows_return _ _
      | ok type =>
          apply follows_access .handed fun _ => rfl
          intro result
          cases result with
          | error value => exact follows_evtFree _ _
          | ok results =>
              simp only
              cases sessionResults results with
              | error message => exact follows_return _ _
              | ok reply =>
                  apply follows_access .handed fun _ => rfl
                  exact fun _ => follows_return _ _

theorem follows_handler (kind : CallbackKind) :
    HandlerFollows evt .found (handler kind cud evt) := by
  cases kind with
  | shutdown => exact follows_luaShutdown
  | latency => exact follows_luaLatency
  | session => exact follows_luaSession
  | _ => exact follows_beginHandler (follows_exec _)

/-- A function is called at most once, and only for a client that has been found valid. -/
theorem follows_dispatch (evt : Evt) : HandlerFollows evt .removed (dispatch evt) := by
  apply Program.Follows.perform
  intro cud
  refine ⟨_, if_pos rfl, ?_⟩
  cases cud with
  | none => exact follows_evtFree _ _
  | some cud =>
      cases isValid : cud.valid with
      | false =>
          simp only [isValid, Bool.not_false, if_true]
          exact follows_evtFree _ _
      | true =>
          simp only [isValid, Option.any_some, if_true,
            Bool.not_true, Bool.false_eq_true, if_false]
          cases CallbackKind.ofCode? evt.type with
          | none => exact follows_evtFree _ _
          | some kind =>
              apply (follows_handler kind).bind
              intro outcome stage _
              split
              · exact follows_evtFree _ _
              · exact follows_return _ _

end Handlers

/-- A flush keeps to the protocol. -/
abbrev FlushFollows (progress : Progress) (flush : Flush) : Prop :=
  flush.Follows Progress.next (fun _ _ => True) progress

/-- What a handler does as a part of a flush. -/
theorem follows_forEvent {budget : Nat} {pending : Pending}
    {stage : Stage} {handler : Handler}
    (follows : HandlerFollows pending.evt stage handler) :
    (handler.forEvent pending).Follows Progress.next
      (fun _ progress => ∃ current, progress = .looping budget current)
      (.looping budget (some (pending, stage))) := by
  induction handler generalizing stage with
  | done outcome => exact ⟨_, rfl⟩
  | act op next ih =>
      intro answer
      rcases follows answer with ⟨stage', allowed, later⟩
      refine ⟨.looping budget (some (pending, stage')), ?_, ih answer later⟩
      simp only [Progress.next, if_true, allowed, Option.map_some]

theorem follows_flushLoop (n : Nat) (current : Option (Pending × Stage)) :
    FlushFollows (.looping n current) (flushLoop n) := by
  have collects (budget : Nat) (current : Option (Pending × Stage)) :
      FlushFollows (.looping budget current) (do flushOp .collect; return .returned) := by
    apply Program.Follows.perform
    exact fun _ =>
      ⟨.looping budget none, by cases current <;> cases budget <;> rfl, trivial⟩
  induction n generalizing current with
  | zero => exact collects 0 current
  | succ n ih =>
      apply Program.Follows.perform
      intro pending
      refine ⟨_, rfl, ?_⟩
      cases pending with
      | none => exact collects n none
      | some pending =>
          apply (follows_forEvent (follows_dispatch pending.evt)).bind
          rintro outcome _ ⟨current, rfl⟩
          cases outcome with
          | returned => exact ih current
          | _ => trivial

/-- A flush removes at most as many events as it has counted. -/
theorem follows_callbackFlush : FlushFollows .started callbackFlush := by
  apply Program.Follows.perform
  intro isMain
  refine ⟨.started, rfl, ?_⟩
  cases isMain with
  | false =>
      apply Program.Follows.perform
      exact fun _ => ⟨.started, rfl, trivial⟩
  | true =>
      apply Program.Follows.perform
      intro exiting
      refine ⟨.started, rfl, ?_⟩
      cases exiting with
      | true => trivial
      | false =>
          apply Program.Follows.perform
          intro counted
          exact ⟨.looping counted.toNat none, rfl, follows_flushLoop counted.toNat none⟩

/-! ## What the protocol allows -/

section Allowed

variable {progress next : Progress} {pending : Pending}

theorem next_evtCount {counted : BitVec 32}
    (allowed : progress.next .evtCount counted = some next) :
    progress = .started ∧ next = .looping counted.toNat none := by
  cases progress with
  | started => exact ⟨rfl, (Option.some.inj allowed).symm⟩
  | looping budget current => cases budget <;> cases current <;> cases allowed

theorem next_evtRemove {removed : Option Pending}
    (allowed : progress.next .evtRemove removed = some next) :
    ∃ budget current, progress = .looping (budget + 1) current ∧
      next = .looping budget (removed.map (·, .removed)) := by
  cases progress with
  | started => cases allowed
  | looping budget current =>
      cases budget with
      | zero => cases current <;> cases allowed
      | succ budget => exact ⟨budget, current, rfl, (Option.some.inj allowed).symm⟩

/-- Only the event that has been removed last is handled. -/
theorem next_handling {op : HandlerOp} {answer : op.Answer}
    (allowed : progress.next (.handling pending op) answer = some next) :
    ∃ budget stage stage', progress = .looping budget (some (pending, stage)) ∧
      stage.next pending.evt op answer = some stage' ∧
      next = .looping budget (some (pending, stage')) := by
  cases progress with
  | started => cases allowed
  | looping budget current =>
      cases current with
      | none => cases budget <;> cases allowed
      | some current =>
          rcases current with ⟨current, stage⟩
          have isNext : (if pending = current then (stage.next current.evt op answer).map
              fun stage => .looping budget (some (current, stage)) else none) =
                some next := by
            cases budget <;> exact allowed
          by_cases isCurrent : pending = current
          · subst isCurrent
            rw [if_pos rfl, Option.map_eq_some_iff] at isNext
            rcases isNext with ⟨stage', staged, isNext⟩
            exact ⟨budget, stage, stage', rfl, staged, isNext.symm⟩
          · rw [if_neg isCurrent] at isNext
            cases isNext

theorem next_cudSearch {evt : Evt} {stage stage' : Stage} {key : Addr} {cud : Option Cud}
    (allowed : stage.next evt (.cudSearch key) cud = some stage') :
    stage = .removed ∧ key = evt.clientKey ∧
      stage' = if cud.any Cud.valid then .found else .removed := by
  cases stage with
  | removed =>
      have isNext : (if
          key = evt.clientKey then some (if cud.any Cud.valid then Stage.found
          else .removed) else none) = some stage' := allowed
      by_cases isKey : key = evt.clientKey
      · rw [if_pos isKey] at isNext
        exact ⟨rfl, isKey, (Option.some.inj isNext).symm⟩
      · rw [if_neg isKey] at isNext
        cases isNext
  | _ => cases allowed

theorem next_pcall {evt : Evt} {stage stage' : Stage} {call : Invocation}
    {result : Except LuaValue (List LuaValue)}
    (allowed : stage.next evt (.pcall call) result = some stage') :
    stage = .found ∧ stage' = .handed := by
  cases stage with
  | found => exact ⟨rfl, (Option.some.inj allowed).symm⟩
  | _ => cases allowed

/-- An access that may run other code comes when no event is being handled, or after the
function has been called. -/
theorem next_runsCode {op : FlushOp} {answer : op.Answer} (runs : runsCode op = true)
    (allowed : progress.next op answer = some next) :
    ∃ budget current current', progress = .looping budget current ∧
      next = .looping budget current' ∧
      ∀ pending stage, current' = some (pending, stage) →
        stage = .handed ∧ ∃ earlier, current = some (pending, earlier) := by
  cases op with
  | collect =>
      cases progress with
      | started => cases allowed
      | looping budget current =>
          refine ⟨budget, current, none, rfl, ?_, fun _ _ isCurrent => by cases isCurrent⟩
          cases budget <;> cases current <;> exact (Option.some.inj allowed).symm
  | handling pending op =>
      rcases next_handling allowed with ⟨budget, stage, stage', rfl, staged, rfl⟩
      cases op with
      | sessionReply client command flags =>
          refine ⟨budget, _, _, rfl, rfl, ?_⟩
          rintro _ _ ⟨rfl, rfl⟩
          refine ⟨?_, stage, rfl⟩
          cases stage with
          | handed => exact (Option.some.inj staged).symm
          | _ => cases staged
      | _ => cases runs
  | _ => cases runs

theorem next_quiet {op : FlushOp} {answer : op.Answer} (quiet : isQuiet op = true)
    (allowed : progress.next op answer = some next) : next = progress := by
  cases op with
  | handling pending op =>
      rcases next_handling allowed with ⟨budget, stage, stage', rfl, staged, rfl⟩
      have same : stage' = stage := by
        cases op with
        | cudSearch | pcall | sessionReply => cases quiet
        | _ => cases stage <;> exact (Option.some.inj staged).symm
      rw [same]
  | ismainthread | luajackError | exiting =>
      cases progress with
      | started => exact (Option.some.inj allowed).symm
      | looping budget current =>
          cases budget <;> cases current <;> exact (Option.some.inj allowed).symm
  | _ => cases quiet

theorem nonempty_of_runsCode {op : FlushOp} (runs : runsCode op = true) :
    Nonempty op.Answer := by
  cases op with
  | collect => exact ⟨()⟩
  | handling pending op =>
      cases op with
      | sessionReply client command flags => exact ⟨()⟩
      | _ => cases runs
  | _ => cases runs

end Allowed

/-! ## The length of a flush -/

section Limits

variable {cud : Cud} {evt : Evt}

theorem within_beginHandler {slot : CallbackKind}
    {body : LuaFunction → Handler} {limit : Nat}
    (within : ∀ function, (body function).Within (limit + 1)) :
    (beginHandler cud slot body).Within (limit + 3) := by
  intro exiting
  cases exiting with
  | true => exact fun _ => trivial
  | false =>
      intro function
      cases function with
      | none => exact fun _ => trivial
      | some function => exact within function

theorem within_exec (args : List LuaValue) (function : LuaFunction) :
    (exec evt args function).Within 2 := by
  intro result
  cases result with
  | ok results => trivial
  | error value => exact fun _ => trivial

theorem within_luaShutdown : (luaShutdown cud evt).Within 5 := by
  apply within_beginHandler
  intro function canGrow
  cases canGrow with
  | true => exact within_exec _ function
  | false => trivial

theorem within_luaLatency : (luaLatency cud evt).Within 4 := by
  apply within_beginHandler
  intro function
  cases latencyPushmode evt.mode with
  | ok mode => exact within_exec _ function
  | error message => trivial

theorem within_luaSession : (luaSession cud evt).Within 4 := by
  apply within_beginHandler
  intro function
  cases evt.sessionEvent with
  | none => trivial
  | some event =>
      simp only
      cases sessionPushtype event.type with
      | error message => trivial
      | ok type =>
          apply Program.Within.perform
          intro result
          cases result with
          | error value => exact fun _ => trivial
          | ok results =>
              simp only
              cases sessionResults results with
              | error message => trivial
              | ok reply => exact fun _ => trivial

theorem within_handler (kind : CallbackKind) : (handler kind cud evt).Within 5 := by
  cases kind with
  | shutdown => exact within_luaShutdown
  | latency => exact within_luaLatency.mono (Nat.le_succ 4)
  | session => exact within_luaSession.mono (Nat.le_succ 4)
  | _ => exact (within_beginHandler (within_exec _)).mono (Nat.le_succ 4)

theorem within_dispatch (evt : Evt) : (dispatch evt).Within 7 := by
  apply Program.Within.perform
  intro cud
  cases cud with
  | none => exact fun _ => trivial
  | some cud =>
      cases isValid : cud.valid with
      | false =>
          simp only [isValid, Bool.not_false, if_true]
          exact fun _ => trivial
      | true =>
          simp only [isValid, Bool.not_true, Bool.false_eq_true, if_false]
          cases CallbackKind.ofCode? evt.type with
          | none => exact fun _ => trivial
          | some kind =>
              have within : (handler kind cud evt).Within 5 := within_handler kind
              have later (outcome : Outcome) : Program.Within (do
                  if outcome = .returned then
                    handlerOp .evtFree
                  return outcome : Handler) 1 := by
                split
                · exact fun _ => trivial
                · trivial
              exact within.bind later

theorem within_forEvent {pending : Pending} {handler : Handler} {limit : Nat}
    (within : handler.Within limit) : (handler.forEvent pending).Within limit := by
  induction handler generalizing limit with
  | done outcome => trivial
  | act op next ih =>
      cases limit with
      | zero => exact within.elim
      | succ limit => exact fun answer => ih answer (within answer)

/-- A flush ends, provided that the functions that it calls end. -/
theorem within_flushLoop (n : Nat) : (flushLoop n).Within (8 * n + 1) := by
  induction n with
  | zero => exact fun _ => trivial
  | succ n ih =>
      have limit : 8 * (n + 1) + 1 = 7 + (8 * n + 1) + 1 := by omega
      rw [limit]
      apply Program.Within.perform
      intro pending
      cases pending with
      | none =>
          have collects : (flushOp .collect >>= fun _ =>
              return .returned : Flush).Within 1 :=
            fun _ => trivial
          apply collects.mono
          omega
      | some pending =>
          apply (within_forEvent (within_dispatch pending.evt)).bind
          intro outcome
          cases outcome with
          | returned => exact ih
          | _ => trivial

end Limits

end LuaJack.Nested
