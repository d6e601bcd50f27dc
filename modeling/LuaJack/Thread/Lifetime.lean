import LuaJack.Object.Failure
import LuaJack.Thread.ThreadFunc

/-!
# How often the state of a thread is closed

The Lua state of a thread may be closed by `ThreadCreate_`, by `ThreadFunc` or by
`thread_free`. Whoever closes it should set the member `state` to null, and whoever sets
the member to null should close it. -/

namespace LuaJack

open Atomic

/-! ## Counting -/

/-- Whether a call closes a Lua state. -/
def Effect.closes (state : Handle) : Effect → Bool
  | luaClose other => other = state
  | threadFree _ _ other => other = some state
  | _ => false

/-- The number of calls in a trace that close a Lua state. -/
def closes (state : Handle) (trace : List Effect) : Nat := trace.countP (·.closes state)

/-- The state is in the entry of a valid thread of a client. -/
def World.holds (world : World) (cud : Addr) (state : Handle) (key : Addr) : Bool :=
  (world.search .thread key).any fun tud =>
    ObjectKind.thread.ownedBy cud tud && tud.state = some state

/-- No entry holds the state but the one with the address that `malloc` has returned. -/
def World.Sole (world : World) (malloc : Option Addr) (state : Handle) : Prop :=
  ∀ key tud, world.search .thread key = some tud →
    tud.state = some state → malloc = some key

section Closes

variable {state : Handle} {world : World} {cud : Addr} {malloc : Option Addr}

theorem closes_append (first second : List Effect) :
    closes state (first ++ second) = closes state first + closes state second :=
  List.countP_append

theorem closes_perform_of_not {effect : Effect} (other : effect.closes state = false) :
    closes state (world.perform effect).trace = closes state world.trace := by
  rw [World.perform, closes_append, closes, closes, List.countP_singleton, other]
  rfl

theorem closes_luaClose :
    closes state (world.perform (.luaClose state)).trace =
      closes state world.trace + 1 := by
  rw [World.perform, closes_append, closes, closes, List.countP_singleton, Effect.closes,
    decide_eq_true rfl]
  rfl

theorem closes_freeAll_of_not {kind : ObjectKind} {free : Addr → kind.Entry → Effect}
    (other : ∀ key entry, (free key entry).closes state = false) :
    closes state (world.freeAll kind cud free).trace = closes state world.trace := by
  rw [World.freeAll_trace, closes_append, Nat.add_eq_left]
  apply List.countP_eq_zero.mpr
  intro effect member isClosed
  rcases List.mem_flatMap.mp member with ⟨entry, _, isLogged⟩
  rw [Table.logged] at isLogged
  split at isLogged
  · rw [List.mem_singleton.mp isLogged, other] at isClosed
    cases isClosed
  · cases isLogged

/-- Only the entry that holds the state closes it. -/
theorem closes_threadFreeAll (sole : world.Sole malloc state) :
    closes state (world.freeAll .thread cud threadFree).trace =
      closes state world.trace + if malloc.any (world.holds cud state) then 1 else 0 := by
  have isClosed (key : Addr) (tud : Tud) :
      (threadFree key tud).closes state = decide (tud.state = some state) := rfl
  have isCount (own : Addr) (isOwn : ∀ key, malloc = some key → key = own) :
      ((world.table .thread).entries.flatMap (Table.logged (ObjectKind.thread.ownedBy cud)
        fun key entry => [threadFree key entry])).countP (·.closes state) =
        if world.holds cud state own then 1 else 0 := by
    rw [Table.countP_logged_of _ _ _ own fun tud => decide (tud.state = some state)]
    · rfl
    · intro entry member
      rw [List.countP_singleton, isClosed]
      by_cases holds : entry.2.state = some state
      · have isMalloc := sole entry.1 entry.2 (Table.find?_eq_some.mpr member) holds
        rw [if_pos (decide_eq_true holds),
          if_pos ⟨isOwn _ isMalloc, decide_eq_true holds⟩]
      · rw [if_neg (by rw [decide_eq_true_eq]; exact holds),
          if_neg fun both => holds (of_decide_eq_true both.2)]
  rw [World.freeAll_trace, closes_append, closes, closes]
  congr 1
  cases malloc with
  | some own => exact isCount own fun key isKey => (Option.some.inj isKey).symm
  | none =>
      have absent : world.holds cud state 0 = false := by
        rw [World.holds]
        cases found : world.search .thread 0 with
        | none => rfl
        | some tud =>
            have other : tud.state ≠ some state :=
              fun holds => nomatch sole 0 tud found holds
            rw [Option.any_some, decide_eq_false other, Bool.and_false]
      rw [isCount 0 fun key isKey => nomatch isKey]
      rw [absent]
      rfl

theorem trace_unregister (kind : CallbackKind) :
    (world.unregister cud kind).trace = world.trace := by
  unfold World.unregister
  split
  · rfl
  · split
    · rfl
    · exact World.modifyEntry_trace _ _

theorem trace_unregisterAll : (world.unregisterAll cud).trace = world.trace := by
  have foldl (kinds : List CallbackKind) (world : World) :
      (kinds.foldl (·.unregister cud ·) world).trace = world.trace := by
    induction kinds generalizing world with
    | nil => rfl
    | cons kind rest ih =>
        rw [List.foldl_cons, ih]
        exact trace_unregister kind
  simp only [World.unregisterAll, callbackUnregister, processUnregister, Lua.modify_bind,
    Lua.modify_apply, World.modifyEntry_trace]
  exact foldl _ world

theorem closes_deactivate (rc : Int) :
    closes state (deactivate_ cud rc world).2.trace = closes state world.trace := by
  have performed (rc : Int) : closes state
      (world.perform (.jackDeactivate cud rc)).trace =
      closes state world.trace := closes_perform_of_not rfl
  rw [deactivate_apply]
  split
  · split
    · rfl
    · split
      · exact performed 0
      · split
        · exact performed 0
        · exact performed rc
  · rfl

theorem closes_retire (script : Bool) :
    closes state (world.retire cud script).trace = closes state world.trace := by
  unfold World.retire
  rw [World.modifyEntry_trace]
  cases script with
  | false => exact closes_perform_of_not rfl
  | true =>
      rw [if_pos rfl, trace_unregisterAll]
      exact closes_perform_of_not rfl

/-- Closing the client closes the state if it is still in the entry of the thread. -/
theorem closes_clientClose (sole : world.Sole malloc state) (rc : Int) (script : Bool) :
    closes state (clientClose cud rc script world).2.trace =
      closes state world.trace + if malloc.any (world.holds cud state) then 1 else 0 := by
  rcases clientClose_apply cud rc script world with
    ⟨code, middle, isDeactivated, touches, run⟩
  have deactivated := @closes_deactivate state world cud rc
  rw [isDeactivated] at deactivated
  have same (key : Addr) : middle.search .thread key = world.search .thread key :=
    touches.search .thread key fun isClient => nomatch isClient.1
  have soleMiddle : middle.Sole malloc state := by
    intro key tud found
    rw [same] at found
    exact sole key tud found
  have isHeld : middle.holds cud state = world.holds cud state := by
    funext key
    rw [World.holds, World.holds, same]
  rw [run, closes_retire, World.freeObjects, closes_freeAll_of_not fun _ _ => rfl,
    closes_freeAll_of_not fun _ _ => rfl, closes_threadFreeAll soleMiddle,
    deactivated, isHeld]

end Closes

/-! ## Creation -/

/-- A thread is about to be created, with a Lua state and an entry that are not in use. -/
structure ThreadCreate.Fresh (call : ThreadCreate)
    (world : World) (state : Handle) : Prop where
  mainThread : world.mainThread = true
  inactive : ¬world.activeClients > 0
  client : world.Valid .client call.ref
  script : ∃ script, call.script = .string script
  newstate : call.newstate = some state
  absent : ∀ key, call.malloc = some key → world.search .thread key = none
  unused : ∀ key tud, world.search .thread key = some tud → tud.state ≠ some state
  unclosed : closes state world.trace = 0

/-- What `ThreadCreate_` has done when it returns or raises an error. -/
inductive ThreadCreate.Outcome (call : ThreadCreate) (world : World) (state : Handle) :
    Except String (Option LuaInteger) × World → Prop where
  | notLoaded (message : String) : call.loadchunk.isOk = false →
      Outcome call world state (.error message, world.perform (.luaClose state))
  | notMoved (message : String) : call.loadchunk.isOk = true →
      (xmove 1 call.arguments).isOk = false →
        Outcome call world state (.error message, world)
  | notAllocated (message : String) : call.loadchunk.isOk = true →
      (xmove 1 call.arguments).isOk = true → call.malloc = none →
      Outcome call world state (.error message, world.perform (.luaClose state))
  | notStarted {key : Addr} (message : String) : call.Reaches world key state →
    ¬call.Starts →
      Outcome call world state
        (.error message, (world.withTud key call.ref state).perform (.luaClose state))
  | started {key : Addr} (thread : Handle) : call.Reaches world key state → call.Starts →
      Outcome call world state
        (.ok (some key), (world.withTud key call.ref state).modifyEntry .thread key
          fun tud => { tud with thread, status := .ready })

/-- The creation neither loses the state nor closes it when the entry holds it. -/
def ThreadCreate.Settles (call : ThreadCreate) : Prop :=
  call.loadchunk.isOk = false ∨
    (xmove 1 call.arguments).isOk = true ∧ (call.malloc = none ∨ call.Starts)

section Creation

variable {call : ThreadCreate} {world : World} {state : Handle}

/-- What is left to do when the state has been created. -/
theorem threadCreate_of_fresh (fresh : call.Fresh world state) : threadCreate call world =
    (do
      loadchunk state call
      Lua.ofExcept (xmove 1 call.arguments)
      match ← new .thread call.malloc Tud.new with
      | none =>
          Lua.modify (·.perform (.luaClose state))
          Lua.error "cannot create userdata for thread"
      | some key =>
          Lua.modify (·.modifyEntry .thread key fun tud =>
            { tud with cud := call.ref, state := some state })
          return some (← threadStart key state call) : Lua
            (Option LuaInteger)) world := by
  have allowed : checkcreate world = (.ok true, world) :=
    checkcreate_eq_true.mpr ⟨⟨fresh.mainThread, fresh.inactive⟩, rfl⟩
  rcases fresh.script with ⟨script, isScript⟩
  rw [threadCreate, Lua.bind_apply, allowed]
  simp only [if_true, cudCheck]
  rewrite [check_bind_of_valid fresh.client, isScript, fresh.newstate]
  rfl

theorem threadStart_of_starts (starts : call.Starts) (key : Addr) : ∃ thread,
    threadStart key state call world = (.ok key, world.modifyEntry .thread key
      fun tud => { tud with thread, status := .ready }) := by
  rcases starts with ⟨isMutex, isCond, thread, isThread⟩
  refine ⟨thread, ?_⟩
  rw [threadStart, isMutex, isCond, isThread]
  rfl

theorem threadCreate_outcome (fresh : call.Fresh world state) :
    call.Outcome world state (threadCreate call world) := by
  cases isLoaded : call.loadchunk with
  | error message =>
      have isFailed : threadCreate call world =
          (.error message, world.perform (.luaClose state)) := by
        rw [threadCreate_of_fresh fresh]
        simp only [loadchunk, isLoaded]
        rfl
      rw [isFailed]
      exact .notLoaded message (by rw [isLoaded]; rfl)
  | ok loaded =>
      have wasLoaded : call.loadchunk.isOk = true := by
        rw [isLoaded]
        rfl
      cases isMoved : xmove 1 call.arguments with
      | error message =>
          have isFailed : threadCreate call world = (.error message, world) := by
            rw [threadCreate_of_fresh fresh]
            simp only [loadchunk, isLoaded, isMoved]
            rfl
          rw [isFailed]
          exact .notMoved message wasLoaded (by rw [isMoved]; rfl)
      | ok moved =>
          cases isMalloc : call.malloc with
          | none =>
              have isFailed : threadCreate call world =
                  (.error "cannot create userdata for thread",
                    world.perform (.luaClose state)) := by
                rw [threadCreate_of_fresh fresh]
                simp only [loadchunk, isLoaded, isMoved, isMalloc]
                rfl
              rw [isFailed]
              exact .notAllocated _ wasLoaded (by rw [isMoved]; rfl) isMalloc
          | some key =>
              have reaches : call.Reaches world key state :=
                ⟨fresh.mainThread, fresh.inactive, fresh.client,
                  fresh.script, fresh.newstate,
                  isLoaded, isMoved, isMalloc, fresh.absent key isMalloc⟩
              rw [threadCreate_of_reaches reaches, Lua.bind_apply]
              by_cases starts : call.Starts
              · rcases @threadStart_of_starts call (world.withTud key call.ref state)
                  state starts key with
                  ⟨thread, isStarted⟩
                rw [isStarted]
                exact .started thread reaches starts
              · rcases threadStart_cases key state call
                  (world.withTud key call.ref state) with
                  started | ⟨_, message, isFailed⟩
                · exact absurd started.1 starts
                · rw [isFailed]
                  exact .notStarted message reaches starts

end Creation

/-! ## The steps of a thread -/

/-- What a step of `ThreadFunc` does. -/
inductive Point.Moves (key : Addr) (world : World) :
    Point → LifeEvent → World → Point → Prop where
  | waits : Moves key world .waiting .step world .waiting
  | begins : Moves key world .waiting .step
      (world.modifyEntry .thread key fun tud => { tud with status := .running }) .script
  | returns : Moves key world .script .returns
      (world.modifyEntry .thread key fun tud => { tud with status := .done })
        (.marking none)
  | raises (message : String) : Moves key world .script (.raises message)
      (world.modifyEntry .thread key fun tud => { tud with status := .failed })
      (.marking (some message))
  | marks {tud : Tud} {tt : Handle} (error : Option String) :
      world.search .thread key = some tud → tud.state = some tt →
      Moves key world (.marking error) .step
        (world.modifyEntry .thread key fun tud => { tud with state := none })
          (.marked tt error)
  | finishes (tt : Handle) :
      Moves key world (.marked tt none) .step (world.perform (.luaClose tt)) .unlocking
  | reports (tt : Handle) (message : String) :
      Moves key world (.marked tt (some message)) .step
        (world.luajackError message) .unlocking
  | unlocks : Moves key world .unlocking .step world .ended

/-- What happens in the life of a thread. -/
inductive Life.Moves (call : ThreadCreate) (now : Life) : LifeEvent → Life → Prop where
  | fails {world : World} : now.created = false →
    (threadCreate call now.world).2 = world →
      (∀ key, (threadCreate call now.world).1 ≠ .ok (some key)) →
      Moves call now .create { now with world, created := true }
  | creates {key : Addr} {world : World} : now.created = false →
      threadCreate call now.world = (.ok (some key), world) →
      Moves call now .create
        { now with world, created := true, func := some (key, .waiting) }
  | continues {event : LifeEvent} {key : Addr} {point next : Point} {world : World} :
      now.closed = false → now.func = some (key, point) →
      point.Moves key now.world event world next →
      Moves call now event { now with world, func := some (key, next) }
  | closesClient (rc : Int) (script : Bool) : now.created = true → now.closed = false →
      Moves call now (.close rc script)
        { now with world := (clientClose call.ref rc script now.world).2, closed := true }

/-- How often the state will have been closed when the client is closed now. -/
def balance (call : ThreadCreate) (state : Handle) (world : World) : Nat :=
  closes state world.trace + if call.malloc.any (world.holds call.ref state) then 1 else 0

/-- The value of the member `state`. -/
def Point.member (state : Handle) : Point → Option Handle
  | waiting | script | marking _ => some state
  | marked .. | unlocking | ended => none

/-- The thread has yet to close the state. -/
def Point.pending : Point → Bool
  | marked _ none => true
  | _ => false

/-- The thread has not yet closed the state. -/
def Point.early : Point → Bool
  | unlocking | ended => false
  | _ => true

/-- How often the state will have been closed at the end, if the thread is not cancelled
before it closes the state itself. -/
def Life.prospect (call : ThreadCreate) (state : Handle) (now : Life) : Nat :=
  if now.created then
    balance call state now.world +
      if now.func.any (·.2.pending) && !now.closed then 1 else 0
  else
    1

/-- A thread that has been started. -/
structure Point.Sound (call : ThreadCreate) (state : Handle) (world : World) (key : Addr)
    (point : Point) : Prop where
  malloc : call.malloc = some key
  entry : ∃ tud, world.search .thread key = some tud ∧
    ObjectKind.thread.ownedBy call.ref tud = true ∧ tud.state = point.member state
  tt : ∀ tt error, point = .marked tt error → tt = state
  early : point.early = true → closes state world.trace = 0

/-- What holds during the life of a thread. -/
structure Life.Sound (call : ThreadCreate) (state : Handle) (now : Life) : Prop where
  fresh : now.created = false → call.Fresh now.world state ∧
    now.func = none ∧ now.closed = false
  sole : now.world.Sole call.malloc state
  func : ∀ key point, now.func = some (key, point) → now.closed = false →
    point.Sound call state now.world key
  closed : now.closed = true → call.malloc.any (now.world.holds call.ref state) = false

section Balance

variable {call : ThreadCreate} {state : Handle}
  {world after : World} {key : Addr} {tud : Tud}

theorem World.Sole.of_search {malloc : Option Addr} (sole : world.Sole malloc state)
    (same : ∀ key, after.search .thread key = world.search .thread key) :
    after.Sole malloc state := by
  intro key tud found
  rw [same] at found
  exact sole key tud found

/-- A change of an entry gives the state to no other entry. -/
theorem World.Sole.modifyEntry {malloc : Option Addr} (sole : world.Sole malloc state)
    {change : Tud → Tud} (isMalloc : malloc = some key) :
    (world.modifyEntry .thread key change).Sole malloc state := by
  intro other tud found holds
  rw [World.search_modifyEntry] at found
  by_cases isKey : other = key
  · rw [isKey]
    exact isMalloc
  · rw [if_neg isKey] at found
    exact sole other tud found holds

/-- An entry is changed, but not whom it belongs to. -/
theorem Point.Sound.modifyEntry {point next : Point}
    (sound : point.Sound call state world key) {change : Tud → Tud}
    (owned : ∀ tud, ObjectKind.thread.ownedBy call.ref (change tud) =
      ObjectKind.thread.ownedBy call.ref tud)
    (member : ∀ tud, tud.state = point.member state →
      (change tud).state = next.member state)
    (tt : ∀ tt error, next = .marked tt error → tt = state)
    (early : next.early = true → point.early = true) :
    next.Sound call state (world.modifyEntry .thread key change) key where
  malloc := sound.malloc
  entry := by
    rcases sound.entry with ⟨tud, found, isOwned, isMember⟩
    refine ⟨change tud, ?_, (owned tud).trans isOwned, member tud isMember⟩
    rw [World.search_modifyEntry, if_pos rfl, found]
    rfl
  tt := tt
  early := by
    intro isEarly
    rw [World.modifyEntry_trace]
    exact sound.early (early isEarly)

/-- `ThreadFunc` sets the status of its thread, and goes on without taking the state. -/
theorem Point.Sound.setStatus {point next : Point}
    (sound : point.Sound call state world key)
    {status : TudStatus} (member : next.member state = point.member state)
    (unmarked : ∀ tt error, next ≠ .marked tt error)
    (early : next.early = true → point.early = true) :
    next.Sound call state
      (world.modifyEntry .thread key fun tud => { tud with status }) key := by
  refine sound.modifyEntry (fun _ => rfl) ?_ ?_ early
  · intro tud isMember
    exact isMember.trans member.symm
  · exact fun tt error isMarked => absurd isMarked (unmarked tt error)

/-- Whether the entry holds the state depends on where `ThreadFunc` is. -/
theorem balance_of_sound {point : Point} (sound : point.Sound call state world key) :
    balance call state world =
      closes state world.trace + if (point.member state).isSome then 1 else 0 := by
  rcases sound.entry with ⟨tud, found, isOwned, isMember⟩
  have isHeld : call.malloc.any (world.holds call.ref state) =
      (point.member state).isSome := by
    rw [sound.malloc, Option.any_some, World.holds,
      found, Option.any_some, isOwned, Bool.true_and, isMember]
    cases point <;> simp [Point.member]
  rw [balance, isHeld]

/-- A step of `ThreadFunc` keeps what holds, and the prospect, unless the member is set
to null after an error. -/
theorem Point.Moves.sound {point next : Point} {event : LifeEvent}
    (moves : point.Moves key world event after next)
    (sound : point.Sound call state world key) (sole : world.Sole call.malloc state) :
    next.Sound call state after key ∧ after.Sole call.malloc state := by
  cases moves with
  | waits => exact ⟨sound, sole⟩
  | begins =>
      exact ⟨sound.setStatus rfl nofun fun _ => rfl, sole.modifyEntry sound.malloc⟩
  | returns =>
      exact ⟨sound.setStatus rfl nofun fun _ => rfl, sole.modifyEntry sound.malloc⟩
  | raises message =>
      exact ⟨sound.setStatus rfl nofun fun _ => rfl, sole.modifyEntry sound.malloc⟩
  | @marks tud tt error found holds =>
      refine ⟨sound.modifyEntry (fun _ => rfl) (fun _ _ => rfl) ?_ fun _ => rfl,
        sole.modifyEntry sound.malloc⟩
      rcases sound.entry with ⟨other, alsoFound, _, isMember⟩
      cases found.symm.trans alsoFound
      have isState : some tt = some state := holds.symm.trans isMember
      intro other error isMarked
      cases isMarked
      exact Option.some.inj isState
  | finishes tt =>
      have same (key : Addr) : (world.perform (.luaClose tt)).search .thread key =
          world.search .thread key := rfl
      refine ⟨⟨sound.malloc, sound.entry, ?_, ?_⟩, sole.of_search same⟩
      · exact fun _ _ isMarked => nomatch isMarked
      · exact fun isEarly => nomatch isEarly
  | reports tt message =>
      have same (key : Addr) : (world.luajackError message).search .thread key =
          world.search .thread key := rfl
      refine ⟨⟨sound.malloc, sound.entry, ?_, ?_⟩, sole.of_search same⟩
      · exact fun _ _ isMarked => nomatch isMarked
      · exact fun isEarly => nomatch isEarly
  | unlocks =>
      refine ⟨⟨sound.malloc, sound.entry, ?_, ?_⟩, sole⟩
      · exact fun _ _ isMarked => nomatch isMarked
      · exact fun isEarly => nomatch isEarly

/-- How often the state will have been closed, with the thread at a point. -/
def Point.prospect (call : ThreadCreate) (state : Handle)
    (world : World) (point : Point) : Nat :=
  balance call state world + if point.pending then 1 else 0

/-- The prospect stays the same, unless the member is set to null after an error. -/
theorem Point.Moves.prospect {point next : Point} {event : LifeEvent}
    (moves : point.Moves key world event after next)
    (sound : point.Sound call state world key) (sole : world.Sole call.malloc state) :
    next.prospect call state after = 1 ↔
      point.prospect call state world = 1 ∧
        ∀ message, point ≠ .marking (some message) := by
  have later := (moves.sound sound sole).1
  unfold Point.prospect
  rw [balance_of_sound sound, balance_of_sound later]
  cases moves with
  | waits => simp [Point.member]
  | begins => simp [Point.member, Point.pending]
  | returns => simp [Point.member, Point.pending]
  | raises message => simp [Point.member, Point.pending]
  | @marks tud tt error found holds =>
      have unclosed := sound.early rfl
      cases error with
      | none => simp [Point.member, Point.pending]
      | some message => simp [Point.member, Point.pending, unclosed]
  | finishes tt =>
      cases sound.tt tt none rfl
      rw [closes_luaClose]
      simp [Point.member, Point.pending]
  | reports tt message =>
      have same : closes state (world.luajackError message).trace =
          closes state world.trace := rfl
      simp [Point.member, Point.pending, same]
  | unlocks => simp [Point.member, Point.pending]

end Balance

/-! ## The steps of a life -/

/-- A step neither loses the state nor closes it while the entry holds it: the creation
either fails before the entry exists or succeeds, the member is not set to null after an
error, and the client is not closed while the thread has yet to close the state. -/
def LifeEvent.Safe (call : ThreadCreate) : LifeEvent → Life → Prop
  | create, _ => call.Settles
  | step, now => ∀ key message, now.func ≠ some (key, .marking (some message))
  | close .., now => ∀ key tt, now.func ≠ some (key, .marked tt none)
  | returns, _ | raises _, _ => True

section Life

variable {call : ThreadCreate} {state : Handle} {world : World} {key : Addr}

theorem search_withTud_self (absent : world.search .thread key = none) (cud : Addr) :
    (world.withTud key cud state).search .thread key =
      some { Tud.new with cud, state := some state } := by
  rw [World.withTud, World.search_modifyEntry,
    if_pos rfl, World.search, World.table_setTable, Table.find?_insert absent, if_pos rfl]
  rfl

theorem search_withTud_of_ne (absent : world.search .thread key = none)
    (cud : Addr) {other : Addr} (different : other ≠ key) :
    (world.withTud key cud state).search .thread other = world.search .thread other := by
  rw [World.withTud, World.search_modifyEntry,
    if_neg different, World.search, World.table_setTable,
    Table.find?_insert absent, if_neg different]
  rfl

theorem ThreadCreate.Fresh.sole_withTud (fresh : call.Fresh world state)
    (isMalloc : call.malloc = some key) :
    (world.withTud key call.ref state).Sole call.malloc state := by
  intro other tud found holds
  by_cases isKey : other = key
  · rw [isKey]
    exact isMalloc
  · rw [search_withTud_of_ne (fresh.absent key isMalloc) _ isKey] at found
    exact absurd holds (fresh.unused other tud found)

theorem ThreadCreate.Fresh.sole (fresh : call.Fresh world state) :
    world.Sole call.malloc state :=
  fun key tud found holds => absurd holds (fresh.unused key tud found)

theorem ThreadCreate.Fresh.not_holds (fresh : call.Fresh world state) :
    call.malloc.any (world.holds call.ref state) = false := by
  cases isMalloc : call.malloc with
  | none => rfl
  | some key =>
      rw [Option.any_some, World.holds, fresh.absent key isMalloc, Option.any_none]

/-- The state is closed, whether or not an entry holds it. -/
theorem balance_luaClose :
    balance call state (world.perform (.luaClose state)) =
      balance call state world + 1 := by
  have sameHeld : call.malloc.any
      ((world.perform (.luaClose state)).holds call.ref state) =
      call.malloc.any (world.holds call.ref state) := rfl
  rw [balance, balance, closes_luaClose, sameHeld, Nat.add_right_comm]

/-- The entry has been created, and it holds the state. -/
theorem ThreadCreate.Fresh.waiting (fresh : call.Fresh world state)
    (reaches : call.Reaches world key state) :
    Point.waiting.Sound call state (world.withTud key call.ref state) key where
  malloc := reaches.malloc
  entry := by
    refine ⟨_, search_withTud_self reaches.absent call.ref, ?_, rfl⟩
    simp [ObjectKind.ownedBy, ObjectKind.isValid, ObjectKind.owner, Tud.new]
  tt := fun _ _ isMarked => nomatch isMarked
  early := fun _ => fresh.unclosed

/-- A thread that waits holds a state that has not been closed. -/
theorem balance_of_waiting (waiting : Point.waiting.Sound call state world key) :
    balance call state world = 1 := by
  rw [balance_of_sound waiting, waiting.early rfl]
  rfl

/-- What the creation leaves behind, and how often the state will have been closed. -/
theorem ThreadCreate.Outcome.sound {result : Except String (Option LuaInteger)}
    {after : World}
    (outcome : call.Outcome world state (result, after))
    (fresh : call.Fresh world state) :
    after.Sole call.malloc state ∧
      (∀ key, result = .ok (some key) → Point.waiting.Sound call state after key) ∧
      (balance call state after = 1 ↔ call.Settles) := by
  have unheld : balance call state world = 0 := by
    rw [balance, fresh.unclosed, fresh.not_holds]
    rfl
  have isOne : balance call state (world.perform (.luaClose state)) = 1 := by
    rw [balance_luaClose, unheld]
  generalize isBoth : (result, after) = both at outcome
  cases outcome with
  | notLoaded message notLoaded =>
      cases isBoth
      refine ⟨fresh.sole.of_search fun _ => rfl, fun key isKey => (by cases isKey), ?_⟩
      exact iff_of_true isOne (.inl notLoaded)
  | notMoved message isLoaded notMoved =>
      cases isBoth
      refine ⟨fresh.sole, fun key isKey => (by cases isKey), ?_⟩
      apply iff_of_false (by rw [unheld]; decide)
      rintro (notLoaded | ⟨isMoved, _⟩)
      · cases isLoaded.symm.trans notLoaded
      · cases notMoved.symm.trans isMoved
  | notAllocated message isLoaded isMoved noMalloc =>
      cases isBoth
      refine ⟨fresh.sole.of_search fun _ => rfl, fun key isKey => (by cases isKey), ?_⟩
      exact iff_of_true isOne (.inr ⟨isMoved, .inl noMalloc⟩)
  | @notStarted key message reaches stops =>
      cases isBoth
      refine ⟨(fresh.sole_withTud reaches.malloc).of_search fun _ => rfl,
        fun key isKey => (by cases isKey), ?_⟩
      have isTwo : balance call state
          ((world.withTud key call.ref state).perform (.luaClose state)) = 2 := by
        rw [balance_luaClose, balance_of_waiting (fresh.waiting reaches)]
      apply iff_of_false (by rw [isTwo]; decide)
      rintro (notLoaded | ⟨_, noMalloc | starts⟩)
      · rw [reaches.loadchunk] at notLoaded
        cases notLoaded
      · cases reaches.malloc.symm.trans noMalloc
      · exact stops starts
  | @started key thread reaches starts =>
      cases isBoth
      have waiting := fresh.waiting reaches
      have isReady := @Point.Sound.modifyEntry _ _ _ _ _ .waiting waiting
        (fun tud => { tud with thread, status := .ready }) (fun _ => rfl) (fun _ => id)
        waiting.tt fun _ => rfl
      refine ⟨(fresh.sole_withTud reaches.malloc).modifyEntry reaches.malloc, ?_, ?_⟩
      · intro other isKey
        cases isKey
        exact isReady
      · have isMoved : (xmove 1 call.arguments).isOk = true := by
          rw [reaches.xmove]
          rfl
        exact iff_of_true (balance_of_waiting isReady) (.inr ⟨isMoved, .inr starts⟩)

/-- Closing the client closes the state if the entry holds it, and then no valid entry
does. -/
theorem balance_clientClose (sole : world.Sole call.malloc state)
    (rc : Int) (script : Bool) :
    (clientClose call.ref rc script world).2.Sole call.malloc state ∧
      call.malloc.any ((clientClose call.ref rc script world).2.holds call.ref state) =
        false ∧
      balance call state (clientClose call.ref rc script world).2 =
        balance call state world := by
  have isCount := @closes_clientClose _ _ call.ref _ sole rc script
  rcases clientClose_freed call.ref rc script world with ⟨after, run, freed⟩
  rw [run] at isCount ⊢
  have isSearch := freed.objects .thread (by decide)
  have notHeld : call.malloc.any (after.holds call.ref state) = false := by
    cases call.malloc with
    | none => rfl
    | some key =>
        rw [Option.any_some, World.holds, isSearch]
        cases world.search .thread key with
        | none => rfl
        | some tud =>
            rw [Option.map_some, Option.any_some]
            by_cases isOwned : ObjectKind.thread.ownedBy call.ref tud = true
            · rw [if_pos isOwned, ObjectKind.ownedBy, ObjectKind.isValid_cancelValid]
              rfl
            · rw [if_neg isOwned, Bool.eq_false_iff.mpr isOwned]
              rfl
  refine ⟨?_, notHeld, ?_⟩
  · intro key tud found holds
    rw [isSearch, Option.map_eq_some_iff] at found
    rcases found with ⟨old, found, rfl⟩
    apply sole key old found
    split at holds
    · exact holds
    · exact holds
  · rw [balance, balance, notHeld, isCount]
    rfl

theorem prospect_of_func {now : Life} {point : Point} (created : now.created = true)
    (inside : now.func = some (key, point)) (isOpen : now.closed = false) :
    now.prospect call state = point.prospect call state now.world := by
  rw [Life.prospect, if_pos created, Point.prospect, inside, isOpen]
  simp

/-- A thread that runs, or whose client has been closed, has been created. -/
theorem Life.Sound.wasCreated {now : Life} (sound : now.Sound call state)
    (later : now.func ≠ none ∨ now.closed = true) : now.created = true := by
  by_contra uncreated
  rcases sound.fresh (Bool.eq_false_iff.mpr uncreated) with ⟨_, noFunc, isOpen⟩
  rcases later with isFunc | closed
  · exact isFunc noFunc
  · cases isOpen.symm.trans closed

/-- The thread has yet to close the state. -/
theorem any_pending {func : Option (Addr × Point)} :
    func.any (·.2.pending) = true ↔ ∃ key tt, func = some (key, .marked tt none) := by
  constructor
  · intro isPending
    rcases func with _ | ⟨key, point⟩
    · cases isPending
    · cases point with
      | marked tt error =>
          cases error with
          | none => exact ⟨key, tt, rfl⟩
          | some message => cases isPending
      | _ => cases isPending
  · rintro ⟨key, tt, rfl⟩
    rfl

/-- The creation keeps what holds, and the prospect exactly if it settles. -/
theorem Life.Sound.create {now next : Life} {result : Except String (Option LuaInteger)}
    (sound : now.Sound call state) (uncreated : now.created = false)
    (isCreated : threadCreate call now.world = (result, next.world))
    (created : next.created = true) (isOpen : next.closed = now.closed)
    (func : next.func = now.func ∨
      ∃ key, result = .ok (some key) ∧ next.func = some (key, .waiting)) :
    next.Sound call state ∧ (next.prospect call state = 1 ↔
      now.prospect call state = 1 ∧ call.Settles) := by
  rcases sound.fresh uncreated with ⟨fresh, noFunc, wasOpen⟩
  have outcome := threadCreate_outcome fresh
  rw [isCreated] at outcome
  rcases outcome.sound fresh with ⟨sole, waiting, isBalance⟩
  have noMore : next.func.any (·.2.pending) = false := by
    rcases func with same | ⟨key, _, inside⟩
    · rw [same, noFunc]
      rfl
    · rw [inside]
      rfl
  have isOne : now.prospect call state = 1 := by
    rw [Life.prospect, uncreated]
    rfl
  have later : next.prospect call state = balance call state next.world := by
    rw [Life.prospect, if_pos created, noMore]
    rfl
  constructor
  · refine ⟨fun uncreated => ?_, sole, ?_, fun closed => ?_⟩
    · cases created.symm.trans uncreated
    · intro key point inside _
      rcases func with same | ⟨other, isResult, alsoInside⟩
      · cases noFunc.symm.trans (same.symm.trans inside)
      · cases alsoInside.symm.trans inside
        exact waiting key isResult
    · cases wasOpen.symm.trans (isOpen.symm.trans closed)
  · rw [later, isBalance]
    exact (and_iff_right isOne).symm

/-- The only step of `ThreadFunc` that is not safe sets the member to null after an
error. -/
theorem Point.Moves.safe_iff {now : Life} {point next : Point}
    {event : LifeEvent} {after : World}
    (moves : point.Moves key now.world event after next)
    (inside : now.func = some (key, point)) :
    event.Safe call now ↔ ∀ message, point ≠ .marking (some message) := by
  have isStep : LifeEvent.step.Safe call now ↔
      ∀ message, point ≠ .marking (some message) := by
    rw [LifeEvent.Safe, inside]
    constructor
    · exact fun safe message isMarking => safe key message (by rw [isMarking])
    · intro safe other message isMarking
      cases isMarking
      exact safe message rfl
  cases moves with
  | returns => exact iff_of_true trivial fun _ isMarking => nomatch isMarking
  | raises => exact iff_of_true trivial fun _ isMarking => nomatch isMarking
  | _ => exact isStep

/-- A step of `ThreadFunc` keeps what holds, and the prospect exactly if it is safe. -/
theorem Life.Sound.continues {now next : Life} {event : LifeEvent} {before after : Point}
    (sound : now.Sound call state) (isOpen : now.closed = false)
    (inside : now.func = some (key, before))
    (moves : before.Moves key now.world event next.world after)
    (isNext : next.func = some (key, after)) (created : next.created = now.created)
    (closed : next.closed = now.closed) :
    next.Sound call state ∧ (next.prospect call state = 1 ↔
      now.prospect call state = 1 ∧ event.Safe call now) := by
  have isPoint := sound.func key before inside isOpen
  have later := moves.sound isPoint sound.sole
  have wasCreated := sound.wasCreated (.inl (by rw [inside]; exact nofun))
  constructor
  · refine ⟨fun uncreated => ?_, later.2, ?_, fun isClosed => ?_⟩
    · cases wasCreated.symm.trans (created.symm.trans uncreated)
    · intro other point alsoInside _
      cases isNext.symm.trans alsoInside
      exact later.1
    · cases isOpen.symm.trans (closed.symm.trans isClosed)
  · rw [prospect_of_func wasCreated inside isOpen,
      prospect_of_func (created.trans wasCreated) isNext (closed.trans isOpen),
      moves.prospect isPoint sound.sole, moves.safe_iff inside]

/-- Closing the client does not close a state that the thread has yet to close. -/
theorem Life.Sound.close_safe_iff {now : Life} (sound : now.Sound call state)
    (created : now.created = true) (isOpen : now.closed = false)
    (rc : Int) (script : Bool) :
    balance call state now.world = 1 ↔
      now.prospect call state = 1 ∧ (LifeEvent.close rc script).Safe call now := by
  have isProspect : now.prospect call state =
      balance call state now.world + if now.func.any (·.2.pending) then 1 else 0 := by
    rw [Life.prospect, if_pos created, isOpen, Bool.not_false, Bool.and_true]
  rw [isProspect, LifeEvent.Safe]
  by_cases pending : now.func.any (·.2.pending) = true
  · rcases any_pending.mp pending with ⟨key, tt, inside⟩
    have isPoint := sound.func key _ inside isOpen
    have isZero : balance call state now.world = 0 := by
      rw [balance_of_sound isPoint, isPoint.early rfl]
      rfl
    apply iff_of_false (by rw [isZero]; decide)
    exact fun both => both.2 key tt inside
  · rw [if_neg pending]
    refine (and_iff_left ?_).symm
    exact fun key tt inside => pending (any_pending.mpr ⟨key, tt, inside⟩)

/-- A step keeps what holds, and the prospect exactly if it is safe. -/
theorem Life.Moves.sound {now next : Life}
    {event : LifeEvent} (moves : now.Moves call event next)
    (sound : now.Sound call state) :
    next.Sound call state ∧ (next.prospect call state = 1 ↔
      now.prospect call state = 1 ∧ event.Safe call now) := by
  cases moves with
  | @fails world uncreated isWorld noKey =>
      exact sound.create uncreated (Prod.ext rfl isWorld) rfl rfl (.inl rfl)
  | @creates key world uncreated isCreated =>
      exact sound.create uncreated isCreated rfl rfl (.inr ⟨key, rfl, rfl⟩)
  | continues isOpen inside moves => exact sound.continues isOpen inside moves rfl rfl rfl
  | closesClient rc script created isOpen =>
      have closed := balance_clientClose sound.sole rc script
      constructor
      · refine ⟨fun uncreated => ?_, closed.1, ?_, fun _ => closed.2.1⟩
        · cases created.symm.trans uncreated
        · exact fun _ _ _ isOpen => (by cases isOpen)
      · have later : Life.prospect call state { now with
            world := (clientClose call.ref rc script now.world).2, closed := true } =
              balance call state now.world := by
          rw [Life.prospect, if_pos created, closed.2.2, Bool.not_true, Bool.and_false]
          rfl
        rw [later]
        exact sound.close_safe_iff created isOpen rc script

theorem ThreadCreate.Fresh.sound (fresh : call.Fresh world state) :
    (Life.start world).Sound call state where
  fresh := fun _ => ⟨fresh, rfl, rfl⟩
  sole := fresh.sole
  func := fun _ _ inside => nomatch inside
  closed := fun closed => nomatch closed

end Life

/-! ## Closed exactly once -/

/-- A script for a thread that can be created. -/
def ThreadCreate.plain (ref : LuaInteger) (key : Addr) : ThreadCreate :=
  { ThreadCreate.withoutMutex ref key with mutexInit := true }

end LuaJack
