import LuaJack.Object.Ownership
import LuaJack.Object.Session

/-!
# The life of a thread

`ThreadCreate_` creates the Lua state of a thread, `ThreadFunc` executes the script in
the new thread, and `thread_free` cancels and joins the thread when its client is
closed.  A thread may be cancelled at any point, as its cancellation type is
asynchronous. -/

namespace LuaJack

open Atomic

/-- Where `ThreadFunc` is. -/
inductive Point where
  /-- The creation of the thread may not be complete. -/
  | waiting
  | script
  /-- The status of the thread has been set. -/
  | marking (error : Option String)
  /-- The member `state` has been set to null; its value is in the local variable `TT`. -/
  | marked (tt : Handle) (error : Option String)
  | unlocking
  | ended
  deriving DecidableEq

/-- What happens in the life of a thread. -/
inductive LifeEvent where
  /-- `thread_load` or `thread_loadfile` is called. -/
  | create
  /-- `ThreadFunc` performs its next step. -/
  | step
  /-- The script returns. -/
  | returns
  /-- The script raises an error. -/
  | raises (message : String)
  /-- The client is closed, which cancels the thread. -/
  | close (rc : Int) (script : Bool)

/-- A step of `ThreadFunc`. -/
def threadFunc (key : Addr) (world : World) : Point → LifeEvent → Option (World × Point)
  | .waiting, .step => do
      let tud ← world.search .thread key
      if tud.status = .configuring then
        return (world, .waiting)
      else
        return (world.modifyEntry .thread key fun tud =>
          { tud with status := .running }, .script)
  | .script, .returns =>
      some (world.modifyEntry .thread key fun tud =>
        { tud with status := .done }, .marking none)
  | .script, .raises message =>
      some (world.modifyEntry .thread key fun tud => { tud with status := .failed },
        .marking (some message))
  | .marking error, .step => do
      let tud ← world.search .thread key
      let tt ← tud.state
      return (world.modifyEntry .thread key fun tud =>
        { tud with state := none }, .marked tt error)
  | .marked tt error, .step =>
      match error with
      | none => some (world.perform (.luaClose tt), .unlocking)
      | some message => some (world.luajackError message, .unlocking)
  | .unlocking, .step => some (world, .ended)
  | _, _ => none

/-- A thread that may have been created, whose client may have been closed. -/
structure Life where
  world : World
  created : Bool
  /-- The address of the entry, and where `ThreadFunc` is, if the thread has been
  started. -/
  func : Option (Addr × Point)
  closed : Bool

/-- Before the thread is created. -/
def Life.start (world : World) : Life where
  world
  created := false
  func := none
  closed := false

/-- The life of a thread. -/
def threadLife (call : ThreadCreate) : Machine LifeEvent Life
  | .create, now =>
      if now.created then
        none
      else
        match threadCreate call now.world with
        | (.ok (some ref), world) =>
            some { now with world, created := true, func := some (ref, .waiting) }
        | (_, world) => some { now with world, created := true }
  | .close rc script, now =>
      if now.created && !now.closed then
        some { now with world :=
          (clientClose call.ref rc script now.world).2, closed := true }
      else
        none
  | event, now =>
      if now.closed then
        none
      else
        match now.func with
        | none => none
        | some (key, point) =>
            (threadFunc key now.world point event).map fun (world, point) =>
              { now with world, func := some (key, point) }

/-! ## The end of `ThreadFunc` -/

namespace World

variable {world : World} {key : Addr} {state : Handle} {tud : Tud}

theorem modifyEntry_comp {kind : ObjectKind} (first second : kind.Entry → kind.Entry) :
    (world.modifyEntry kind key first).modifyEntry kind key second =
      world.modifyEntry kind key (second ∘ first) := by
  rw [modifyEntry, modifyEntry, table_setTable, Table.modify_comp, modifyEntry]
  cases kind <;> rfl

theorem exiting_threadEnd (message : String) :
    (world.threadEnd key (some message)).exiting = (world.exiting <|> some message) := rfl

end World

section Steps

variable {call : ThreadCreate} {now : Life}
  {key : Addr} {point : Point} {event : LifeEvent}

/-- While the client is open, a thread that has been started continues. -/
theorem threadLife_func {world : World} {after : Point}
    (inside : now.func = some (key, point))
    (opened : now.closed = false) (performed : threadFunc key now.world point event =
      some (world, after)) :
    threadLife call event now = some { now with world, func := some (key, after) } := by
  have isStep : threadLife call event now = (threadFunc key now.world point event).map
      fun (world, point) => { now with world, func := some (key, point) } := by
    cases event with
    | create => cases point <;> cases performed
    | close rc script => cases point <;> cases performed
    | _ => simp only [threadLife, opened, inside, Bool.false_eq_true, ↓reduceIte]
  rw [isStep, performed]
  rfl

/-- The value of the member is moved to the local variable. -/
theorem threadFunc_marking {world : World}
    {tud : Tud} {state : Handle} (error : Option String)
    (found : world.search .thread key = some tud) (holds : tud.state = some state) :
    threadFunc key world (.marking error) .step =
      some (world.modifyEntry .thread key fun tud => { tud with state := none },
        .marked state error) := by
  simp only [threadFunc, found, holds, Option.bind_eq_bind, Option.bind_some]
  rfl

section End

variable {tud : Tud} {state : Handle} {status : TudStatus} {error : Option String}
variable (found : now.world.search .thread key = some tud)
  (holds : tud.state = some state)
variable (opened : now.closed = false)
include found holds opened

/-- After the script the status is set, and then the member is set to null. -/
theorem run_marked (ends : threadFunc key now.world .script event =
      some (now.world.modifyEntry .thread key fun tud =>
        { tud with status }, .marking error))
    (inside : now.func = some (key, .script)) :
    (threadLife call).run [event, .step] now = some { now with
      world := now.world.modifyEntry .thread key fun tud =>
        { tud with status, state := none }
      func := some (key, .marked state error) } := by
  have isMarking : (now.world.modifyEntry .thread key fun tud =>
      { tud with status }).search .thread key = some { tud with status } := by
    rw [World.search_modifyEntry, if_pos rfl, found]
    rfl
  have moved := threadFunc_marking error isMarking holds
  rw [World.modifyEntry_comp] at moved
  rw [Machine.run_cons]
  refine ⟨_, threadLife_func inside opened ends, ?_⟩
  rw [Machine.run_cons]
  exact ⟨_, threadLife_func rfl opened moved, rfl⟩

variable (inside : now.func = some (key, .script))
include inside

/-- A script that returns ends the thread, and its state is closed. -/
theorem run_returns : (threadLife call).run [.returns, .step, .step] now =
    some { now with
      world := (now.world.threadEnd key none).perform (.luaClose state)
      func := some (key, .unlocking) } := by
  have isMarked :=
    @run_marked call _ _ .returns _ _ .done none found holds opened rfl inside
  show (threadLife call).run ([.returns, .step] ++ [.step]) now = _
  rw [Machine.run_append]
  exact ⟨_, isMarked, Machine.run_cons.mpr ⟨_, threadLife_func rfl opened rfl, rfl⟩⟩

/-- A script that raises an error ends the thread, and its state is not closed. -/
theorem run_raises (message : String) :
    (threadLife call).run [.raises message, .step, .step] now =
    some { now with
      world := now.world.threadEnd key (some message)
      func := some (key, .unlocking) } := by
  have isMarked :=
    @run_marked call _ _ (.raises message) _ _ .failed (some message) found holds
    opened rfl inside
  show (threadLife call).run ([.raises message, .step] ++ [.step]) now = _
  rw [Machine.run_append]
  exact ⟨_, isMarked, Machine.run_cons.mpr ⟨_, threadLife_func rfl opened rfl, rfl⟩⟩

end End

/-- An error of the script is passed to `luajack_error` only if the client is open and
the thread has a state. -/
theorem state_of_run_raises {message : String} {after : Life}
    (inside : now.func = some (key, .script))
    (performed : (threadLife call).run [.raises message, .step, .step] now = some after) :
    now.closed = false ∧ ∃ tud state, now.world.search .thread key = some tud ∧
      tud.state = some state := by
  rcases Machine.run_cons.mp performed with ⟨raised, raises, performed⟩
  rcases Machine.run_cons.mp performed with ⟨moved, moves, _⟩
  have opened : now.closed = false := by
    by_contra isClosed
    simp only [threadLife, Bool.not_eq_false] at raises isClosed
    rw [if_pos isClosed] at raises
    cases raises
  cases (threadLife_func inside opened rfl).symm.trans raises
  simp only [threadLife, opened, Bool.false_eq_true,
    ↓reduceIte, threadFunc, Option.bind_eq_bind,
    Option.map_eq_some_iff, Option.bind_eq_some_iff, World.search_modifyEntry] at moves
  rcases moves with ⟨_, ⟨_, ⟨tud, found, rfl⟩, state, holds, _⟩, _⟩
  exact ⟨opened, tud, state, found, holds⟩

end Steps

end LuaJack
