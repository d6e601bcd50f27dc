import LuaJack.Evt.Event
import LuaJack.Table
import Mathlib.Data.Finset.Card

/-!
# Objects and their databases

Clients, ports, ringbuffers and threads are known to Lua by the addresses of their
entries in four databases.  An entry is never removed before the program exits;
closing an object only cancels the mark that says that it is valid.

The world is everything that the functions called from Lua access: the four
databases, the static variables, the state of JACK and of the Lua registry as far
as it matters, and a trace of the calls that release something.
-/

namespace LuaJack

/-- The callbacks that are executed in the real-time thread. -/
inductive ProcessKind where
  | process
  | bufferSize
  | sync
  | timebase
  deriving DecidableEq, Repr

/-- `process.c` defines `TimebaseConditional` as `Timebase`; the member that has this
name is not used. -/
abbrev ProcessKind.timebaseConditional : ProcessKind := .timebase

/-- A `cud_t`: the entry of a client. -/
structure Cud where
  valid : Bool
  client : Handle
  processState : Option Handle
  sampleRate : BitVec 32
  bufferSize : BitVec 32
  /-- The members `SampleRate` to `Session`. -/
  refs : CallbackKind → Ref
  /-- The members `Process` to `Timebase`. -/
  processRefs : ProcessKind → Ref

/-- A `pud_t`: the entry of a port. -/
structure Pud where
  valid : Bool
  cud : Addr
  port : Handle
  flags : BitVec 64
  buf : Option Handle
  nframes : BitVec 32
  bufp : BitVec 32
  samplesize : BitVec 64
  deriving DecidableEq

/-- The `TUD_` codes. -/
inductive TudStatus where
  | configuring
  | ready
  | running
  | done
  | failed
  deriving DecidableEq, Repr

/-- A `tud_t`: the entry of a thread. -/
structure Tud where
  valid : Bool
  cud : Addr
  status : TudStatus
  thread : Handle
  state : Option Handle
  deriving DecidableEq

/-- A `rud_t`: the entry of a ringbuffer. -/
structure Rud where
  valid : Bool
  cud : Addr
  rbuf : Option Handle
  pipefd : Int × Int
  deriving DecidableEq

/-- The calls that start, stop or release something outside the databases. Those
made on behalf of an object carry the address of its entry. -/
inductive Effect where
  | jackActivate (cud : Addr) (rc : Int)
  | jackDeactivate (cud : Addr) (rc : Int)
  | jackClientClose (cud : Option Addr) (client : Handle)
  | jackPortUnregister (pud : Option Addr) (client port : Handle)
  | ringbufferFree (rud : Addr) (rbuf : Option Handle)
  /-- `pthread_cancel`, `pthread_join`, `lua_close` and the destruction of lock and
  condition, as `thread_free` calls them. That they are called is recorded here, also
  for a thread that has never been created. -/
  | threadFree (tud : Addr) (thread : Handle) (state : Option Handle)
  | luaClose (state : Handle)
  | closePipe (pipefd : Int × Int)
  deriving DecidableEq

/-- The state of the program before it exits. -/
structure World where
  mainThread : Bool
  /-- The message with which `luajack_error` was called first, if it was. -/
  exiting : Option String
  activeClients : BitVec 64
  cuds : Table Addr Cud
  puds : Table Addr Pud
  tuds : Table Addr Tud
  ruds : Table Addr Rud
  /-- The clients that are active in JACK. -/
  activated : Finset Addr
  registry : Ref → Option LuaFunction
  queue : List Evt
  trace : List Effect

namespace World

/-- The state at program start, in the main thread. -/
def initial : World where
  mainThread := true
  exiting := none
  activeClients := 0
  cuds := .empty
  puds := .empty
  tuds := .empty
  ruds := .empty
  activated := ∅
  registry := fun _ => none
  queue := []
  trace := []

/-- Record a call. -/
def perform (world : World) (effect : Effect) : World :=
  { world with trace := world.trace ++ [effect] }

/-- `luajack_error`: only the first error is registered. -/
def luajackError (world : World) (message : String) : World :=
  { world with exiting := world.exiting <|> some message }

end World

/-! ## Functions called from Lua -/

/-- A function called from Lua: it changes the world, and returns or raises an error. -/
def Lua (α : Type) : Type := World → Except String α × World

namespace Lua

variable {α β : Type}

instance : Monad Lua where
  pure value := fun world => (.ok value, world)
  bind function rest := fun world =>
    match function world with
    | (.ok value, world) => rest value world
    | (.error message, world) => (.error message, world)

/-- `luaL_error`. -/
def error (message : String) : Lua α := fun world => (.error message, world)

/-- Access the world. -/
def asks (access : World → α) : Lua α := fun world => (.ok (access world), world)

/-- Change the world. -/
def modify (change : World → World) : Lua Unit := fun world => (.ok (), change world)

@[simp] theorem pure_apply (value : α) (world : World) :
    (pure value : Lua α) world = (.ok value, world) := rfl

theorem bind_apply (function : Lua α) (rest : α → Lua β) (world : World) :
    (function >>= rest) world =
      match function world with
      | (.ok value, world) => rest value world
      | (.error message, world) => (.error message, world) := rfl

@[simp] theorem error_bind (message : String) (rest : α → Lua β) :
    (error message : Lua α) >>= rest = error message := rfl

@[simp] theorem error_apply (message : String) (world : World) :
    (error message : Lua α) world = (.error message, world) := rfl

@[simp] theorem asks_apply (access : World → α) (world : World) :
    asks access world = (.ok (access world), world) := rfl

@[simp] theorem asks_bind (access : World → α) (rest : α → Lua β) (world : World) :
    (asks access >>= rest) world = rest (access world) world := rfl

@[simp] theorem modify_apply (change : World → World) (world : World) :
    modify change world = (.ok (), change world) := rfl

@[simp] theorem modify_bind (change : World → World)
    (rest : Unit → Lua β) (world : World) :
    (modify change >>= rest) world = rest () (change world) := rfl

/-! ### Relations that functions respect -/

/-- Whether it returns or raises an error, the function leads only to related worlds. -/
def Respects (relation : World → World → Prop) (function : Lua α) : Prop :=
  ∀ world, relation world (function world).2

section Respects

variable {relation : World → World → Prop} {function : Lua α} {rest : α → Lua β}

theorem respects_pure (refl : ∀ world, relation world world) (value : α) :
    Respects relation (pure value : Lua α) := refl

theorem respects_error (refl : ∀ world, relation world world) (message : String) :
    Respects relation (error message : Lua α) := refl

theorem respects_asks (refl : ∀ world, relation world world) (access : World → α) :
    Respects relation (asks access) := refl

theorem respects_bind (trans : ∀ {first second third}, relation first second →
    relation second third → relation first third) (first : Respects relation function)
    (second : ∀ value, Respects relation (rest value)) :
    Respects relation (function >>= rest) := by
  intro world
  have before := first world
  rw [bind_apply]
  split
  next value after result =>
    rw [result] at before
    exact trans before (second value after)
  next message after result =>
    rw [result] at before
    exact before

end Respects

end Lua

/-! ## The databases -/

/-- The four kinds of objects. -/
inductive ObjectKind where
  | client
  | port
  | ringbuffer
  | thread
  deriving DecidableEq, Repr

namespace ObjectKind

/-- The type of the entries of a database. -/
@[reducible] def Entry : ObjectKind → Type
  | client => Cud
  | port => Pud
  | ringbuffer => Rud
  | thread => Tud

/-- The mark that says that an object is valid. -/
def isValid : (kind : ObjectKind) → kind.Entry → Bool
  | client, cud => cud.valid
  | port, pud => pud.valid
  | ringbuffer, rud => rud.valid
  | thread, tud => tud.valid

/-- Cancel the mark. -/
def cancelValid : (kind : ObjectKind) → kind.Entry → kind.Entry
  | client, cud => { cud with valid := false }
  | port, pud => { pud with valid := false }
  | ringbuffer, rud => { rud with valid := false }
  | thread, tud => { tud with valid := false }

@[simp] theorem isValid_cancelValid (kind : ObjectKind) (entry : kind.Entry) :
    kind.isValid (kind.cancelValid entry) = false := by
  cases kind <;> rfl

/-- The error of the `_check` functions. -/
def invalidReference : ObjectKind → String
  | client => "invalid client reference"
  | port => "invalid port reference"
  | ringbuffer => "invalid ringbuffer reference"
  | thread => "invalid thread reference"

end ObjectKind

namespace World

/-- The database of a kind of objects. -/
def table (world : World) : (kind : ObjectKind) → Table Addr kind.Entry
  | .client => world.cuds
  | .port => world.puds
  | .ringbuffer => world.ruds
  | .thread => world.tuds

/-- The world with another database of a kind of objects. -/
def setTable (world : World) : (kind : ObjectKind) → Table Addr kind.Entry → World
  | .client, cuds => { world with cuds }
  | .port, puds => { world with puds }
  | .ringbuffer, ruds => { world with ruds }
  | .thread, tuds => { world with tuds }

/-- `cud_search`, `pud_search`, `rud_search` and `tud_search`. -/
def search (world : World) (kind : ObjectKind) (key : Addr) : Option kind.Entry :=
  (world.table kind).find? key

/-- There is a valid object of this kind with this key. -/
def Valid (world : World) (kind : ObjectKind) (key : Addr) : Prop :=
  ∃ entry, world.search kind key = some entry ∧ kind.isValid entry = true

instance (world : World) (kind : ObjectKind) (key : Addr) :
    Decidable (world.Valid kind key) :=
  decidable_of_iff ((world.search kind key).any kind.isValid = true)
    (by rw [Option.any_eq_true]; rfl)

/-- Change an entry in place. -/
def modifyEntry (world : World) (kind : ObjectKind) (key : Addr)
    (change : kind.Entry → kind.Entry) : World :=
  world.setTable kind ((world.table kind).modify key change)

@[simp] theorem table_setTable (world : World)
    (kind : ObjectKind) (table : Table Addr kind.Entry) :
    (world.setTable kind table).table kind = table := by
  cases kind <;> rfl

theorem table_setTable_of_ne (world : World)
    {kind other : ObjectKind} (different : other ≠ kind) (table : Table Addr kind.Entry) :
    (world.setTable kind table).table other = world.table other := by
  cases kind <;> cases other <;> first | rfl | exact absurd rfl different

@[simp] theorem table_perform (world : World) (effect : Effect) (kind : ObjectKind) :
    (world.perform effect).table kind = world.table kind := by
  cases kind <;> rfl

@[simp] theorem table_luajackError (world : World)
    (message : String) (kind : ObjectKind) :
    (world.luajackError message).table kind = world.table kind := by
  cases kind <;> rfl

end World

/-- `cud_check`, `pud_check`, `rud_check` and `tud_check`: the address of the entry. -/
def check (kind : ObjectKind) (ref : LuaInteger) : Lua Addr := do
  match ← Lua.asks (·.search kind ref) with
  | none => Lua.error kind.invalidReference
  | some entry =>
      if kind.isValid entry then
        return ref
      else
        Lua.error kind.invalidReference

/-- `cud_check`. -/
def cudCheck : LuaInteger → Lua Addr := check .client

/-- `pud_check`. -/
def pudCheck : LuaInteger → Lua Addr := check .port

/-- `rud_check`. -/
def rudCheck : LuaInteger → Lua Addr := check .ringbuffer

/-- `tud_check`. -/
def tudCheck : LuaInteger → Lua Addr := check .thread

/-- What `cud_new` initializes an entry to. -/
def Cud.new : Cud where
  valid := true
  client := 0
  processState := none
  sampleRate := 0
  bufferSize := 0
  refs := fun _ => noRef
  processRefs := fun _ => noRef

/-- What `pud_new` initializes an entry to. -/
def Pud.new (cud : Addr) : Pud where
  valid := true
  cud
  port := 0
  flags := 0
  buf := none
  nframes := 0
  bufp := 0
  samplesize := 0

/-- What `rud_new` initializes an entry to. -/
def Rud.new : Rud where
  valid := true
  cud := 0
  rbuf := none
  pipefd := (0, 0)

/-- What `tud_new` initializes an entry to. -/
def Tud.new : Tud where
  valid := true
  cud := 0
  status := .configuring
  thread := 0
  state := none

/-- `cud_new`, `pud_new`, `rud_new` and `tud_new`, given the answer of the allocator
and the initial members of the entry. -/
def new (kind : ObjectKind) (malloc : Option Addr) (entry : kind.Entry) :
    Lua (Option Addr) := do
  match malloc with
  | none => return none
  | some key =>
      match ← Lua.asks (·.search kind key) with
      | some _ =>
          Lua.modify (·.luajackError unexpectedError)
          return none
      | none =>
          Lua.modify fun world => world.setTable kind
            ((world.table kind).insert key entry)
          return some key

theorem check_eq_error {kind : ObjectKind} {ref : LuaInteger} {world : World}
    (invalid : ¬world.Valid kind ref) :
    check kind ref world = (.error kind.invalidReference, world) := by
  unfold check
  rw [Lua.asks_bind]
  cases found : world.search kind ref with
  | none => rfl
  | some entry =>
      have cancelled : ¬kind.isValid entry :=
        fun isValid => invalid ⟨entry, found, isValid⟩
      simp only [cancelled]
      rfl

theorem check_of_valid {kind : ObjectKind} {ref : LuaInteger} {world : World}
    (valid : world.Valid kind ref) : check kind ref world = (.ok ref, world) := by
  rcases valid with ⟨entry, found, isValid⟩
  unfold check
  rw [Lua.asks_bind, found]
  simp only [isValid]
  rfl

theorem check_bind_of_valid {kind : ObjectKind}
    {ref : LuaInteger} {world : World} {α : Type}
    (valid : world.Valid kind ref) (rest : Addr → Lua α) :
    (check kind ref >>= rest) world = rest ref world := by
  rw [Lua.bind_apply, check_of_valid valid]

theorem check_bind_of_not_valid {kind : ObjectKind}
    {ref : LuaInteger} {world : World} {α : Type}
    (invalid : ¬world.Valid kind ref) (rest : Addr → Lua α) :
    (check kind ref >>= rest) world = (.error kind.invalidReference, world) := by
  rw [Lua.bind_apply, check_eq_error invalid]

/-- A reference passes the check exactly if it is the key of a valid object, and
then it resolves to that object. -/
theorem check_eq_ok {kind : ObjectKind} {ref : LuaInteger}
    {key : Addr} {world after : World} :
    check kind ref world = (.ok key, after) ↔ world.Valid kind ref ∧
      key = ref ∧ after = world := by
  by_cases valid : world.Valid kind ref
  · rw [check_of_valid valid]
    constructor
    · intro result
      cases result
      exact ⟨valid, rfl, rfl⟩
    · rintro ⟨_, rfl, rfl⟩
      rfl
  · rw [check_eq_error valid]
    constructor
    · intro result
      cases result
    · intro result
      exact absurd result.1 valid

end LuaJack
