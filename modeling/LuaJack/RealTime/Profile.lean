import LuaJack.Atomic.History
import LuaJack.Images
import LuaJack.RealTime.Wrappers
import Mathlib.Algebra.Ring.Int.Defs

/-!
# Wrappers among other threads

The wrappers of the real-time callbacks share the entry of their client with the main
thread, which turns the profiling on and off, registers ports and may close the client,
and the entries of the ports with all code that uses their buffers.  While the profiling
is on, the wrappers read the clock when they begin and when they end, and pass the
difference to the statistics of the client.

The wrappers are programs over the single accesses to what they share.  What they do on
the stack of the process state is left out. -/

namespace LuaJack.Profiling

open Atomic RealTime

variable {Number : Type}

/-! ## Statistics -/

/-- `luajack_stat_t`. -/
structure Stat (Number : Type) where
  n : BitVec 64
  max : Number
  min : Number
  mean : Number
  m2 : Number
  deriving DecidableEq

section Stat

variable [Zero Number] [Add Number] [Sub Number]
  [Mul Number] [Div Number] [NatCast Number]
variable [LT Number] [DecidableLT Number]

/-- What `luajack_stat_reset` assigns. -/
def Stat.reset : Stat Number where
  n := 0
  max := 0
  min := ((10000000000 : Nat) : Number)
  mean := 0
  m2 := 0

/-- `luajack_stat_update`. -/
def Stat.update (stat : Stat Number) (sample : Number) : Stat Number :=
  let n := stat.n + 1
  let delta := sample - stat.mean
  let mean := stat.mean + delta / (n.toNat : Number)
  { n
    min := if sample < stat.min then sample else stat.min
    max := if stat.max < sample then sample else stat.max
    mean
    m2 := stat.m2 + delta * (sample - mean) }

/-- `luajack_stat_variance`. -/
def Stat.variance (stat : Stat Number) : Number :=
  if 1 < stat.n then stat.m2 / ((stat.n - 1).toNat : Number) else 0

end Stat

/-! ## Accesses -/

/-- What the threads share about a client. -/
structure Shared (Number : Type) extends Cycle where
  /-- A record of whether the process callback has been called and has not returned. -/
  calling : Bool
  stat : Stat Number
  /-- `luajack_exiting`. -/
  exiting : Bool
  /-- A record of what has been passed to `luajack_stat_update`. -/
  samples : List Number

/-- Where a wrapper looks at the flag and at the clock. -/
inductive Moment where
  /-- In `BEGIN`. -/
  | entry
  /-- In `END`. -/
  | exit
  deriving DecidableEq

/-- Who uses the buffer of a port. -/
inductive User where
  /-- The functions that a wrapper runs. -/
  | callback
  /-- Code of another thread. -/
  | elsewhere
  deriving DecidableEq

/-- The single accesses, and the functions that are called. -/
inductive ProfileOp (Number : Type) where
  | isCudProfile (moment : Moment)
  | isCudValid
  | isProcessCallback
  | getMarks
  /-- What `MarkSet` or `MarkReset` assigns for one of the marks. -/
  | setMarks (bit : Nat) (marks : Marks)
  | setNframes (nframes : BitVec 32)
  | setBufferSize (nframes : BitVec 32)
  /-- `SIMPLEQ_FIRST`. -/
  | first
  /-- `SIMPLEQ_NEXT`. -/
  | next (pud : Addr)
  /-- The three assignments of `buffer_drop_all`. -/
  | drop (pud : Addr)
  /-- There is one more port. -/
  | more
  /-- `cud_fifo_insert` of a new entry. -/
  | insertTail (pud : Addr)
  /-- What a function assigns that uses the buffer of a port. -/
  | setPort (user : User) (pud : Addr) (port : Port)
  | exiting
  | luajackError
  | luajackNow (moment : Moment)
  | statReset
  | statUpdate (sample : Number)
  | getStat
  /-- `lua_rawgeti`: the callback is a function. -/
  | rawgeti (kind : ProcessKind)
  /-- The callback begins. -/
  | enter (kind : ProcessKind)
  /-- `lua_pcall` returns: the callback has not failed. -/
  | pcall (kind : ProcessKind)
  /-- `lua_toboolean` of what it has returned. -/
  | toboolean
  /-- A C function returns. -/
  | ccall (kind : ProcessKind)

namespace ProfileOp

/-- What each access returns. -/
@[reducible] def Answer : ProfileOp Number → Type
  | isCudProfile _ | isCudValid | isProcessCallback | exiting => Bool
  | rawgeti _ | pcall _ | toboolean => Bool
  | getMarks => Marks
  | first | next _ => Option Addr
  | luajackNow _ => Number
  | getStat => Stat Number
  | ccall _ => Int
  | _ => Unit

/-- The port behind another one in a queue. -/
def behind (pud : Addr) : List Addr → Option Addr
  | [] => none
  | head :: fifo => if head = pud then fifo.head? else behind pud fifo

/-- An access that the program foresees may be impossible. -/
def Possible : ProfileOp Number → Shared Number → Prop
  | more, _ => False
  | insertTail pud, shared => pud ∉ shared.fifo
  | _, _ => True

instance (op : ProfileOp Number) (shared : Shared Number) :
    Decidable (op.Possible shared) := by
  unfold Possible
  split <;> infer_instance

section Exec

variable [Zero Number] [Add Number] [Sub Number]
  [Mul Number] [Div Number] [NatCast Number]
variable [LT Number] [DecidableLT Number]

/-- The effect of each access, where the answers of the clock and of the callbacks come
from outside. -/
def exec (outside : (op : ProfileOp Number) → op.Answer) :
    (op : ProfileOp Number) → Shared Number → Answer op × Shared Number
  | isCudProfile _, shared => (shared.marks.get Marks.profileBit, shared)
  | isCudValid, shared => (shared.marks.get Marks.validBit, shared)
  | isProcessCallback, shared => (shared.marks.get Marks.processCallbackBit, shared)
  | getMarks, shared => (shared.marks, shared)
  | setMarks _ marks, shared => ((), { shared with marks })
  | setNframes nframes, shared => ((), { shared with nframes })
  | setBufferSize bufferSize, shared => ((), { shared with bufferSize })
  | first, shared => (shared.fifo.head?, shared)
  | next pud, shared => (behind pud shared.fifo, shared)
  | drop pud, shared =>
      ((), { shared with puds := Function.update shared.puds pud .dropped })
  | more, shared => ((), shared)
  | insertTail pud, shared =>
      ((), { shared with
        fifo := shared.fifo ++ [pud], puds := Function.update shared.puds pud .dropped })
  | setPort _ pud port, shared =>
      ((), { shared with puds := Function.update shared.puds pud port })
  | exiting, shared => (shared.exiting, shared)
  | luajackError, shared => ((), { shared with exiting := true })
  | statReset, shared => ((), { shared with stat := .reset })
  | statUpdate sample, shared =>
      ((), { shared with stat := shared.stat.update sample, samples :=
        shared.samples ++ [sample] })
  | getStat, shared => (shared.stat, shared)
  | luajackNow moment, shared => (outside (.luajackNow moment), shared)
  | rawgeti kind, shared => (outside (.rawgeti kind), shared)
  | enter kind, shared =>
      ((), { shared with calling := if kind = .process then true else shared.calling })
  | pcall kind, shared =>
      (outside (.pcall kind),
        { shared with calling := if kind = .process then false else shared.calling })
  | toboolean, shared => (outside .toboolean, shared)
  | ccall kind, shared =>
      (outside (.ccall kind),
        { shared with calling := if kind = .process then false else shared.calling })

/-- The meaning of each access. The clock and the callbacks may answer anything. -/
def meaning :
    Meaning (ProfileOp Number) Answer (Shared Number) := fun op before answer after =>
  op.Possible before ∧ ∃ outside, (answer, after) = exec outside op before

end Exec

end ProfileOp

/-- Code that accesses the client. -/
abbrev ProfileProgram (Number : Type) := Program (ProfileOp Number) ProfileOp.Answer

/-- Perform one access. -/
abbrev profileOp (op : ProfileOp Number) :
    ProfileProgram Number op.Answer := Program.perform op

/-- `MarkSet`. -/
def markSet (bit : Nat) : ProfileProgram Number Unit := do
  let marks ← (profileOp .getMarks : ProfileProgram Number Marks)
  profileOp (.setMarks bit (marks.set bit))

/-- `MarkReset`. -/
def markReset (bit : Nat) : ProfileProgram Number Unit := do
  let marks ← (profileOp .getMarks : ProfileProgram Number Marks)
  profileOp (.setMarks bit (marks.reset bit))

/-- The entries of ports that a function changes, each as far as its client is in the
process callback. -/
def useBuffers (user : User) : List (Addr × Port) → ProfileProgram Number Unit
  | [] => return ()
  | (pud, port) :: uses => do
      if ← profileOp .isProcessCallback then
        profileOp (.setPort user pud port)
      useBuffers user uses

/-- The loop of `buffer_drop_all`, which ends after so many rounds. -/
def dropFrom : Nat → Option Addr → ProfileProgram Number Unit
  | _, none => return ()
  | 0, some _ => profileOp .more
  | rounds + 1, some pud => do
      profileOp (.drop pud)
      dropFrom rounds (← profileOp (.next pud))

/-- `buffer_drop_all`. -/
def bufferDropAll (rounds : Nat) : ProfileProgram Number Unit := do
  dropFrom rounds (← profileOp .first)

/-- `luajack_error`, with its result. -/
def luajackError : ProfileProgram Number Int := do
  profileOp .luajackError
  return 0

/-- What JACK passes to a wrapper, and how the functions behave that it runs. -/
structure Occasion where
  nframes : BitVec 32
  /-- The entries of ports that the callback changes. -/
  uses : List (Addr × Port)
  /-- Those that finalizers change, which `lua_gc` runs. -/
  finalizers : List (Addr × Port)
  /-- The number of ports that `buffer_drop_all` finds. -/
  rounds : Nat

section Wrappers

variable [Zero Number] [Sub Number] [DecidableEq Number]

/-- What `BEGIN` has in common for Lua and C, before the rest of the wrapper. -/
def begin (rest : Number → ProfileProgram Number Int) : ProfileProgram Number Int := do
  let ts ←
    if ← profileOp (.isCudProfile .entry) then profileOp (.luajackNow .entry) else pure 0
  if ← profileOp .exiting then
    return 0
  else if !(← profileOp .isCudValid) then
    return 0
  else
    rest ts

/-- `luajack_stat_update` of the time since the begin. -/
def since (ts : Number) : ProfileProgram Number Unit := do
  let now ← profileOp (.luajackNow .exit)
  profileOp (.statUpdate (now - ts))

/-! ## Wrappers of Lua functions -/

/-- `BEGIN`. -/
def luaBegin (cb : ProcessKind) (rest : Number → ProfileProgram Number Int) :
    ProfileProgram Number Int :=
  begin fun ts => do
    if !(← profileOp (.rawgeti cb)) then
      luajackError
    else
      rest ts

/-- `EXEC`, before the rest of the wrapper. -/
def exec (cb : ProcessKind) (uses : List (Addr × Port))
    (rest : ProfileProgram Number Int) :
    ProfileProgram Number Int := do
  profileOp (.enter cb)
  useBuffers .callback uses
  if !(← profileOp (.pcall cb)) then
    luajackError
  else
    rest

/-- `END`. It only depends on whether the time of the begin has been taken. -/
def luaEnd (finalizers : List (Addr × Port)) (ts : Number) (rc : Int) :
    ProfileProgram Number Int := do
  useBuffers .callback finalizers
  if ts ≠ 0 then
    since ts
    return rc
  else
    return rc

/-- `Process`. -/
def process (occasion : Occasion) : ProfileProgram Number Int :=
  luaBegin .process fun ts => do
    markSet Marks.processCallbackBit
    profileOp (.setNframes occasion.nframes)
    profileOp (.setBufferSize occasion.nframes)
    exec .process occasion.uses do
      bufferDropAll occasion.rounds
      profileOp (.setNframes 0)
      markReset Marks.processCallbackBit
      luaEnd occasion.finalizers ts 0

/-- `BufferSize`. -/
def bufferSize (occasion : Occasion) : ProfileProgram Number Int :=
  luaBegin .bufferSize fun ts => do
    profileOp (.setBufferSize occasion.nframes)
    exec .bufferSize occasion.uses (luaEnd occasion.finalizers ts 0)

/-- `Sync`. -/
def sync (occasion : Occasion) : ProfileProgram Number Int :=
  luaBegin .sync fun ts => exec .sync occasion.uses do
    let rc ← profileOp .toboolean
    luaEnd occasion.finalizers ts (if rc then 1 else 0)

/-- `Timebase_`. -/
def timebase_ (occasion : Occasion) : ProfileProgram Number Int :=
  luaBegin .timebase fun ts => exec .timebase occasion.uses
    (luaEnd occasion.finalizers ts 0)

/-! ## Wrappers of C functions -/

/-- Call a C function. -/
def ccall (cb : ProcessKind) (uses : List (Addr × Port)) : ProfileProgram Number Int := do
  profileOp (.enter cb)
  useBuffers .callback uses
  profileOp (.ccall cb)

/-- `END`. It depends on whether the profiling is on now. -/
def cEnd (ts : Number) (rc : Int) : ProfileProgram Number Int := do
  if ← profileOp (.isCudProfile .exit) then
    since ts
    return rc
  else
    return rc

/-- `CProcess`. -/
def cprocess (occasion : Occasion) : ProfileProgram Number Int :=
  begin fun ts => do
    markSet Marks.processCallbackBit
    profileOp (.setNframes occasion.nframes)
    profileOp (.setBufferSize occasion.nframes)
    let rc ← ccall .process occasion.uses
    if rc ≠ 0 then
      luajackError
    else
      bufferDropAll occasion.rounds
      profileOp (.setNframes 0)
      markReset Marks.processCallbackBit
      cEnd ts 0

/-- `CBufferSize`. -/
def cbufferSize (occasion : Occasion) : ProfileProgram Number Int :=
  begin fun ts => do
    profileOp (.setBufferSize occasion.nframes)
    let rc ← ccall .bufferSize occasion.uses
    if rc ≠ 0 then
      luajackError
    else
      cEnd ts 0

/-- `CSync`. -/
def csync (occasion : Occasion) : ProfileProgram Number Int :=
  begin fun ts => do
    let rc ← ccall .sync occasion.uses
    cEnd ts rc

/-- `CTimebase_`. -/
def ctimebase_ (occasion : Occasion) : ProfileProgram Number Int :=
  begin fun ts => do
    let _ ← ccall .timebase occasion.uses
    cEnd ts 0

/-- The language of a callback. -/
inductive Language where
  | lua
  | c
  deriving DecidableEq

/-- The wrapper that JACK calls. -/
def wrapper : Language → ProcessKind → Occasion → ProfileProgram Number Int
  | .lua, .process => process
  | .lua, .bufferSize => bufferSize
  | .lua, .sync => sync
  | .lua, .timebase => timebase_
  | .c, .process => cprocess
  | .c, .bufferSize => cbufferSize
  | .c, .sync => csync
  | .c, .timebase => ctimebase_

end Wrappers

/-! ## The main thread -/

/-- What `Profile` returns. -/
inductive Profiled (Number : Type) where
  | nothing
  | statistics (n : BitVec 64) (min max mean variance : Number)
  | error (message : String)
  deriving DecidableEq

/-- `Profile`, with its second argument. A word may be shortened. -/
def profile [Zero Number] [Div Number] [NatCast Number] (what : LuaValue) :
    ProfileProgram Number (Profiled Number) := do
  if what = .nil then
    let stat ← (profileOp .getStat : ProfileProgram Number (Stat Number))
    return .statistics stat.n stat.min stat.max stat.mean stat.variance
  else
    match what.checkString 2 with
    | .error message => return .error message
    | .ok what =>
        if what.isPrefixOf (chars "start") then
          profileOp .statReset
          markSet Marks.profileBit
          return .nothing
        else if what.isPrefixOf (chars "restart") then
          markSet Marks.profileBit
          return .nothing
        else if what.isPrefixOf (chars "stop") then
          markReset Marks.profileBit
          return .nothing
        else
          return .error "invalid onoff argument"

/-! ## The system -/

/-- The threads of the program. -/
inductive Thread (ι : Type) where
  | main
  /-- A thread in which JACK calls wrappers. -/
  | jack (index : ι)
  /-- Any other thread, in which errors may occur. -/
  | other (index : ι)
  deriving DecidableEq

/-- What a returning call reports. -/
inductive Event (Number : Type) where
  | profiled (result : Profiled Number)
  /-- The client is no longer valid. -/
  | closed
  /-- The client has got a port. -/
  | registered
  /-- Buffers have been used, or not. -/
  | used
  | returned (language : Language) (kind : ProcessKind) (rc : Int)
  | failed

/-- The main thread profiles a client, registers its ports and may close it, while JACK
calls the wrappers. Any thread may use buffers of ports. -/
def profiling (ι Number : Type) [Zero Number]
    [Add Number] [Sub Number] [Mul Number] [Div Number]
    [NatCast Number] [LT Number] [DecidableLT Number] [DecidableEq Number] :
    System (Thread ι) (ProfileOp Number) ProfileOp.Answer
      (Event Number) (Shared Number) where
  meaning := ProfileOp.meaning
  calls := fun thread program =>
    match thread with
    | .main =>
        (∃ what, program = (do return .profiled (← profile what))) ∨
          program = (do markReset Marks.validBit; return .closed) ∨
          (∃ pud, program = (do profileOp (.insertTail pud); return .registered)) ∨
          ∃ uses, program = (do useBuffers .elsewhere uses; return .used)
    | .jack _ => ∃ language kind occasion,
        program = (do return .returned language kind (← wrapper language kind occasion))
    | .other _ =>
        program = (do profileOp .luajackError; return .failed) ∨
          ∃ uses, program = (do useBuffers .elsewhere uses; return .used)

/-! ## Concrete runs -/

/-- The clock shows some time, and the callbacks are functions that all end in the same
way. -/
def answering [Zero Number] [NatCast Number] (now : Number) (succeeds : Bool) (rc : Int) :
    (op : ProfileOp Number) → op.Answer
  | .luajackNow _ => now
  | .rawgeti _ => true
  | .pcall _ | .toboolean => succeeds
  | .ccall _ => rc
  | .isCudProfile _ | .isCudValid | .isProcessCallback | .exiting => false
  | .getMarks => 0#32
  | .first | .next _ => none
  | .getStat => .reset
  | .setMarks _ _ | .setNframes _ | .setBufferSize
    _ | .drop _ | .more | .insertTail _ => ()
  | .setPort _ _ _ | .luajackError | .statReset | .statUpdate _ | .enter _ => ()

/-- An access, if it is possible. The clock shows 105 seconds, and the callbacks
succeed. -/
def attempt (op : ProfileOp Int) (shared : Shared Int) :
    Option (op.Answer × Shared Int) :=
  if op.Possible shared then some (op.exec (answering 105 true 0) shared) else none

theorem meaning_of_attempt {op : ProfileOp Int}
    {before after : Shared Int} {answer : op.Answer}
    (performed : attempt op before = some (answer, after)) :
    ProfileOp.meaning op before answer after := by
  unfold attempt at performed
  split at performed
  next isPossible =>
    exact ⟨isPossible, answering 105 true 0, (Option.some.inj performed).symm⟩
  next => cases performed

end LuaJack.Profiling
