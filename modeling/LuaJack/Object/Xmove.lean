import LuaJack.Fallible
import LuaJack.Object.Create
import Mathlib.Algebra.Ring.Int.Defs
import Mathlib.Data.List.TakeWhile
import Mathlib.Logic.Function.Basic

/-!
# Arguments of scripts

`luajack_xmove` copies the arguments of `process_load` and `thread_load` to the stack of
the new Lua state, and to the table `arg` there.  The chunk is called with what is on
the stack above it. -/

namespace LuaJack.Scripts

/-- A Lua value, with the floats that there are. -/
inductive Datum (Number : Type) where
  | nil
  | boolean (value : Bool)
  | integer (value : LuaInteger)
  | float (value : Number)
  | string (bytes : List UInt8)
  | other (typename : String)
  deriving DecidableEq

/-- A value on the stack of the new state. -/
inductive Slot (Number : Type) where
  | chunk
  | argTable
  | datum (value : Datum Number)
  deriving DecidableEq

/-- The new state: its stack from the bottom, the fields of the table that is created,
and the global variable `arg`. -/
structure Receiver (Number : Type) where
  stack : List (Slot Number)
  arg : Int → Datum Number
  global : Option (Slot Number)

/-- An error is raised in the state of the caller, or in the new state. -/
inductive Failure where
  | caller (message : String)
  | receiver (message : String)
  deriving DecidableEq, Repr

/-- A part of `luajack_xmove`. -/
abbrev Transfer (Number : Type) := Fallible (Receiver Number) Failure

variable {Number : Type}

/-! ## Functions of the Lua API on the new state -/

/-- Push a value. -/
def push (slot : Slot Number) : Transfer Number Unit :=
  Fallible.modify fun receiver => { receiver with stack := receiver.stack ++ [slot] }

/-- `lua_newtable`, for the table `arg`. -/
def newtable : Transfer Number Unit :=
  Fallible.modify fun receiver =>
    { receiver with stack := receiver.stack ++ [.argTable], arg := fun _ => .nil }

/-- `lua_gettop`. -/
def gettop : Transfer Number Nat := Fallible.asks fun receiver => receiver.stack.length

/-- `lua_pushvalue` with an index from the bottom. -/
def pushvalue (index : Nat) : Transfer Number Unit := fun receiver =>
  match receiver.stack[index - 1]? with
  | some slot => push slot receiver
  | none => (.error (.receiver "invalid index"), receiver)

/-- `lua_pushvalue` with the index of the top. -/
def pushtop : Transfer Number Unit := do pushvalue (← gettop)

/-- `lua_seti`, on the table `arg`. -/
def seti (index : Nat) (n : Int) : Transfer Number Unit := fun receiver =>
  match receiver.stack[index - 1]?, receiver.stack.getLast? with
  | some .argTable, some (.datum value) =>
      (.ok (), { receiver with
        stack := receiver.stack.dropLast, arg := Function.update receiver.arg n value })
  | _, _ => (.error (.receiver "attempt to index a value"), receiver)

/-- `lua_setglobal`, for the variable `arg`. -/
def setglobal : Transfer Number Unit :=
  Fallible.modify fun receiver =>
    { receiver with stack := receiver.stack.dropLast, global := receiver.stack.getLast? }

/-- `lua_remove`. -/
def remove (index : Nat) : Transfer Number Unit :=
  Fallible.modify fun receiver =>
    { receiver with stack := receiver.stack.eraseIdx (index - 1) }

/-! ## `luajack_xmove` -/

/-- The bytes of a string that a C string has. -/
def cstring (bytes : List UInt8) : List UInt8 := bytes.takeWhile (· ≠ 0)

/-- What is pushed for a value: what `lua_tonumber` and `lua_tostring` return goes through
`lua_pushnumber` and `lua_pushstring`. -/
def Datum.copy (ofInteger : LuaInteger → Number) : Datum Number → Option (Datum Number)
  | nil => some .nil
  | boolean value => some (.boolean value)
  | integer value => some (.float (ofInteger value))
  | float value => some (.float value)
  | string bytes => some (.string (cstring bytes))
  | other _ => none

/-- `SetArg`. -/
def setArg (argIndex : Nat) (argn : Int) : Transfer Number Unit := do
  pushtop
  seti argIndex argn

/-- `lua_typename`. -/
def Datum.typename : Datum Number → String
  | nil => "nil"
  | boolean _ => "boolean"
  | integer _ | float _ => "number"
  | string _ => "string"
  | other typename => typename

/-- The value as the model of the calls sees it, with the string forms of floats. -/
def Datum.image (format : Number → CString) : Datum Number → LuaValue
  | nil => .nil
  | boolean value => .boolean value
  | integer value => .integer value
  | float value => .float (format value)
  | string bytes => .string bytes
  | other typename => .other typename

/-- The loop of `luajack_xmove`, from the argument with number `n` on. -/
def moveFrom (ofInteger : LuaInteger → Number) (argIndex : Nat) :
    Nat → Int → List (Datum Number) → Transfer Number Unit
  | _, _, [] => return ()
  | n, argn, value :: values => do
      match value.copy ofInteger with
      | none =>
          Fallible.error (.caller s!"invalid type '{value.typename}' of argument #{n} ")
      | some copied =>
          push (.datum copied)
          setArg argIndex argn
          moveFrom ofInteger argIndex (n + 1) (argn + 1) values

/-- `luajack_xmove`. The stack of the new state can grow by some numbers of values. -/
def luajackXmove (ofInteger : LuaInteger → Number) (checkstack : Nat → Bool)
    (chunk : List UInt8) (values : List (Datum Number)) : Transfer Number Unit := do
  if checkstack values.length then
    newtable
    let argIndex ← gettop
    push (.datum (.string (cstring chunk)))
    seti argIndex 0
    moveFrom ofInteger argIndex 1 1 values
    pushvalue argIndex
    setglobal
    remove argIndex
  else
    Fallible.error (.receiver "stack overflow (cannot grow Lua stack for thread)")

/-- The state when the chunk has been loaded. -/
def loaded : Receiver Number where
  stack := [.chunk]
  arg := fun _ => .nil
  global := none

/-- The values that `lua_pcall` passes to the chunk, if all values but one are
arguments. -/
def Receiver.varargs (receiver : Receiver Number) : Option (List (Slot Number)) :=
  let nargs := receiver.stack.length - 1
  match receiver.stack.drop (receiver.stack.length - (nargs + 1)) with
  | .chunk :: arguments => some arguments
  | _ => none

/-! ## What is copied -/

/-- The fields of the table when values have been stored from a field on. -/
def storeFrom (arg : Int → Datum Number) : Int → List (Datum Number) → Int → Datum Number
  | _, [] => arg
  | argn, value :: values => storeFrom (Function.update arg argn value) (argn + 1) values

section Moves

variable {ofInteger : LuaInteger → Number} {values copies : List (Datum Number)}

theorem storeFrom_before {arg : Int → Datum Number}
    {argn index : Int} (before : index < argn) :
    storeFrom arg argn values index = arg index := by
  induction values generalizing arg argn with
  | nil => rfl
  | cons value values ih =>
      rw [storeFrom, ih (by omega), Function.update_of_ne (by omega)]

theorem storeFrom_getElem? {arg : Int → Datum Number} {argn : Int} {index : Nat}
    (less : index < values.length) :
    some (storeFrom arg argn values (argn + index)) = values[index]? := by
  induction values generalizing arg argn index with
  | nil => exact absurd less (Nat.not_lt_zero _)
  | cons value values ih =>
      cases index with
      | zero =>
          rw [storeFrom, storeFrom_before (by omega), Int.natCast_zero, Int.add_zero,
            Function.update_self]
          rfl
      | succ index =>
          have isIndex : argn + ((index + 1 : Nat) : Int) = argn + 1 + index := by omega
          rw [storeFrom, isIndex, ih (Nat.lt_of_succ_lt_succ less)]
          rfl

theorem pushtop_ok {stack : List (Slot Number)} {arg : Int → Datum Number}
    {global : Option (Slot Number)} {slot : Slot Number}
    (isTop : stack.getLast? = some slot) :
    (pushtop : Transfer Number Unit) ⟨stack, arg, global⟩ =
      (.ok (), ⟨stack ++ [slot], arg, global⟩) := by
  rw [List.getLast?_eq_getElem?] at isTop
  show pushvalue stack.length ⟨stack, arg, global⟩ = _
  rw [pushvalue]
  simp only [isTop]
  rfl

/-- The top of the stack, when the chunk and the table are on it. -/
theorem getLast?_pushed (rest : List (Slot Number)) (slot : Slot Number) :
    (Slot.chunk :: .argTable :: (rest ++ [slot])).getLast? = some slot := by
  rw [← List.cons_append, ← List.cons_append, List.getLast?_concat]

/-- The stack without its top. -/
theorem dropLast_pushed (rest : List (Slot Number)) (slot : Slot Number) :
    (Slot.chunk :: .argTable :: (rest ++ [slot])).dropLast =
      .chunk :: .argTable :: rest := by
  rw [← List.cons_append, ← List.cons_append, List.dropLast_concat]

theorem seti_ok {rest : List (Slot Number)} {arg : Int → Datum Number}
    {global : Option (Slot Number)} (value : Datum Number) (n : Int) :
    (seti 2 n : Transfer Number Unit)
        ⟨.chunk :: .argTable :: (rest ++ [.datum value]), arg, global⟩ =
      (.ok (), ⟨.chunk :: .argTable :: rest, Function.update arg n value, global⟩) := by
  have isTable : (Slot.chunk :: .argTable :: (rest ++ [.datum value]))[2 - 1]? =
      some (.argTable : Slot Number) := rfl
  rw [seti]
  simp only [isTable, getLast?_pushed, dropLast_pushed]

/-- One value is pushed, and stored in the table. -/
theorem setArg_ok {rest : List (Slot Number)} {arg : Int → Datum Number}
    {global : Option (Slot Number)} (value : Datum Number) (argn : Int) :
    (do push (.datum value); setArg 2 argn : Transfer Number Unit)
        ⟨.chunk :: .argTable :: rest, arg, global⟩ =
      (.ok (), ⟨.chunk :: .argTable :: (rest ++ [.datum value]),
        Function.update arg argn value, global⟩) := by
  show setArg 2 argn ⟨.chunk :: .argTable :: (rest ++ [.datum value]), arg, global⟩ = _
  rw [setArg, Fallible.bind_of_ok (pushtop_ok (getLast?_pushed rest _))]
  exact seti_ok value argn

/-- A list is copied if its first value and the others are. -/
theorem mapM_copy_cons {value : Datum Number} :
    (value :: values).mapM (Datum.copy ofInteger) = some copies ↔
      ∃ copied others, value.copy ofInteger = some copied ∧
        values.mapM (Datum.copy ofInteger) = some others ∧ copies = copied :: others := by
  rw [List.mapM_cons]
  constructor
  · intro isCopies
    rcases Option.bind_eq_some_iff.mp isCopies with ⟨copied, isCopied, isRest⟩
    rcases Option.bind_eq_some_iff.mp isRest with ⟨others, isOthers, isCopies⟩
    exact ⟨copied, others, isCopied, isOthers, (Option.some.inj isCopies).symm⟩
  · rintro ⟨copied, others, isCopied, isOthers, rfl⟩
    rw [isCopied, isOthers]
    rfl

/-- The loop copies the values to the stack and to the table. -/
theorem moveFrom_ok {rest : List (Slot Number)} {arg : Int → Datum Number}
    {global : Option (Slot Number)} (n : Nat) (argn : Int)
    (isCopies : values.mapM (Datum.copy ofInteger) = some copies) :
    moveFrom ofInteger 2 n argn values ⟨.chunk :: .argTable :: rest, arg, global⟩ =
      (.ok (), ⟨.chunk :: .argTable :: (rest ++ copies.map .datum),
        storeFrom arg argn copies, global⟩) := by
  induction values generalizing rest arg n argn copies with
  | nil =>
      rw [List.mapM_nil] at isCopies
      cases isCopies
      rw [List.map_nil, List.append_nil]
      rfl
  | cons value values ih =>
      rcases mapM_copy_cons.mp isCopies with ⟨copied, others, isCopied, isOthers, rfl⟩
      rw [moveFrom]
      simp only [isCopied]
      rw [← Fallible.bind_assoc, Fallible.bind_of_ok (setArg_ok copied argn),
        ih _ _ isOthers, List.append_assoc]
      rfl

/-- What `luajack_xmove` does when the table has been created and has got the name of
the chunk. -/
theorem luajackXmove_eq {checkstack : Nat → Bool}
    (grows : checkstack values.length = true) (chunk : List UInt8) :
    luajackXmove ofInteger checkstack chunk values loaded =
      (do
        moveFrom ofInteger 2 1 1 values
        pushvalue 2
        setglobal
        remove 2 : Transfer Number Unit)
      ⟨[.chunk, .argTable], Function.update (fun _ => .nil) 0
        (.string (cstring chunk)), none⟩ := by
  have isNamed := @seti_ok Number [] (fun _ => .nil) none (.string (cstring chunk)) 0
  unfold luajackXmove
  rw [if_pos grows]
  show (do
      seti 2 0
      moveFrom ofInteger 2 1 1 values
      pushvalue 2
      setglobal
      remove 2 : Transfer Number Unit)
    ⟨.chunk :: .argTable :: ([] ++ [.datum (.string (cstring chunk))]),
      fun _ => .nil, none⟩ = _
  rw [Fallible.bind_of_ok isNamed]

/-- What `luajack_xmove` leaves. -/
theorem luajackXmove_ok {checkstack : Nat → Bool}
    (grows : checkstack values.length = true)
    (chunk : List UInt8) (isCopies : values.mapM (Datum.copy ofInteger) = some copies) :
    luajackXmove ofInteger checkstack chunk values loaded =
      (.ok (), ⟨.chunk :: copies.map .datum,
        storeFrom (Function.update (fun _ => .nil) 0 (.string (cstring chunk))) 1 copies,
        some .argTable⟩) := by
  have isMoved := @moveFrom_ok _ _ _ _ [] (Function.update (fun _ => .nil) 0
    (.string (cstring chunk))) none 1 1 isCopies
  rw [luajackXmove_eq grows chunk, Fallible.bind_of_ok isMoved, List.nil_append]
  show (do setglobal; remove 2 : Transfer Number Unit)
    ⟨.chunk :: .argTable :: (copies.map .datum ++ [.argTable]), _, none⟩ = _
  rw [setglobal, Fallible.modify_bind]
  simp only [getLast?_pushed, dropLast_pushed]
  rfl

/-- The loop fails as the model of the calls without the values says. -/
theorem moveFrom_xmove (format : Number → CString) {rest : List (Slot Number)}
    {arg : Int → Datum Number} {global : Option (Slot Number)} (n : Nat) (argn : Int) :
    (moveFrom ofInteger 2 n argn values ⟨.chunk :: .argTable :: rest, arg, global⟩).1 =
      (xmove n (values.map (Datum.image format))).mapError .caller := by
  induction values generalizing rest arg n argn with
  | nil => rfl
  | cons value values ih =>
      have continues {copied : Datum Number}
          (isCopied : value.copy ofInteger = some copied) :
          (moveFrom ofInteger 2 n argn (value :: values)
              ⟨.chunk :: .argTable :: rest, arg, global⟩).1 =
            (xmove (n + 1) (values.map (Datum.image format))).mapError .caller := by
        rw [moveFrom]
        simp only [isCopied]
        rw [← Fallible.bind_assoc, Fallible.bind_of_ok (setArg_ok copied argn)]
        exact ih (n + 1) (argn + 1)
      cases value with
      | nil => exact continues rfl
      | boolean value => exact continues rfl
      | integer value => exact continues rfl
      | float value => exact continues rfl
      | string bytes => exact continues rfl
      | other typename => rfl

/-- Values that can be passed are copied. -/
theorem copies_of_xmove (format : Number → CString) {n : Nat}
    (isOk : xmove n (values.map (Datum.image format)) = .ok ()) :
    ∃ copies, values.mapM (Datum.copy ofInteger) = some copies := by
  induction values generalizing n with
  | nil => exact ⟨[], List.mapM_nil⟩
  | cons value values ih =>
      have continues {copied : Datum Number}
          (isCopied : value.copy ofInteger = some copied)
          (isOk : xmove (n + 1) (values.map (Datum.image format)) = .ok ()) :
          ∃ copies, (value :: values).mapM (Datum.copy ofInteger) = some copies := by
        rcases ih isOk with ⟨copies, isCopies⟩
        exact ⟨_, mapM_copy_cons.mpr ⟨copied, copies, isCopied, isCopies, rfl⟩⟩
      cases value with
      | nil => exact continues rfl isOk
      | boolean value => exact continues rfl isOk
      | integer value => exact continues rfl isOk
      | float value => exact continues rfl isOk
      | string bytes => exact continues rfl isOk
      | other typename => cases isOk

/-- `luajack_xmove` raises the errors that the model of the calls without the values
says. -/
theorem luajackXmove_xmove (format : Number → CString) {checkstack : Nat → Bool}
    (grows : checkstack values.length = true) (chunk : List UInt8) :
    (luajackXmove ofInteger checkstack chunk values loaded).1 =
      (xmove 1 (values.map (Datum.image format))).mapError .caller := by
  cases isMoved : xmove 1 (values.map (Datum.image format)) with
  | ok value =>
      rcases copies_of_xmove format isMoved with ⟨copies, isCopies⟩
      rw [luajackXmove_ok grows chunk isCopies]
      rfl
  | error message =>
      have fails := @moveFrom_xmove _ ofInteger values format
          [] (Function.update (fun _ => .nil) 0
        (.string (cstring chunk))) none 1 1
      rw [isMoved] at fails
      rw [luajackXmove_eq grows chunk]
      cases isResult : moveFrom ofInteger 2 1 1 values
        ⟨[.chunk, .argTable], Function.update (fun _ => .nil) 0
          (.string (cstring chunk)), none⟩ with
      | mk result after =>
          rw [isResult] at fails
          cases fails
          rw [Fallible.bind_of_error isResult]
          rfl

end Moves

/-! ## Faithful copies -/

/-- A value is no integer, and no string with an embedded zero. -/
def Datum.Portable : Datum Number → Prop
  | integer _ => False
  | string bytes => 0 ∉ bytes
  | _ => True

instance Datum.decidablePortable : (value : Datum Number) → Decidable value.Portable
  | integer _ => inferInstanceAs (Decidable False)
  | string bytes => inferInstanceAs (Decidable (0 ∉ bytes))
  | nil | boolean _ | float _ | other _ => inferInstanceAs (Decidable True)

/-- The chunk receives values as its arguments and in the table `arg`. -/
structure Delivered (values : List (Datum Number))
    (receiver : Receiver Number) : Prop where
  varargs : receiver.varargs = some (values.map .datum)
  global : receiver.global = some .argTable
  arg : ∀ index < values.length, some (receiver.arg (1 + index)) = values[index]?

section Delivered

variable {ofInteger : LuaInteger → Number} {values copies : List (Datum Number)}

theorem varargs_chunk (arguments : List (Slot Number)) (arg : Int → Datum Number)
    (global : Option (Slot Number)) :
    Receiver.varargs ⟨.chunk :: arguments, arg, global⟩ = some arguments := by
  simp only [Receiver.varargs, List.length_cons,
    Nat.add_sub_cancel, Nat.sub_self, List.drop_zero]

theorem copy_eq_self_iff {value copied : Datum Number}
    (isCopied : value.copy ofInteger = some copied) :
    copied = value ↔ value.Portable := by
  cases value with
  | nil =>
      cases isCopied
      exact ⟨fun _ => trivial, fun _ => rfl⟩
  | boolean value =>
      cases isCopied
      exact ⟨fun _ => trivial, fun _ => rfl⟩
  | integer value =>
      cases isCopied
      constructor
      · exact fun same => nomatch same
      · exact False.elim
  | float value =>
      cases isCopied
      exact ⟨fun _ => trivial, fun _ => rfl⟩
  | string bytes =>
      cases isCopied
      rw [Datum.string.injEq, cstring, List.takeWhile_eq_self_iff]
      simp only [decide_eq_true_eq]
      constructor
      · exact fun nonzero member => nonzero 0 member rfl
      · exact fun absent byte member isZero => absent (isZero ▸ member)
  | other typename => cases isCopied

theorem copies_eq_iff (isCopies : values.mapM (Datum.copy ofInteger) = some copies) :
    copies = values ↔ ∀ value ∈ values, value.Portable := by
  induction values generalizing copies with
  | nil =>
      rw [List.mapM_nil] at isCopies
      cases isCopies
      constructor
      · exact fun _ => List.forall_mem_nil _
      · exact fun _ => rfl
  | cons value values ih =>
      rcases mapM_copy_cons.mp isCopies with ⟨copied, others, isCopied, isOthers, rfl⟩
      show copied :: others = value :: values ↔ _
      rw [List.cons.injEq, copy_eq_self_iff isCopied, ih isOthers, List.forall_mem_cons]

/-- The chunk receives the values exactly if none of them is an integer, or a string
with an embedded zero. -/
theorem arguments_delivered_iff (ofInteger : LuaInteger → Number)
    (checkstack : Nat → Bool)
    (chunk : List UInt8) (values : List (Datum Number)) (receiver : Receiver Number)
    (moved : luajackXmove ofInteger checkstack chunk values loaded = (.ok (), receiver)) :
    Delivered values receiver ↔ ∀ value ∈ values, value.Portable := by
  have grows : checkstack values.length = true := by
    by_contra full
    rw [luajackXmove, if_neg full] at moved
    cases moved
  have isMoved : xmove 1 (values.map (Datum.image fun _ => [])) = .ok () := by
    have agrees := @luajackXmove_xmove _ ofInteger values (fun _ => []) _ grows chunk
    rw [moved] at agrees
    cases isMoved : xmove 1 (values.map (Datum.image fun _ => [])) with
    | ok value => rfl
    | error message =>
        rw [isMoved] at agrees
        cases agrees
  rcases copies_of_xmove (fun _ => []) isMoved with ⟨copies, isCopies⟩
  rw [luajackXmove_ok grows chunk isCopies] at moved
  cases moved
  rw [← copies_eq_iff isCopies]
  constructor
  · intro delivered
    have isVarargs := delivered.varargs
    rw [varargs_chunk, Option.some.injEq] at isVarargs
    exact List.map_injective_iff.mpr (fun one other same => Slot.datum.inj same) isVarargs
  · intro same
    refine ⟨by rw [varargs_chunk, same], rfl, ?_⟩
    intro index less
    rw [← same] at less ⊢
    exact storeFrom_getElem? less

/-- Any list of values that may be passed is passed to the chunk, if the Lua stack can
grow. -/
theorem exists_moved (ofInteger : LuaInteger → Number) {checkstack : Nat → Bool}
    (grows : checkstack values.length = true) (chunk : List UInt8)
    (allowed : ∀ value ∈ values, (value.copy ofInteger).isSome = true) :
    ∃ receiver, luajackXmove ofInteger checkstack chunk values loaded =
      (.ok (), receiver) := by
  have isSome : ∃ copies, values.mapM (Datum.copy ofInteger) = some copies := by
    clear grows
    induction values with
    | nil => exact ⟨[], List.mapM_nil⟩
    | cons value values ih =>
        rw [List.forall_mem_cons] at allowed
        rcases Option.isSome_iff_exists.mp allowed.1 with ⟨copied, isCopied⟩
        rcases ih allowed.2 with ⟨copies, isCopies⟩
        exact ⟨_, mapM_copy_cons.mpr ⟨copied, copies, isCopied, isCopies, rfl⟩⟩
  rcases isSome with ⟨copies, isCopies⟩
  exact ⟨_, luajackXmove_ok grows chunk isCopies⟩

end Delivered

/-- A boolean, nothing, and a string. -/
def threeValues : List (Datum Int) := [.boolean true, .nil, .string [97, 98]]

theorem arguments_delivered_iff_threeValues : ∃ receiver,
    luajackXmove BitVec.toInt (fun _ => true) [109] threeValues loaded =
      (.ok (), receiver) ∧
      Delivered threeValues receiver := by
  refine ⟨_, rfl, ?_⟩
  apply (arguments_delivered_iff BitVec.toInt (fun _ => true) [109] threeValues _ rfl).mpr
  decide

/-- An integer arrives as a float, and a string without what is behind its zero. -/
theorem not_arguments_delivered : ∃ receiver : Receiver Int,
    luajackXmove BitVec.toInt (fun _ => true) [109]
      [.integer 3, .string [97, 0, 98]] loaded =
      (.ok (), receiver) ∧
    receiver.varargs = some [.datum (.float 3), .datum (.string [97])] ∧
    ¬ Delivered [.integer 3, .string [97, 0, 98]] receiver := by
  refine ⟨_, rfl, rfl, ?_⟩
  intro delivered
  exact absurd delivered.varargs (by decide)

end LuaJack.Scripts
