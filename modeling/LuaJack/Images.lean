import LuaJack.Basic

/-!
# Images of C values in Lua

The arguments that functions receive from Lua and the values they return: how
strings are taken from an argument, and how flags, modes and types of JACK are
named in Lua.
-/

namespace LuaJack

/-- A Lua value, as far as the binding tells them apart. -/
inductive LuaValue where
  | nil
  | boolean (value : Bool)
  | integer (value : LuaInteger)
  /-- A number that is not an integer, by its string form. -/
  | float (text : CString)
  | string (text : CString)
  | other (typename : String)
  deriving DecidableEq, Repr

/-- The characters of a string literal. -/
def chars (literal : String) :
    CString := literal.toList.map fun char => UInt8.ofNat char.toNat

/-- A message that contains the characters of a C string. -/
def CString.message (text : CString) : String :=
  String.ofList (text.map fun char => Char.ofNat char.toNat)

namespace LuaValue

/-- `lua_typename`. -/
def typename : LuaValue → String
  | nil => "nil"
  | boolean _ => "boolean"
  | integer _ | float _ => "number"
  | string _ => "string"
  | other typename => typename

/-- `lua_toboolean`. -/
def toBoolean : LuaValue → Bool
  | nil => false
  | boolean value => value
  | _ => true

/-- `lua_tostring`: a C string ends with its first zero. -/
def toString? : LuaValue → Option CString
  | integer value => some (chars (toString value.toInt))
  | float text => some text
  | string text => some (text.takeWhile (· ≠ 0))
  | _ => none

/-- `luaL_checkstring`. -/
def checkString (arg : Int) (value : LuaValue) : Except String CString :=
  match value.toString? with
  | some text => .ok text
  | none => .error s!"bad argument #{arg} (string expected, got {value.typename})"

/-- `luaL_optstring` with the default `NULL`. -/
def optString (arg : Int) (value : LuaValue) : Except String (Option CString) :=
  match value with
  | nil => .ok none
  | value => (value.checkString arg).map some

end LuaValue

/-- The `JackStatus` flags and the names that `client_pushstatus` gives them. -/
def statusNames : List (BitVec 32 × String) :=
  [(0x1, "failure"), (0x2, "invalid_option"), (0x4, "name_not_unique"),
    (0x8, "server_started"), (0x10, "server_failed"), (0x20, "server_error"),
    (0x40, "no_such_client"), (0x80, "load_failure"), (0x100, "init_failure"),
    (0x200, "shm_failure"), (0x400, "version_error"), (0x800, "backend_error"),
    (0x1000, "client_zombie")]

/-- `client_pushstatus`. -/
def clientPushstatus (status : BitVec 32) : String :=
  if status = 0 then
    "no_error"
  else
    "|".intercalate ((statusNames.filter fun flag => status &&& flag.1 ≠ 0).map Prod.snd)

/-- `latency_pushmode`. -/
def latencyPushmode (mode : BitVec 32) : Except String String :=
  if mode = 0 then .ok "capture"
  else if mode = 1 then .ok "playback"
  else .error s!"invalid callback mode {mode.toNat}"

/-- `CheckMode`. -/
def checkMode (arg : Int) (value : LuaValue) : Except String (BitVec 32) := do
  let mode ← value.checkString arg
  if (chars "capture").isPrefixOf mode then return 0
  else if (chars "playback").isPrefixOf mode then return 1
  else throw s!"invalid latency callback mode '{mode.message}'"

/-- `session_pushtype`. -/
def sessionPushtype (type : BitVec 32) : Except String String :=
  if type = 1 then .ok "save"
  else if type = 2 then .ok "save_and_quit"
  else if type = 3 then .ok "save_template"
  else .error s!"invalid session event type {type.toNat}"

/-- `session_checktype`. -/
def sessionChecktype (arg : Int) (value : LuaValue) : Except String (BitVec 32) := do
  let type ← value.checkString arg
  if (chars "save").isPrefixOf type then return 1
  else if (chars "save_and_quit").isPrefixOf type then return 2
  else if (chars "save_template").isPrefixOf type then return 3
  else throw s!"invalid session event type '{type.message}'"

/-- `session_checkflag`. -/
def sessionCheckflag (arg : Int) (value : LuaValue) : Except String (BitVec 32) := do
  match ← value.optString arg with
  | none => return 0
  | some flag =>
      if (chars "save_error").isPrefixOf flag then return 0x1
      else if (chars "need_terminal").isPrefixOf flag then return 0x2
      else throw s!"invalid session flag '{flag.message}'"

end LuaJack
