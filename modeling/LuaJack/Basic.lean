import Mathlib.Order.Basic
import Mathlib.Order.Nat
import Mathlib.Tactic.Common

/-!
# Values of C and Lua

Machine words, pointers and strings as the modules of the binding exchange them.
-/

namespace LuaJack

/-- A pointer, or a `uintptr_t`. -/
abbrev Addr := BitVec 64

/-- Addresses are compared as unsigned numbers. -/
instance : LinearOrder Addr :=
  LinearOrder.lift' BitVec.toNat fun _ _ => BitVec.eq_of_toNat_eq

theorem Addr.zero_le (addr : Addr) : (0 : Addr) ≤ addr := Nat.zero_le addr.toNat

/-- A `lua_Integer`. A `uintptr_t` and the `lua_Integer` it is converted to consist
of the same bits. -/
abbrev LuaInteger := BitVec 64

/-- The bytes of a C string, without the terminating zero. -/
abbrev CString := List UInt8

/-- Something that JACK, the threads library or Lua has created. -/
abbrev Handle := Addr

/-- A reference into the Lua registry. -/
abbrev Ref := Int

/-- `LUA_NOREF`. -/
def noRef : Ref := -2

/-- The name of a Lua function. -/
abbrev LuaFunction := Nat

/-- `UNEXPECTED_ERROR`, without the file and line that follow. -/
def unexpectedError : String := "unexpected error"

end LuaJack
