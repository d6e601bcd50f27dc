import LuaJack.Chains
import LuaJack.Fallible
import LuaJack.Images

/-!
# The option parser

`getopt.lua` parses the arguments of a script.  Where the original parser prints a
message and ends the program, this one assigns the message to a variable of the module
and returns `nil`. -/

namespace LuaJack.Getopt

open Fallible Chains

/-! ## Options -/

/-- What is said of an option: the number of its arguments, or the option that it stands
for. -/
inductive Value where
  | number (value : LuaInteger)
  | string (opt : CString)
  deriving DecidableEq

/-- A table of options. -/
abbrev Table := CString → Option Value

/-- The option that an option stands for. -/
def Table.alias (table : Table) (opt : CString) : Option CString :=
  match table opt with
  | some (.string target) => some target
  | _ => none

/-- `long_opts`. No option stands for itself in the end. -/
structure LongOpts where
  entries : List (CString × Value)
  acyclic : Acyclic (Table.alias fun opt => entries.lookup opt)

/-- The long options as a table. -/
def LongOpts.table (longOpts : LongOpts) : Table := fun opt => longOpts.entries.lookup opt

/-- The table after the entries of another one have been assigned. -/
def Table.assigning (table long : Table) : Table := fun opt => (long opt).or (table opt)

/-- A table in which every chain of options ends. -/
structure Options where
  table : Table
  wellFounded : WellFounded (Leads table.alias)

/-- `%w`. -/
def isalnum (char : UInt8) : Bool :=
  (48 ≤ char && char ≤ 57) || (65 ≤ char && char ≤ 90) || (97 ≤ char && char ≤ 122)

/-- The colon. -/
def colon : UInt8 := 58

/-- `convert_short2long`, from a table that has been filled so far. -/
def convertShort2long (ret : Table) : CString → Table
  | [] => ret
  | [shortOpt] =>
      if isalnum shortOpt then Function.update ret [shortOpt] (some (.number 0)) else ret
  | shortOpt :: next :: opts =>
      if isalnum shortOpt then
        if next = colon then
          convertShort2long (Function.update ret [shortOpt] (some (.number 1))) opts
        else
          convertShort2long (Function.update ret [shortOpt] (some (.number 0)))
            (next :: opts)
      else
        convertShort2long ret (next :: opts)

/-- No option stands for another one. -/
def Table.Direct (table : Table) : Prop := ∀ opt, table.alias opt = none

section Aliases

variable {table long : Table} {opt : CString}

theorem Table.alias_of_none (unknown : table opt = none) : table.alias opt = none := by
  rw [Table.alias, unknown]

theorem Table.Direct.update (direct : table.Direct) (value : LuaInteger) :
    Table.Direct (Function.update table opt (some (.number value))) := by
  intro other
  by_cases same : other = opt
  · rw [Table.alias, same, Function.update_self]
  · rw [Table.alias, Function.update_of_ne same]
    exact direct other

theorem direct_convertShort2long (direct : table.Direct) (opts : CString) :
    (convertShort2long table opts).Direct := by
  fun_induction convertShort2long table opts with
  | case1 => exact direct
  | case2 => exact direct.update 0
  | case3 => exact direct
  | case4 _ _ _ _ ih => exact ih (direct.update 1)
  | case5 _ _ _ _ _ _ ih => exact ih (direct.update 0)
  | case6 _ _ _ _ _ ih => exact ih direct

/-- Only long options stand for others. -/
theorem Table.Direct.alias_assigning (direct : table.Direct) :
    (table.assigning long).alias = long.alias := by
  funext opt
  cases isEntry : long opt with
  | some value => simp only [Table.alias, Table.assigning, isEntry, Option.some_or]
  | none =>
      rw [Table.alias_of_none isEntry]
      simpa only [Table.alias, Table.assigning, isEntry, Option.none_or] using direct opt

theorem LongOpts.finite (longOpts : LongOpts) :
    {opt | (longOpts.table.alias opt).isSome}.Finite := by
  apply (List.finite_toSet (longOpts.entries.map Prod.fst)).subset
  intro opt isAlias
  by_contra absent
  have unknown : longOpts.table opt = none := by
    apply List.lookup_eq_none_iff.mpr
    intro entry member
    rw [bne_iff_ne]
    rintro rfl
    exact absent (List.mem_map_of_mem member)
  have isAlias : (longOpts.table.alias opt).isSome := isAlias
  rw [Table.alias_of_none unknown] at isAlias
  cases isAlias

end Aliases

/-- The table that `get_ordered_opts` makes of the short options and the long ones. -/
def optionsOf (shOpts : CString) (longOpts : LongOpts) : Options where
  table := (convertShort2long (fun _ => none) shOpts).assigning longOpts.table
  wellFounded := by
    have empty : Table.Direct fun _ => none := fun _ => rfl
    have direct := direct_convertShort2long empty shOpts
    rw [direct.alias_assigning]
    exact wellFounded_of_acyclic longOpts.finite longOpts.acyclic

/-! ## Functions that report errors -/

/-- A function of `getopt.lua`. The state is the variable `opterr`, and functions that
fail return `nil`. -/
abbrev Parser := Fallible (Option CString) Unit

/-- `exit_with_error`. -/
def exitWithError {α : Type} (msg : CString) : Parser α := do
  modify fun _ => some msg
  error ()

/-- The message of `err_unknown_opt`. -/
def unknownOption (opt : CString) : CString :=
  chars "Unknown option `-" ++ (if 1 < opt.length then chars "-" else []) ++
    opt ++ chars "'"

/-- `err_unknown_opt`. -/
def errUnknownOpt (opt : CString) :
    Parser PUnit := modify fun _ => some (unknownOption opt)

/-- The loop of `canonize`. -/
def canonizeLoop (options : Options) (opt : CString) : Parser CString :=
  match _leads : options.table.alias opt with
  | none => return opt
  | some target =>
      if (options.table target).isNone then do
        errUnknownOpt target
        return target
      else
        canonizeLoop options target
termination_by options.wellFounded.wrap opt

/-- `canonize`. -/
def canonize (options : Options) (opt : CString) : Parser CString :=
  if (options.table opt).isNone then do
    errUnknownOpt opt
    return opt
  else
    canonizeLoop options opt

/-- `canonize`, and the test that follows each of its calls. -/
def canonized (options : Options) (opt : CString) : Parser CString := do
  let opt ← canonize options opt
  if (← asks id).isSome then
    error ()
  else
    return opt

/-! ## Parsing -/

/-- The elements of `opts`, each with the element of `optarg` at the same index. -/
abbrev Parsed := List (CString × Option CString)

/-- The equals sign. -/
def equals : UInt8 := 61

/-- An argument that begins with two hyphens. Returned are the options and the number of
arguments that have been taken from behind it. -/
def longArgument (options : Options) (next : Option CString)
    (a : CString) (opts : Parsed) :
    Parser (Parsed × Nat) :=
  match a.findIdx? (· = equals) with
  | some pos => do
      let opt ← canonized options ((a.take pos).drop 2)
      if options.table opt = some (.number 0) then
        exitWithError (chars "Bad usage of option `" ++ a ++ chars "'")
      else
        return (opts ++ [(opt, some (a.drop (pos + 1)))], 0)
  | none => do
      let opt ← canonized options (a.drop 2)
      if options.table opt = some (.number 0) then
        return (opts ++ [(opt, none)], 0)
      else
        match next with
        | none => exitWithError (chars "Missed value for option `" ++ a ++ chars "'")
        | some value => return (opts ++ [(opt, some value)], 1)

/-- The characters of an argument that begins with one hyphen. -/
def shortArgument (options : Options) (next : Option CString) :
    CString → Parsed → Parser (Parsed × Nat)
  | [], opts => return (opts, 0)
  | char :: rest, opts => do
      let opt ← canonized options [char]
      if options.table opt = some (.number 0) then
        shortArgument options next rest (opts ++ [(opt, none)])
      else if rest = [] then
        match next with
        | none => exitWithError (chars "Missed value for option `-" ++ opt ++ chars "'")
        | some value => return (opts ++ [(opt, some value)], 1)
      else
        return (opts ++ [(opt, some rest)], 0)

/-- Some arguments are left behind the one that has been examined. -/
theorem length_drop_lt (taken : Nat) (a : CString) (arg : List CString) :
    (arg.drop taken).length < (a :: arg).length := by
  rw [List.length_drop, List.length_cons]
  exact Nat.lt_succ_of_le (Nat.sub_le _ _)

/-- The loop of `get_ordered_opts`, with the arguments from the index `i` on. -/
def getOrderedOpts (options : Options) (arg : List CString) (i : Nat) (opts : Parsed) :
    Parser (Parsed × Nat) :=
  match arg with
  | [] => return (opts, i)
  | a :: arg =>
      if a = chars "--" then
        return (opts, i + 1)
      else if a = chars "-" then
        return (opts, i)
      else if a.take 2 = chars "--" then do
        let (opts, taken) ← longArgument options arg.head? a opts
        getOrderedOpts options (arg.drop taken) (i + taken + 1) opts
      else if a.take 1 = chars "-" then do
        let (opts, taken) ← shortArgument options arg.head? (a.drop 1) opts
        getOrderedOpts options (arg.drop taken) (i + taken + 1) opts
      else
        return (opts, i)
termination_by arg.length
decreasing_by
  · exact length_drop_lt taken a arg
  · exact length_drop_lt taken a arg

/-- What `get_opts` returns for an option: its argument, or `true`. -/
inductive Argument where
  | string (value : CString)
  | present
  deriving DecidableEq

/-- What `get_opts` returns. -/
inductive Outcome where
  | parsed (ret : CString → Option Argument) (optind : Nat)
  | failed (opterr : Option CString)

/-- The loop of `get_opts`. -/
def retOf (opts : Parsed) : CString → Option Argument :=
  opts.foldl (fun ret opt =>
    Function.update ret opt.1 (some (match opt.2 with
      | some value => .string value
      | none => .present))) fun _ => none

/-- The arguments of a call of `get_opts`. -/
structure Request where
  arg : List CString
  shOpts : CString
  longOpts : LongOpts

/-- The table of options of a call. -/
def Request.options (request : Request) :
    Options := optionsOf request.shOpts request.longOpts

/-- `get_opts`. The variable `opterr` keeps its value from one call to the next one. -/
def getOpts (request : Request) (opterr : Option CString) : Outcome × Option CString :=
  match getOrderedOpts request.options request.arg 1 [] opterr with
  | (.ok (opts, optind), opterr) => (.parsed (retOf opts) optind, opterr)
  | (.error _, opterr) => (.failed opterr, opterr)

end LuaJack.Getopt
