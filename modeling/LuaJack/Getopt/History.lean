import LuaJack.Getopt.Parser
import LuaJack.Memory

/-!
# Calls after failed calls

The error of a call stays in `opterr`, and every later call that examines an option
finds it there. -/

namespace LuaJack.Getopt

open Fallible Memory

/-! ## Names of options -/

/-- The option that `canonize` returns. -/
def Options.last (options : Options) (opt : CString) : CString :=
  Chains.last options.wellFounded opt

/-- The option, or the one that it stands for in the end, is not in the table. -/
abbrev Options.Unknown (options : Options) (opt : CString) : Prop :=
  options.table (options.last opt) = none

/-- The error after the table has been searched for an option. -/
def Options.searched (options : Options) (opt : CString) (opterr : Option CString) :
    Option CString :=
  if options.table opt = none then some (unknownOption opt) else opterr

section Names

variable {options : Options} {opt : CString}

theorem canonizeLoop_apply (opterr : Option CString)
    (inTable : options.table opt ≠ none) :
    canonizeLoop options opt opterr =
      (.ok (options.last opt), options.searched (options.last opt) opterr) := by
  fun_induction canonizeLoop options opt with
  | case1 opt isLast =>
      have isOpt : options.last opt = opt := Chains.last_of_none isLast
      rw [isOpt, Options.searched, if_neg inTable, pure_apply]
  | case2 opt target leads unknown =>
      have unknown := Option.isNone_iff_eq_none.mp unknown
      have isTarget : options.last opt = target := by
        rw [Options.last, Chains.last_of_some leads]
        exact Chains.last_of_none (Table.alias_of_none unknown)
      rw [isTarget, Options.searched, if_pos unknown]
      rfl
  | case3 opt target leads known ih =>
      have isLast : options.last opt = options.last target := Chains.last_of_some leads
      rw [isLast]
      exact ih fun unknown => known (Option.isNone_iff_eq_none.mpr unknown)

theorem canonize_apply (opterr : Option CString) :
    canonize options opt opterr =
      (.ok (options.last opt), options.searched (options.last opt) opterr) := by
  unfold canonize
  by_cases unknown : options.table opt = none
  · have isOpt : options.last opt = opt :=
      Chains.last_of_none (Table.alias_of_none unknown)
    rw [if_pos (Option.isNone_iff_eq_none.mpr unknown),
      isOpt, Options.searched, if_pos unknown]
    rfl
  · rw [if_neg fun isNone => unknown (Option.isNone_iff_eq_none.mp isNone)]
    exact canonizeLoop_apply opterr unknown

/-- An unknown option is reported, whatever has been reported before. -/
theorem canonized_of_unknown (unknown : options.Unknown opt) (opterr : Option CString) :
    canonized options opt opterr =
      (.error (), some (unknownOption (options.last opt))) := by
  unfold canonized
  rw [bind_of_ok (canonize_apply opterr), Options.searched, if_pos unknown]
  rfl

theorem canonized_of_known (known : ¬ options.Unknown opt) :
    canonized options opt none = (.ok (options.last opt), none) := by
  unfold canonized
  rw [bind_of_ok (canonize_apply none), Options.searched, if_neg known]
  rfl

/-- A known option is not accepted if there is an error from before. -/
theorem canonized_of_stale (known : ¬ options.Unknown opt) (stale : CString) :
    canonized options opt (some stale) = (.error (), some stale) := by
  unfold canonized
  rw [bind_of_ok (canonize_apply (some stale)), Options.searched, if_neg known]
  rfl

end Names

/-! ## Errors and `opterr` -/

/-- If there is no error before, there is one afterwards exactly if the function fails. -/
structure Reports {α : Type} (function : Parser α) : Prop where
  quiet : ∀ value after, function none = (.ok value, after) → after = none
  reported : ∀ reason after, function none = (.error reason, after) → after ≠ none

section Reports

variable {α β : Type} {function : Parser α} {rest : α → Parser β}

theorem reports_pure (value : α) : Reports (pure value : Parser α) where
  quiet _ _ returns := by cases returns; rfl
  reported _ _ fails := by cases fails

theorem reports_exitWithError (msg : CString) :
    Reports (exitWithError msg : Parser α) where
  quiet _ _ returns := by cases returns
  reported _ _ fails := by cases fails; exact Option.some_ne_none msg

theorem Reports.bind (first : Reports function) (second : ∀ value, Reports (rest value)) :
    Reports (function >>= rest) := by
  cases result : function none with
  | mk answer middle =>
      cases answer with
      | ok value =>
          cases first.quiet value middle result
          constructor
          · intro other after returns
            rw [bind_of_ok result] at returns
            exact (second value).quiet other after returns
          · intro reason after fails
            rw [bind_of_ok result] at fails
            exact (second value).reported reason after fails
      | error reason =>
          constructor
          · intro value after returns
            rw [bind_of_error result] at returns
            cases returns
          · intro other after fails
            rw [bind_of_error result] at fails
            cases fails
            exact first.reported reason middle result

theorem reports_ite {condition : Prop} [Decidable condition] {other : Parser α}
    (holds : Reports function) (fails : Reports other) :
    Reports (if condition then function else other) := by
  split
  · exact holds
  · exact fails

variable (options : Options)

theorem reports_canonized (opt : CString) : Reports (canonized options opt) := by
  by_cases unknown : options.Unknown opt
  · have fails := canonized_of_unknown unknown none
    constructor
    · intro value after returns
      cases fails.symm.trans returns
    · intro reason after isAfter
      cases fails.symm.trans isAfter
      exact Option.some_ne_none _
  · have returns := canonized_of_known unknown
    constructor
    · intro value after isAfter
      cases returns.symm.trans isAfter
      rfl
    · intro reason after fails
      cases returns.symm.trans fails

/-- An option that takes the next argument. -/
theorem reports_next (next : Option CString) (msg : CString) (taken : CString → α) :
    Reports (match next with
      | none => exitWithError msg
      | some value => pure (taken value)) := by
  cases next with
  | none => exact reports_exitWithError msg
  | some value => exact reports_pure _

theorem reports_longArgument (next : Option CString) (a : CString) (opts : Parsed) :
    Reports (longArgument options next a opts) := by
  unfold longArgument
  split
  · refine (reports_canonized options _).bind fun opt => ?_
    exact reports_ite (reports_exitWithError _) (reports_pure _)
  · refine (reports_canonized options _).bind fun opt => ?_
    exact reports_ite (reports_pure _) (reports_next next _ _)

theorem reports_shortArgument (next : Option CString) (a : CString) (opts : Parsed) :
    Reports (shortArgument options next a opts) := by
  induction a generalizing opts with
  | nil => exact reports_pure _
  | cons char rest ih =>
      refine (reports_canonized options _).bind fun opt => ?_
      exact reports_ite (ih _) (reports_ite (reports_next next _ _) (reports_pure _))

theorem reports_getOrderedOpts (arg : List CString) (i : Nat) (opts : Parsed) :
    Reports (getOrderedOpts options arg i opts) := by
  fun_induction getOrderedOpts options arg i opts with
  | case1 => exact reports_pure _
  | case2 => exact reports_pure _
  | case3 => exact reports_pure _
  | case4 _ _ _ _ _ _ _ ih =>
      exact (reports_longArgument options _ _ _).bind fun result => ih result.1 result.2
  | case5 _ _ _ _ _ _ _ _ ih =>
      exact (reports_shortArgument options _ _ _).bind fun result => ih result.1 result.2
  | case6 => exact reports_pure _

end Reports

/-! ## The first option -/

/-- The name of the option in an argument that begins with two hyphens. -/
def longName (a : CString) : CString :=
  match a.findIdx? (· = equals) with
  | some pos => (a.take pos).drop 2
  | none => a.drop 2

/-- The first option that a call examines, if it examines any. -/
def firstOption : List CString → Option CString
  | [] => none
  | a :: _ =>
      if a = chars "--" ∨ a = chars "-" then
        none
      else if a.take 2 = chars "--" then
        some (longName a)
      else if a.take 1 = chars "-" then
        some ((a.drop 1).take 1)
      else
        none

section First

variable (options : Options) (arg : List CString) (i : Nat) (opts : Parsed)

theorem longArgument_eq (next : Option CString) (a : CString) :
    ∃ rest, longArgument options next a opts =
      canonized options (longName a) >>= rest := by
  unfold longArgument longName
  cases a.findIdx? (· = equals) with
  | none => exact ⟨_, rfl⟩
  | some pos => exact ⟨_, rfl⟩

theorem shortArgument_eq (next : Option CString)
    {a : CString} (isOption : a.take 1 = chars "-") (notAlone : a ≠ chars "-") : ∃ rest,
      shortArgument options next (a.drop 1) opts =
        canonized options ((a.drop 1).take 1) >>= rest := by
  match a with
  | [] => cases isOption
  | [hyphen] => exact absurd isOption notAlone
  | hyphen :: char :: rest => exact ⟨_, rfl⟩

/-- The first option decides how parsing goes on. -/
theorem getOrderedOpts_first :
    (firstOption arg = none ∧ ∃ result, getOrderedOpts options arg i opts = pure result) ∨
      ∃ opt rest, firstOption arg = some opt ∧
        getOrderedOpts options arg i opts = canonized options opt >>= rest := by
  fun_cases getOrderedOpts options arg i opts with
  | case1 => exact .inl ⟨rfl, _, rfl⟩
  | case2 => exact .inl ⟨rfl, _, rfl⟩
  | case3 => exact .inl ⟨rfl, _, rfl⟩
  | case4 a arg notEnd notAlone isLong =>
      rcases longArgument_eq options opts arg.head? a with ⟨rest, isLongArgument⟩
      rw [isLongArgument, bind_assoc]
      refine .inr ⟨longName a, _, ?_, rfl⟩
      rw [firstOption, if_neg (not_or.mpr ⟨notEnd, notAlone⟩), if_pos isLong]
  | case5 a arg notEnd notAlone notLong isShort =>
      rcases shortArgument_eq options opts arg.head? isShort notAlone with
        ⟨rest, isShortArgument⟩
      rw [isShortArgument, bind_assoc]
      refine .inr ⟨(a.drop 1).take 1, _, ?_, rfl⟩
      rw [firstOption, if_neg (not_or.mpr ⟨notEnd, notAlone⟩),
        if_neg notLong, if_pos isShort]
  | case6 a arg notEnd notAlone notLong notShort =>
      refine .inl ⟨?_, _, rfl⟩
      rw [firstOption, if_neg (not_or.mpr ⟨notEnd, notAlone⟩),
        if_neg notLong, if_neg notShort]

variable {arg}

theorem getOrderedOpts_of_none (noOption : firstOption arg = none) :
    ∃ result, getOrderedOpts options arg i opts = pure result := by
  rcases getOrderedOpts_first options arg i opts with ⟨_, returns⟩ | ⟨opt, _, isFirst, _⟩
  · exact returns
  · cases noOption.symm.trans isFirst

theorem getOrderedOpts_of_some {opt : CString} (isFirst : firstOption arg = some opt) :
    ∃ rest, getOrderedOpts options arg i opts = canonized options opt >>= rest := by
  rcases getOrderedOpts_first options arg i opts with
    ⟨noOption, _⟩ | ⟨_, rest, isOther, isRest⟩
  · cases noOption.symm.trans isFirst
  · cases isOther.symm.trans isFirst
    exact ⟨rest, isRest⟩

end First

/-! ## Calls -/

/-- The first option that the call examines, if there is any, is unknown. -/
def Request.Independent (request : Request) : Prop :=
  ∀ opt, firstOption request.arg = some opt → request.options.Unknown opt

/-- What the first call of a program returns. -/
def Request.first (request : Request) : Outcome := (getOpts request none).1

section Calls

variable {request : Request}

theorem getOpts_of_unknown {opt : CString} (isFirst : firstOption request.arg = some opt)
    (unknown : request.options.Unknown opt) (opterr : Option CString) :
    getOpts request opterr =
      (.failed (some (unknownOption (request.options.last opt))),
        some (unknownOption (request.options.last opt))) := by
  obtain ⟨rest, isRest⟩ := getOrderedOpts_of_some request.options 1 [] isFirst
  rw [getOpts, isRest, bind_of_error (canonized_of_unknown unknown opterr)]

/-- A call without options does not care about the error. -/
theorem getOpts_of_noOption (noOption : firstOption request.arg = none) :
    ∃ outcome, ∀ opterr, getOpts request opterr = (outcome, opterr) := by
  obtain ⟨result, isResult⟩ := getOrderedOpts_of_none request.options 1 [] noOption
  refine ⟨.parsed (retOf result.1) result.2, fun opterr => ?_⟩
  rw [getOpts, isResult]
  rfl

/-- A call with a known first option fails if there is an error from before. -/
theorem getOpts_of_stale (dependent : ¬ request.Independent) (stale : CString) :
    getOpts request (some stale) = (.failed (some stale), some stale) := by
  simp only [Request.Independent, not_forall] at dependent
  rcases dependent with ⟨opt, isFirst, known⟩
  obtain ⟨rest, isRest⟩ := getOrderedOpts_of_some request.options 1 [] isFirst
  rw [getOpts, isRest, bind_of_error (canonized_of_stale known stale)]

theorem Request.Independent.same (independent : request.Independent)
    (opterr : Option CString) :
    (getOpts request opterr).1 = request.first := by
  unfold Request.first
  cases isFirst : firstOption request.arg with
  | none =>
      rcases getOpts_of_noOption isFirst with ⟨outcome, isOutcome⟩
      rw [isOutcome, isOutcome]
  | some opt =>
      have fails := getOpts_of_unknown isFirst (independent opt isFirst)
      rw [fails, fails]

/-- An error is never forgotten. -/
theorem opterr_ne_none {opterr : Option CString} (reported : opterr ≠ none) :
    (getOpts request opterr).2 ≠ none := by
  obtain ⟨stale, rfl⟩ := Option.ne_none_iff_exists'.mp reported
  by_cases independent : request.Independent
  · cases isFirst : firstOption request.arg with
    | none =>
        rcases getOpts_of_noOption isFirst with ⟨outcome, isOutcome⟩
        rw [isOutcome]
        exact reported
    | some opt =>
        rw [getOpts_of_unknown isFirst (independent opt isFirst)]
        exact Option.some_ne_none _
  · rw [getOpts_of_stale independent]
    exact Option.some_ne_none _

/-- The first call leaves no error exactly if it succeeds. -/
theorem opterr_eq_none_iff :
    (getOpts request none).2 = none ↔ ∃ ret optind, request.first =
      .parsed ret optind := by
  have reports := reports_getOrderedOpts request.options request.arg 1 []
  unfold Request.first getOpts
  cases result : getOrderedOpts request.options request.arg 1 [] none with
  | mk answer after =>
      cases answer with
      | ok parsed => exact iff_of_true (reports.quiet _ _ result) ⟨_, _, rfl⟩
      | error reason =>
          refine iff_of_false (reports.reported _ _ result) ?_
          rintro ⟨ret, optind, isParsed⟩
          cases isParsed

/-- There is no error exactly if no earlier call would have failed as the first one. -/
theorem after_eq_none_iff (earlier : List Request) :
    after getOpts earlier none = none ↔
      ∀ request ∈ earlier, ∃ ret optind, request.first = .parsed ret optind := by
  rw [after_eq_initial_iff fun _ _ => opterr_ne_none]
  exact forall₂_congr fun _ _ => opterr_eq_none_iff

end Calls

/-! ## Histories -/

/-- A call without long options, and with one short option as its only argument. -/
def single (shOpts : CString) (char : UInt8) : Request where
  arg := [[45, char]]
  shOpts := shOpts
  longOpts := ⟨[], Chains.acyclic_of_none fun _ => rfl⟩

section Single

variable {char : UInt8}

theorem firstOption_single (shOpts : CString) (notHyphen : char ≠ 45) :
    firstOption (single shOpts char).arg = some [char] := by
  have noMark : ¬ ([45, char] = chars "--" ∨ [45, char] = chars "-") := by
    rintro (isEnd | isAlone)
    · cases isEnd
      exact notHyphen rfl
    · cases isAlone
  have notLong : ¬ [45, char].take 2 = chars "--" := fun isLong => noMark (.inl isLong)
  have isShort : [45, char].take 1 = chars "-" := rfl
  rw [single, firstOption, if_neg noMark, if_neg notLong, if_pos isShort]
  rfl

/-- An option that is not in the list. -/
theorem getOpts_refused (notHyphen : char ≠ 45) (opterr : Option CString) :
    getOpts (single [] char) opterr =
      (.failed (some (unknownOption [char])), some (unknownOption [char])) := by
  have isLast : (single [] char).options.last [char] = [char] := Chains.last_of_none rfl
  have unknown : (single [] char).options.Unknown [char] := by
    rw [Options.Unknown, isLast]
    rfl
  rw [getOpts_of_unknown (firstOption_single [] notHyphen) unknown, isLast]

theorem known_single : ¬ (single (chars "a") 97).options.Unknown [97] := by
  have isLast : (single (chars "a") 97).options.last [97] = [97] :=
    Chains.last_of_none rfl
  rw [Options.Unknown, isLast]
  exact Option.some_ne_none _

theorem dependent_single : ¬ (single (chars "a") 97).Independent := by
  intro independent
  exact known_single (independent [97] (firstOption_single _ (by decide)))

/-- An option that is in the list. -/
theorem getOpts_accepted :
    getOpts (single (chars "a") 97) none = (.parsed (retOf [([97], none)]) 2, none) := by
  have isLast : (single (chars "a") 97).options.last [97] = [97] :=
    Chains.last_of_none rfl
  have returns := canonized_of_known known_single
  have isShort : shortArgument (single (chars "a") 97).options none [97] [] none =
      (.ok ([([97], none)], 0), none) := by
    rw [shortArgument, bind_of_ok returns, isLast, if_pos rfl]
    rfl
  have isParsed : getOrderedOpts (single (chars "a") 97).options [[45, 97]] 1 [] none =
      (.ok ([([97], none)], 2), none) := by
    rw [getOrderedOpts, if_neg (by decide), if_neg (by decide), if_neg (by decide),
      if_pos (by decide)]
    refine (bind_of_ok isShort).trans ?_
    exact congrFun (getOrderedOpts.eq_1 _ _ _) none
  unfold getOpts
  rw [single] at isParsed ⊢
  rw [isParsed]

end Single

/-- If the first option of a call is known, some history makes a difference. -/
theorem exists_not_same {request : Request} (dependent : ¬ request.Independent) :
    ∃ earlier, ¬ Same getOpts none earlier request := by
  have fails (char : UInt8) (notHyphen : char ≠ 45)
      (same : Same getOpts none [single [] char] request) :
      request.first = .failed (some (unknownOption [char])) := by
    have isState : after getOpts [single [] char] none = some (unknownOption [char]) :=
      congrArg Prod.snd (getOpts_refused notHyphen none)
    unfold Same at same
    rw [isState, getOpts_of_stale dependent] at same
    exact same.symm
  by_contra always
  push Not at always
  have isFirst := fails 97 (by decide) (always _)
  have isOther := fails 98 (by decide) (always _)
  exact absurd (isFirst.symm.trans isOther) (by simp [unknownOption])

/-- All calls return what they would return as the first ones if no call before them has
failed, or they have no options or begin with an unknown one. No other calls do so after
every history, and after no other history does every call. -/
theorem history_irrelevant_iff (requests : List Request) :
    ((∀ earlier request later, requests = earlier ++ request :: later →
      after getOpts earlier none = none ∨ request.Independent) →
        outputs getOpts requests none = requests.map Request.first) ∧
    (∀ request ∈ requests, (∀ earlier, Same getOpts none earlier request) ↔
      request.Independent) ∧
    ((∀ request, Same getOpts none requests request) ↔
      after getOpts requests none = none) := by
  refine ⟨?_, ?_, ?_⟩
  · intro met
    refine (outputs_eq_map_iff requests).mpr ?_
    intro earlier request later isRequests
    rcases met earlier request later isRequests with noError | independent
    · rw [Same, noError]
    · exact independent.same _
  · intro request _
    constructor
    · intro always
      by_contra dependent
      obtain ⟨earlier, different⟩ := exists_not_same dependent
      exact different (always earlier)
    · intro independent earlier
      exact independent.same _
  · constructor
    · intro always
      by_contra reported
      obtain ⟨stale, isStale⟩ := Option.ne_none_iff_exists'.mp reported
      have same := always (single (chars "a") 97)
      rw [Same, isStale, getOpts_of_stale dependent_single, getOpts_accepted] at same
      cases same
    · intro noError request
      rw [Same, noError]

/-- After an unknown option, a known one is not accepted. -/
theorem not_history_irrelevant :
    ¬ Same getOpts none [single [] 120] (single (chars "a") 97) := by
  intro same
  have isState : after getOpts [single [] 120] none = some (unknownOption [120]) :=
    congrArg Prod.snd (getOpts_refused (by decide) none)
  rw [Same, isState, getOpts_of_stale dependent_single, getOpts_accepted] at same
  cases same

end LuaJack.Getopt
