import LuaJack.Images
import LuaJack.Words

/-!
# Words that Lua passes

`session_checktype`, `session_checkflag` and `CheckMode` compare a string with the words
for event types, flags and modes, each of them only as far as the word goes. -/

namespace LuaJack

open Words (Exact exact_iff_of_free exact_iff_of_shadowed recognise recognise_cons
  recognise_takeWhile)

/-- The documented word of a session flag. -/
def sessionFlagWord (flag : BitVec 32) : Option String :=
  if flag = 1 then some "save_error"
  else if flag = 2 then some "need_terminal"
  else none

/-- A string is accepted exactly for the value whose word it is, and an error is raised
for any other one. -/
structure Inverts (check : LuaValue → Except String (BitVec 32))
    (IsWord : BitVec 32 → CString → Prop) (text : CString) : Prop where
  accepts : ∀ value, check (.string text) = .ok value ↔ IsWord value text
  rejects : (∀ value, ¬ IsWord value text) →
    ∃ message, check (.string text) = .error message

/-- The words of `session_checktype`, in the order of the comparisons. -/
def typeWords : List (CString × BitVec 32) :=
  [(chars "save", 1), (chars "save_and_quit", 2), (chars "save_template", 3)]

/-- The words of `session_checkflag`. -/
def flagWords : List (CString × BitVec 32) :=
  [(chars "save_error", 1), (chars "need_terminal", 2)]

/-- The words of `CheckMode`. -/
def modeWords :
    List (CString × BitVec 32) := [(chars "capture", 0), (chars "playback", 1)]

/-! ## The comparisons -/

section Comparisons

variable {arg : Int} {text : CString}

/-- A string is compared with words up to its first zero. -/
def Compares (check : LuaValue → Except String (BitVec 32))
    (words : List (CString × BitVec 32)) (text : CString) : Prop :=
  ∃ message, check (.string text) =
    (recognise words (text.takeWhile (· ≠ 0))).elim (.error message) .ok

/-- One comparison after the other. -/
theorem compares_of_foldr {check : LuaValue → Except String (BitVec 32)}
    {words : List (CString × BitVec 32)} {message : String}
    (isCheck : check (.string text) = words.foldr (fun word rest =>
      if word.1.isPrefixOf (text.takeWhile (· ≠ 0)) then .ok word.2
        else rest) (.error message)) :
    Compares check words text := by
  refine ⟨message, isCheck.trans ?_⟩
  clear isCheck
  induction words with
  | nil => rfl
  | cons word words ih =>
      rw [List.foldr_cons, recognise_cons]
      split
      · rfl
      · exact ih

theorem compares_checktype : Compares (sessionChecktype arg) typeWords text :=
  compares_of_foldr rfl

theorem compares_checkflag : Compares (sessionCheckflag arg) flagWords text :=
  compares_of_foldr rfl

theorem compares_checkMode : Compares (checkMode arg) modeWords text :=
  compares_of_foldr rfl

/-- What compares with the words of some values inverts them where the words are
recognised exactly. -/
theorem inverts_iff {check : LuaValue → Except String (BitVec 32)}
    {IsWord : BitVec 32 → CString → Prop} {words : List (CString × BitVec 32)}
    (compares : Compares check words text)
    (nonzero : (words.all fun word => word.1.all (· ≠ 0)) = true)
    (isWord : ∀ value, IsWord value text ↔ (text, value) ∈ words) :
    Inverts check IsWord text ↔ Exact words text := by
  obtain ⟨message, compared⟩ := compares
  simp only [List.all_eq_true] at nonzero
  rw [recognise_takeWhile nonzero] at compared
  have accepted (value : BitVec 32) :
      check (.string text) = .ok value ↔ recognise words text = some value := by
    rw [compared]
    cases recognise words text <;> simp
  constructor
  · intro inverts value
    rw [← accepted, inverts.accepts, isWord]
  · intro exact
    constructor
    · intro value
      rw [accepted, isWord]
      exact exact value
    · intro none
      have unrecognised : recognise words text = Option.none := by
        apply Option.eq_none_iff_forall_ne_some.mpr
        intro value recognised
        exact none value ((isWord value).mpr ((exact value).mp recognised))
      rw [compared, unrecognised]
      exact ⟨message, rfl⟩

end Comparisons

/-! ## The words -/

section Printed

variable {value : BitVec 32} {text : CString}

/-- The word that a function pushes for a value. -/
def Pushes (push : BitVec 32 → Except String String)
    (value : BitVec 32) (text : CString) : Prop :=
  ∃ word, push value = .ok word ∧ chars word = text

theorem pushes_type : Pushes sessionPushtype value text ↔ (text, value) ∈ typeWords := by
  unfold Pushes sessionPushtype typeWords
  constructor
  · rintro ⟨word, pushed, rfl⟩
    split_ifs at pushed with save quit template
    · cases pushed
      simp [save]
    · cases pushed
      simp [quit]
    · cases pushed
      simp [template]
  · simp only [List.mem_cons, Prod.mk.injEq, List.not_mem_nil, or_false]
    rintro (⟨rfl, rfl⟩ | ⟨rfl, rfl⟩ | ⟨rfl, rfl⟩)
    · exact ⟨"save", rfl, rfl⟩
    · exact ⟨"save_and_quit", rfl, rfl⟩
    · exact ⟨"save_template", rfl, rfl⟩

theorem pushes_mode : Pushes latencyPushmode value text ↔ (text, value) ∈ modeWords := by
  unfold Pushes latencyPushmode modeWords
  constructor
  · rintro ⟨word, pushed, rfl⟩
    split_ifs at pushed with capture playback
    · cases pushed
      simp [capture]
    · cases pushed
      simp [playback]
  · simp only [List.mem_cons, Prod.mk.injEq, List.not_mem_nil, or_false]
    rintro (⟨rfl, rfl⟩ | ⟨rfl, rfl⟩)
    · exact ⟨"capture", rfl, rfl⟩
    · exact ⟨"playback", rfl, rfl⟩

/-- The text is the documented word of a flag. -/
def IsFlag (flag : BitVec 32) (text : CString) : Prop :=
  ∃ word, sessionFlagWord flag = some word ∧ chars word = text

theorem isFlag_iff : IsFlag value text ↔ (text, value) ∈ flagWords := by
  unfold IsFlag sessionFlagWord flagWords
  constructor
  · rintro ⟨word, isWord, rfl⟩
    split_ifs at isWord with saveError needTerminal
    · cases isWord
      simp [saveError]
    · cases isWord
      simp [needTerminal]
  · simp only [List.mem_cons, Prod.mk.injEq, List.not_mem_nil, or_false]
    rintro (⟨rfl, rfl⟩ | ⟨rfl, rfl⟩)
    · exact ⟨"save_error", rfl, rfl⟩
    · exact ⟨"need_terminal", rfl, rfl⟩

end Printed

/-- Strings that go on behind a word are taken for the word, and all three event types
for the first one. Other strings are recognised as what they say. -/
theorem recognised_iff (arg : Int) (text : CString) :
    (Inverts (sessionChecktype arg) (Pushes sessionPushtype) text ↔
      text = chars "save" ∨ ¬ chars "save" <+: text) ∧
    (Inverts (checkMode arg) (Pushes latencyPushmode) text ↔
      (text = chars "capture" ∨ text = chars "playback") ∨
        ¬ chars "capture" <+: text ∧ ¬ chars "playback" <+: text) ∧
    (Inverts (sessionCheckflag arg) IsFlag text ↔
      (text = chars "save_error" ∨ text = chars "need_terminal") ∨
        ¬ chars "save_error" <+: text ∧ ¬ chars "need_terminal" <+: text) := by
  refine ⟨?_, ?_, ?_⟩
  · rw [inverts_iff compares_checktype (by decide) fun _ => pushes_type]
    exact exact_iff_of_shadowed (by decide) (by decide) (by decide)
  · rw [inverts_iff compares_checkMode (by decide) fun _ => pushes_mode,
      exact_iff_of_free (by decide) (by decide) (by decide)]
    simp [modeWords]
  · rw [inverts_iff compares_checkflag (by decide) fun _ => isFlag_iff,
      exact_iff_of_free (by decide) (by decide) (by decide)]
    simp [flagWords]

/-- The word for the second event type is taken for the first one. -/
theorem not_recognised : ¬ Inverts (sessionChecktype 3) (Pushes sessionPushtype)
    (chars "save_and_quit") := by
  intro inverts
  have isType : Pushes sessionPushtype 2 (chars "save_and_quit") :=
    ⟨"save_and_quit", rfl, rfl⟩
  have accepted := (inverts.accepts 2).mpr isType
  have isSave : sessionChecktype 3 (.string (chars "save_and_quit")) = .ok 1 := by decide
  rw [isSave] at accepted
  cases accepted

end LuaJack
