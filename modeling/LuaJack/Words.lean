import Mathlib.Data.List.Find
import Mathlib.Data.List.Nodup
import Mathlib.Tactic.Common

/-!
# Words recognised by their prefixes

A text is compared with the words of a list one after the other, each time only as far
as the word goes.  So the first word that the text begins with decides, although the
text may go on, and although another word may be the whole text. -/

namespace LuaJack.Words

variable {α β : Type*} [BEq α] {word : List α × β}
  {words : List (List α × β)} {text : List α}

/-- The first word that the text begins with. -/
def first (words : List (List α × β)) (text : List α) : Option (List α × β) :=
  words.find? fun word => word.1.isPrefixOf text

/-- The meaning of the first word that the text begins with. -/
def recognise (words : List (List α × β)) (text : List α) : Option β :=
  (first words text).map Prod.snd

/-- The text is recognised as what it says: a word as its meaning, and no other text at
all. -/
def Exact (words : List (List α × β)) (text : List α) : Prop :=
  ∀ value, recognise words text = some value ↔ (text, value) ∈ words

/-- The comparison with the first word of the list. -/
theorem recognise_cons : recognise (word :: words) text =
    if word.1.isPrefixOf text then some word.2 else recognise words text := by
  cases begins : word.1.isPrefixOf text <;> simp [recognise, first, begins]

theorem mem_of_first (isFirst : first words text = some word) : word ∈ words :=
  List.mem_of_find?_eq_some isFirst

variable [LawfulBEq α]

theorem begins_of_first (isFirst : first words text = some word) : word.1 <+: text := by
  have begins := List.find?_some isFirst
  exact List.isPrefixOf_iff_prefix.mp begins

theorem first_eq_none : first words text = none ↔ ∀ word ∈ words, ¬ word.1 <+: text := by
  simp [first]

theorem exists_first (member : word ∈ words) (begins : word.1 <+: text) :
    ∃ other, first words text = some other := by
  apply Option.isSome_iff_exists.mp
  rw [first, List.find?_isSome]
  exact ⟨word, member, List.isPrefixOf_iff_prefix.mpr begins⟩

@[simp] theorem first_cons_of_begins (begins : word.1 <+: text) :
    first (word :: words) text = some word := by
  simp [first, begins]

/-- A text may end where a character does not satisfy a condition that all characters of
words satisfy. -/
theorem recognise_takeWhile {holds : α → Bool}
    (all : ∀ word ∈ words, ∀ char ∈ word.1, holds char) :
    recognise words (text.takeWhile holds) = recognise words text := by
  have same (word : List α × β) (member : word ∈ words) :
      word.1.isPrefixOf (text.takeWhile holds) = word.1.isPrefixOf text := by
    rw [Bool.eq_iff_iff, List.isPrefixOf_iff_prefix, List.isPrefixOf_iff_prefix]
    constructor
    · intro begins
      exact begins.trans (List.takeWhile_prefix holds)
    · rintro ⟨rest, rfl⟩
      rw [List.takeWhile_append_of_pos (all word member)]
      exact List.prefix_append _ _
  simp only [recognise, first, List.find?_congr same]

/-- Where words and meanings determine each other, a text is recognised as what it says
exactly if the first word that it begins with is the whole text. -/
theorem exact_iff (distinct : (words.map Prod.fst).Nodup)
    (meanings : (words.map Prod.snd).Nodup) :
    Exact words text ↔ ∀ word, first words text = some word → word.1 = text := by
  constructor
  · intro exact word isFirst
    have recognised : recognise words text =
        some word.2 := by rw [recognise, isFirst]; rfl
    have same := List.inj_on_of_nodup_map meanings (mem_of_first isFirst)
      ((exact word.2).mp recognised) rfl
    exact congrArg Prod.fst same
  · intro whole value
    constructor
    · intro recognised
      obtain ⟨word, isFirst, rfl⟩ := Option.map_eq_some_iff.mp recognised
      rw [← whole word isFirst]
      exact mem_of_first isFirst
    · intro member
      obtain ⟨word, isFirst⟩ := exists_first member List.prefix_rfl
      have same := List.inj_on_of_nodup_map distinct (mem_of_first isFirst) member
        (whole word isFirst)
      rw [recognise, isFirst, same]
      rfl

/-- If no word is the beginning of another one, only texts that go on behind a word are
not recognised as what they say. -/
theorem exact_iff_of_free (distinct : (words.map Prod.fst).Nodup)
    (meanings : (words.map Prod.snd).Nodup)
    (free : ∀ word ∈ words, ∀ other ∈ words, word.1 <+: other.1 → word = other) :
    Exact words text ↔ (∃ word ∈ words, text = word.1) ∨
      ∀ word ∈ words, ¬ word.1 <+: text := by
  rw [exact_iff distinct meanings]
  constructor
  · intro whole
    cases isFirst : first words text with
    | none => exact .inr (first_eq_none.mp isFirst)
    | some word => exact .inl ⟨word, mem_of_first isFirst, (whole word isFirst).symm⟩
  · rintro (⟨other, member, rfl⟩ | none) word isFirst
    · rw [free word (mem_of_first isFirst) other member (begins_of_first isFirst)]
    · exact absurd (begins_of_first isFirst) (none word (mem_of_first isFirst))

/-- If the first word is the beginning of all others, these are never recognised. -/
theorem exact_iff_of_shadowed (distinct : ((word :: words).map Prod.fst).Nodup)
    (meanings : ((word :: words).map Prod.snd).Nodup)
    (shadowed : ∀ other ∈ words, word.1 <+: other.1) :
    Exact (word :: words) text ↔ text = word.1 ∨ ¬ word.1 <+: text := by
  rw [exact_iff distinct meanings]
  constructor
  · intro whole
    by_cases begins : word.1 <+: text
    · exact .inl (whole word (first_cons_of_begins begins)).symm
    · exact .inr begins
  · rintro (rfl | none) other isFirst
    · rw [first_cons_of_begins List.prefix_rfl] at isFirst
      cases isFirst
      rfl
    · have begins := begins_of_first isFirst
      rcases List.mem_cons.mp (mem_of_first isFirst) with rfl | member
      · exact absurd begins none
      · exact absurd ((shadowed other member).trans begins) none

end LuaJack.Words
