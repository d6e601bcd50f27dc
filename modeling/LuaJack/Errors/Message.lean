import LuaJack.Errors.Once

/-!
# The message in its array

The length that `vsnprintf` returns is not limited by the size that it is given, so the
newline and the zero are stored behind the text only if the text has not been
truncated. -/

namespace LuaJack.Errors

open Atomic

/-- A call has stored the text as far as `vsnprintf` may store it, then a newline and a
zero, and nothing outside the array. -/
structure StoresMessage (text : CString) (before after : Register) : Prop where
  message : Begins after.errmsg (text.take (errmsgLen - 3) ++ [10, 0])
  inside : ∀ store ∈ after.stores.drop before.stores.length, store.index < errmsgLen

/-- The single stores of a text. -/
def storesFrom (ticket : Nat) : Nat → CString → List Store
  | _, [] => []
  | index, char :: text => ⟨ticket, index, char⟩ :: storesFrom ticket (index + 1) text

theorem storesFrom_index {ticket : Nat} {text : CString} {index : Nat} {store : Store}
    (member : store ∈ storesFrom ticket index text) :
    store.index < index + text.length := by
  induction text generalizing index with
  | nil => cases member
  | cons char text ih =>
      rw [List.length_cons]
      cases member with
      | head => exact Nat.lt_add_of_pos_right (Nat.succ_pos _)
      | tail _ member =>
          have less := ih member
          omega

/-- The single stores of a message. -/
def messageStores (ticket : Nat) (formatted : Formatted) : List Store :=
  storesFrom ticket 0 (formatted.text.take (errmsgLen - 3)) ++
    if formatted.fails || 2 ^ 31 ≤ formatted.text.length then
      [⟨ticket, 0, 0⟩]
    else
      [⟨ticket, min formatted.text.length (errmsgLen - 3), 0⟩,
        ⟨ticket, formatted.text.length, 10⟩, ⟨ticket, formatted.text.length + 1, 0⟩]

/-- What single stores make of the memory. -/
def errmsgAfter (errmsg : Nat → UInt8) (stores : List Store) : Nat → UInt8 :=
  stores.foldl (fun errmsg store => Function.update errmsg store.index store.char) errmsg

/-- The variables after some stores. -/
def Register.storing (register : Register) (stores : List Store) : Register :=
  { register with
    errmsg := errmsgAfter register.errmsg stores
    stores := register.stores ++ stores }

theorem Register.storing_append (register : Register) (first second : List Store) :
    (register.storing first).storing second = register.storing (first ++ second) := by
  simp only [Register.storing, errmsgAfter, List.foldl_append, List.append_assoc]

/-! ## What is stored -/

section Runs

variable (ticket : Nat) (register : Register)

theorem run_store (index : Nat) (char : UInt8) :
    (errorOp (.store ticket index char)).run ErrorOp.exec register =
      ((), register.storing [⟨ticket, index, char⟩]) := rfl

theorem run_storeFrom (index : Nat) (text : CString) :
    (storeFrom ticket index text).run ErrorOp.exec register =
      ((), register.storing (storesFrom ticket index text)) := by
  induction text generalizing index register with
  | nil =>
      rw [storeFrom, storesFrom, Register.storing, List.append_nil]
      rfl
  | cons char text ih =>
      rw [storeFrom, Program.run_bind, run_store, ih, Register.storing_append]
      rfl

theorem run_storeMessage (formatted : Formatted) :
    (storeMessage ticket (some formatted)).run ErrorOp.exec register =
      ((), register.storing (messageStores ticket formatted)) := by
  unfold storeMessage vsnprintf messageStores
  rw [Program.run_bind, Program.run_bind, run_storeFrom]
  by_cases fails : (formatted.fails || decide (2 ^ 31 ≤ formatted.text.length)) = true
  · rw [if_pos fails, if_pos fails, ← Register.storing_append]
    rfl
  · rw [if_neg fails, if_neg fails, Program.run_bind, run_store, Register.storing_append]
    have notNegative : ¬ (formatted.text.length : Int) < 0 :=
      Int.not_lt.mpr (Int.natCast_nonneg _)
    rw [Program.pure_eq, Program.run_done, if_neg notNegative,
      Program.run_bind, run_store,
      run_store, Register.storing_append, Register.storing_append, List.append_assoc]
    rfl

/-- The variables after a call has registered its error. -/
def Register.registering (register : Register)
    (code : Bool) (formatted : Formatted) : Register :=
  { register.storing (messageStores register.holders.length formatted) with
    locked := false
    status := Call.status ⟨code, some formatted⟩
    errpipe := (syncpipeWrite register.errpipe).2
    holders := register.holders ++ [⟨code, some formatted⟩]
    setters := register.setters ++ [register.holders.length] }

/-- A call that gets the lock first stores its message, and then no more. -/
theorem run_luajackErrorv_ (code : Bool) (formatted : Formatted)
    (free : register.locked = false) (quiet : exiting register.status = false) :
    (luajackErrorv_ ⟨code, some formatted⟩).run ErrorOp.exec register =
      ((), register.registering code formatted) := by
  have locks : ErrorOp.exec (.trylock ⟨code, some formatted⟩) register =
      (some register.holders.length, { register with
        locked := true, holders := register.holders ++ [⟨code, some formatted⟩] }) := by
    rw [ErrorOp.exec, free]
    rfl
  unfold luajackErrorv_
  rw [Program.perform_bind, Program.run_act, locks]
  simp only [Program.perform_bind, Program.run_act,
    ErrorOp.exec, quiet, Bool.false_eq_true,
    ↓reduceIte, Program.run_bind, run_storeMessage]
  rfl

end Runs

/-! ## What is in memory -/

section Memory

variable {ticket : Nat} {errmsg : Nat → UInt8} {stores : List Store}

theorem errmsgAfter_append (first second : List Store) :
    errmsgAfter errmsg (first ++ second) =
      errmsgAfter (errmsgAfter errmsg first) second :=
  List.foldl_append

/-- A text that is stored behind another one. -/
theorem begins_storesFrom {before : CString}
    (begins : Begins errmsg before) (text : CString) :
    Begins (errmsgAfter errmsg (storesFrom ticket before.length text))
      (before ++ text) := by
  induction text generalizing before errmsg with
  | nil =>
      rw [List.append_nil]
      exact begins
  | cons char text ih =>
      have next := ih (begins.append char)
      rw [List.length_append, List.length_singleton, List.append_assoc] at next
      exact next

/-- The message is complete if the text is short. -/
theorem begins_messageStores {formatted : Formatted} (returns : formatted.fails = false)
    (short : formatted.text.length < errmsgLen - 2) :
    Begins (errmsgAfter errmsg (messageStores ticket formatted))
      (formatted.text.take (errmsgLen - 3) ++ [10, 0]) := by
  have isLen : errmsgLen = 256 := rfl
  have notHuge : ¬ (formatted.fails || decide (2 ^ 31 ≤ formatted.text.length)) =
      true := by
    rw [returns, Bool.false_or, decide_eq_true_eq]
    omega
  have whole : formatted.text.take (errmsgLen - 3) = formatted.text :=
    List.take_of_length_le (by omega)
  have isMin : min formatted.text.length (errmsgLen - 3) =
      formatted.text.length := by omega
  rw [messageStores, if_neg notHuge, whole, isMin, errmsgAfter_append]
  have begins := @begins_storesFrom ticket _ _ (Begins.nil errmsg) formatted.text
  rw [List.length_nil, List.nil_append] at begins
  have ended := (begins.store (Nat.le_refl _) 0).append 10
  have terminated := ended.append 0
  rw [List.length_append, List.length_singleton, List.append_assoc] at terminated
  exact terminated

/-- A longer text is followed by a zero at the place of the newline. -/
theorem errmsgAfter_long {formatted : Formatted} (returns : formatted.fails = false)
    (long : errmsgLen - 2 ≤ formatted.text.length)
    (notHuge : formatted.text.length < 2 ^ 31) :
    errmsgAfter errmsg (messageStores ticket formatted) (errmsgLen - 3) = 0 := by
  have isLen : errmsgLen = 256 := rfl
  have noError : ¬ (formatted.fails || decide (2 ^ 31 ≤ formatted.text.length)) =
      true := by
    rw [returns, Bool.false_or, decide_eq_true_eq]
    omega
  have isMin : min formatted.text.length (errmsgLen - 3) = errmsgLen - 3 := by omega
  rw [messageStores, if_neg noError, isMin, errmsgAfter_append]
  generalize errmsgAfter errmsg (storesFrom ticket 0 _) = before
  show Function.update (Function.update (Function.update before (errmsgLen - 3) 0)
    formatted.text.length 10) (formatted.text.length + 1) 0 (errmsgLen - 3) = 0
  rw [Function.update_of_ne (by omega), Function.update_of_ne (by omega),
    Function.update_self]

/-- No text is left of one whose length is no `int`. -/
theorem errmsgAfter_huge {formatted : Formatted} (huge : 2 ^ 31 ≤ formatted.text.length) :
    errmsgAfter errmsg (messageStores ticket formatted) 0 = 0 := by
  have error : (formatted.fails || decide (2 ^ 31 ≤ formatted.text.length)) = true := by
    rw [decide_eq_true huge, Bool.or_true]
  rw [messageStores, if_pos error, errmsgAfter_append]
  generalize errmsgAfter errmsg (storesFrom ticket 0 _) = before
  show Function.update before 0 0 0 = 0
  exact Function.update_self 0 0 before

/-- The text and the newline are in memory only if the text is short. -/
theorem short_of_begins {formatted : Formatted} (returns : formatted.fails = false)
    (isText : 0 ∉ formatted.text)
    (begins : Begins (errmsgAfter errmsg (messageStores ticket formatted))
      (formatted.text.take (errmsgLen - 3) ++ [10, 0])) :
    formatted.text.length < errmsgLen - 2 := by
  have isLen : errmsgLen = 256 := rfl
  by_contra notShort
  by_cases notHuge : formatted.text.length < 2 ^ 31
  · have isLength : (formatted.text.take (errmsgLen - 3)).length = errmsgLen - 3 := by
      rw [List.length_take]
      omega
    have newline : (formatted.text.take (errmsgLen - 3) ++ [10, 0])[errmsgLen - 3]? =
        some 10 := by
      rw [List.getElem?_append_right (Nat.le_of_eq isLength), isLength, Nat.sub_self]
      rfl
    have isNewline := begins (errmsgLen - 3) 10 newline
    rw [errmsgAfter_long returns (Nat.not_lt.mp notShort) notHuge] at isNewline
    cases isNewline
  · cases isCons : formatted.text with
    | nil =>
        rw [isCons] at notHuge
        exact notHuge (by decide)
    | cons char text =>
        have first : (formatted.text.take (errmsgLen - 3) ++ [10, 0])[0]? =
            some char := by
          rw [isCons]
          rfl
        have isFirst := begins 0 char first
        rw [errmsgAfter_huge (Nat.not_lt.mp notHuge)] at isFirst
        rw [isCons, ← isFirst] at isText
        exact isText List.mem_cons_self

/-- The single stores are inside the array unless the newline or the zero is behind it. -/
theorem inside_messageStores_iff {formatted : Formatted}
    (returns : formatted.fails = false) :
    (∀ store ∈ messageStores ticket formatted, store.index < errmsgLen) ↔
      formatted.text.length < errmsgLen - 1 ∨ 2 ^ 31 ≤ formatted.text.length := by
  have isLen : errmsgLen = 256 := rfl
  have textInside (store : Store)
      (member : store ∈ storesFrom ticket 0 (formatted.text.take (errmsgLen - 3))) :
      store.index < errmsgLen := by
    have less := storesFrom_index member
    rw [List.length_take] at less
    omega
  unfold messageStores
  rw [returns, Bool.false_or]
  by_cases huge : 2 ^ 31 ≤ formatted.text.length
  · rw [if_pos (decide_eq_true huge)]
    refine ⟨fun _ => .inr huge, ?_⟩
    intro _ store member
    rcases List.mem_append.mp member with member | member
    · exact textInside store member
    · rw [List.mem_singleton.mp member]
      exact Nat.zero_lt_succ _
  · rw [if_neg (by rw [decide_eq_true_eq]; exact huge)]
    constructor
    · intro inside
      have last := inside ⟨ticket, formatted.text.length + 1, 0⟩
        (List.mem_append_right _ (.tail _ (.tail _ (.head _))))
      left
      exact Nat.lt_sub_of_add_lt last
    · intro short store member
      have less := short.resolve_right huge
      rcases List.mem_append.mp member with member | member
      · exact textInside store member
      · simp only [List.mem_cons, List.not_mem_nil, or_false] at member
        rcases member with isStore | isStore | isStore
          <;> rw [isStore] <;> simp only <;> omega

end Memory

/-- A call stores the message as it should exactly if the text is short enough to be
stored whole. It stores outside the array if the text has more than 254 characters and
its length is an `int`. -/
theorem message_stored_iff (code : Bool) (formatted : Formatted)
    (returns : formatted.fails = false)
    (isText : 0 ∉ formatted.text) (register : Register) (free : register.locked = false)
    (quiet : exiting register.status = false) :
    (StoresMessage formatted.text register
        ((luajackErrorv_ ⟨code, some formatted⟩).run ErrorOp.exec register).2 ↔
      formatted.text.length < errmsgLen - 2) ∧
    ((∀ store ∈
      ((luajackErrorv_ ⟨code, some formatted⟩).run ErrorOp.exec register).2.stores.drop
        register.stores.length, store.index < errmsgLen) ↔
      formatted.text.length < errmsgLen - 1 ∨ 2 ^ 31 ≤ formatted.text.length) := by
  rw [run_luajackErrorv_ register code formatted free quiet]
  have isInside := @inside_messageStores_iff register.holders.length formatted returns
  have isStores : (register.registering code formatted).stores.drop
      register.stores.length =
      messageStores register.holders.length formatted := List.drop_left
  constructor
  · constructor
    · intro stored
      exact short_of_begins returns isText stored.message
    · intro short
      constructor
      · exact begins_messageStores returns short
      · rw [isStores]
        exact isInside.mpr (.inl (Nat.lt_succ_of_lt short))
  · rw [isStores]
    exact isInside

theorem message_stored_iff_hello :
    StoresMessage [104, 105] (.new 1)
      ((luajackErrorv_ ⟨true, some ⟨[104, 105], false⟩⟩).run ErrorOp.exec (.new 1)).2 :=
  (message_stored_iff true ⟨[104, 105], false⟩ rfl (by decide) (.new 1) rfl rfl).1.mpr
    (by decide)

/-- A text of 255 characters, whose terminating zero is stored behind the array. -/
theorem message_outside : ¬ StoresMessage (List.replicate 255 120) (.new 1)
    ((luajackErrorv_ ⟨true, some ⟨List.replicate 255 120, false⟩⟩).run ErrorOp.exec
        (.new 1)).2 := by
  intro stored
  rw [run_luajackErrorv_ (.new 1) true ⟨List.replicate 255 120, false⟩ rfl rfl] at stored
  have inside : ∀ store ∈ messageStores 0 ⟨List.replicate 255 120, false⟩,
      store.index < errmsgLen := stored.inside
  rcases (inside_messageStores_iff rfl).mp inside with short | huge
  · rw [List.length_replicate] at short
    exact absurd short (by decide)
  · rw [List.length_replicate] at huge
    exact absurd huge (by decide)

end LuaJack.Errors
