import LuaJack.Buffer.Position

/-!
# Properties of single ports

What the calls keep of the ports that they are made on is kept of all ports in every run.
-/

namespace LuaJack.Buffer

open Atomic

variable {Sample Events α : Type}

/-- All ports have a property. -/
def State.All (Holds : Pud Sample Events → Prop) (state : State Sample Events) : Prop :=
  ∀ key pud, state.puds key = some pud → Holds pud

/-- Both ports of a copy have a property. -/
def Pair.Both (Holds : Pud Sample Events → Prop) (pair : Pair Sample Events) : Prop :=
  Holds pair.pud ∧ Holds pair.srcpud

/-- A property of ports is kept by everything that is done to one port, and by copies. -/
structure PortInvariant [Zero Sample] (midi : MidiApi Events)
    (Holds : Pud Sample Events → Prop) : Prop where
  new : ∀ cud type direction, Holds (.new cud type direction)
  close : ∀ pud, Holds pud → Holds { pud with valid := false }
  drop : ∀ pud, Holds pud → Holds pud.drop
  getBuffer : ∀ nframes buf pud, Holds pud → Holds (getBuffer midi nframes buf pud).2
  audio : ∀ pud after : Pud Sample Events, pud.type = .audio →
    Moves pud after → Holds pud →
    Holds after
  midiWrite : ∀ time data pud, Holds pud → Holds (midiWrite midi time data pud).2
  midiRead : ∀ index pud, Holds pud → Holds (midiRead midi index pud).2
  midiSeek : ∀ index pud, Holds pud → Holds (midiSeek index pud).2
  midiCopy : ∀ count pair, Pair.Both Holds pair →
    Pair.Both Holds (midiCopy midi count pair).2

section Checks

variable {β : Type} {Holds : Pud Sample Events → Prop} {pud : Pud Sample Events}
variable {check : PudCall Sample Events α} {rest : α → PudCall Sample Events β}

/-- A check keeps every property. -/
theorem holds_check (same : (check pud).2 = pud) (holds : Holds pud)
    (continues : ∀ value, check pud = (.ok value, pud) → Holds (rest value pud).2) :
    Holds ((check >>= rest) pud).2 := by
  rcases Fallible.check_cases same with ⟨value, isOk⟩ | ⟨message, fails⟩
  · rw [Fallible.bind_of_ok isOk]
    exact continues value isOk
  · rw [Fallible.bind_of_error fails]
    exact holds

theorem checkBuffer_same (pud : Pud Sample Events) : (checkBuffer pud).2 = pud := by
  unfold checkBuffer
  split
  · rfl
  · rfl

theorem checkIsOutput_ok {value : Unit} (isOk : checkIsOutput pud = (.ok value, pud)) :
    pud.direction = .output := by
  by_contra notOutput
  rw [checkIsOutput, if_neg notOutput] at isOk
  cases isOk

theorem optInteger_ok {State : Type} (arg : Option LuaInteger) (default : BitVec 32)
    (state : State) : optInteger (.ok arg) default state =
      (.ok ((arg.map (BitVec.setWidth 32)).getD default), state) := rfl

theorem Pud.with_bufp {pud : Pud Sample Events}
    {bufp : BitVec 32} (same : pud.bufp = bufp) :
    { pud with bufp } = pud := by
  cases same
  rfl

theorem optInteger_count {State : Type} {count default : BitVec 32} {state : State} :
    optInteger (.ok (some (count.setWidth 64))) default state = (.ok count, state) := by
  show (Except.ok ((count.setWidth 64).setWidth 32), state) = _
  rw [BitVec.setWidth_setWidth_of_le _ (by decide), BitVec.setWidth_eq]

end Checks

section Calls

variable {Holds : Pud Sample Events → Prop} {state : State Sample Events}
variable {key srckey : Addr} {pud srcpud : Pud Sample Events}

theorem State.All.update (all : state.All Holds) (holds : Holds pud) :
    State.All Holds { state with puds := Function.update state.puds key (some pud) } := by
  intro other found isFound
  rcases found_update isFound with rfl | isFound
  · exact holds
  · exact all other found isFound

theorem all_pudCheck {arg : CheckInteger}
    {rest : Addr × Pud Sample Events → Call Sample Events α} (all : state.All Holds)
    (continues : ∀ key pud, Holds pud → (rest (key, pud) state).2.All Holds) :
    ((pudCheck arg >>= rest) state).2.All Holds := by
  rcases pudCheck_cases arg state with ⟨message, fails⟩ | ⟨key, pud, found, isPort⟩
  · rw [Fallible.bind_of_error fails]
    exact all
  · rw [Fallible.bind_of_ok isPort]
    exact continues key pud (all key pud found)

theorem all_checkProcess {rest : BitVec 32 → Call Sample Events α} (all : state.All Holds)
    (continues : ∀ nframes, (rest nframes state).2.All Holds) :
    ((checkProcess pud >>= rest) state).2.All Holds := by
  cases inside : (state.cuds pud.cud).processCallback with
  | false =>
      rw [Fallible.bind_of_error (checkProcess_outside inside)]
      exact all
  | true =>
      rw [Fallible.bind_of_ok (checkProcess_inside inside)]
      exact continues _

theorem all_onPort {call : PudCall Sample Events α} (all : state.All Holds)
    (holds : Holds (call pud).2) : (onPort key pud call state).2.All Holds :=
  all.update holds

theorem all_onPorts {call : PairCall Sample Events α} (all : state.All Holds)
    (both : Pair.Both Holds (call ⟨pud, srcpud⟩).2) :
    (onPorts key srckey ⟨pud, srcpud⟩ call state).2.All Holds :=
  (all.update both.1).update both.2

theorem all_switch {port : CheckInteger} {audio midi : Addr → Pud Sample Events →
    Call Sample Events α} (all : state.All Holds)
    (audioKeeps : ∀ key pud, Holds pud → pud.type = .audio →
      (audio key pud state).2.All Holds)
    (midiKeeps : ∀ key pud, Holds pud → (midi key pud state).2.All Holds) :
    (switch port audio midi state).2.All Holds := by
  apply all_pudCheck all
  intro key pud holds
  apply all_checkProcess all
  intro _
  cases isType : pud.type with
  | audio => exact audioKeeps key pud holds isType
  | midi => exact midiKeeps key pud holds

end Calls

section Runs

variable [Zero Sample] {midi : MidiApi Events} {Holds : Pud Sample Events → Prop}
variable {state next : State Sample Events} (invariant : PortInvariant midi Holds)
include invariant

/-- Whatever the source is, `AudioCopy` changes two audio ports or none. -/
theorem both_audioCopy (count : OptInteger) {pair : Pair Sample Events}
    (isAudio : pair.pud.type = .audio) (both : pair.Both Holds) :
    (audioCopy count pair).2.Both Holds := by
  by_cases isSrcAudio : pair.srcpud.type = .audio
  · have moved := pairMoved_audioCopy count isAudio
    exact ⟨invariant.audio _ _ isAudio moved.pud both.1,
      invariant.audio _ _ isSrcAudio moved.srcpud both.2⟩
  · have rejects : checkPorts .audio pair =
        (.error "invalid source port type", pair) := by
      rw [checkPorts, Fallible.asks_bind]
      simp only [id]
      rw [if_pos isSrcAudio]
      rfl
    rw [audioCopy, Fallible.bind_of_error rejects]
    exact both

/-- The calls keep the property of all ports, whatever their arguments are. -/
theorem all_call (operation : Operation Sample Events) (all : state.All Holds) :
    (operation.call midi state).2.All Holds := by
  cases operation with
  | getBuffer port buf =>
      apply all_pudCheck all
      intro key pud holds
      apply all_checkProcess all
      exact fun nframes => all_onPort all (invariant.getBuffer nframes buf pud holds)
  | write port args time data =>
      apply all_switch all
      · intro key pud holds isAudio
        exact all_onPort all
          (invariant.audio _ _ isAudio (moved_audioWrite isAudio args).moves holds)
      · exact fun key pud holds => all_onPort all
          (invariant.midiWrite time data pud holds)
  | clear port count =>
      apply all_switch all
      · intro key pud holds isAudio
        exact all_onPort all
          (invariant.audio _ _ isAudio (moved_audioClear isAudio count).moves holds)
      · exact fun key pud holds => all_onPort all holds
  | read port count checkstack =>
      apply all_switch all
      · intro key pud holds isAudio
        exact all_onPort all
          (invariant.audio _ _ isAudio
            (moved_audioRead isAudio count checkstack).moves holds)
      · exact fun key pud holds => all_onPort all (invariant.midiRead count pud holds)
  | seek port position =>
      apply all_switch all
      · intro key pud holds isAudio
        exact all_onPort all
          (invariant.audio _ _ isAudio (moved_audioSeek position).moves holds)
      · exact fun key pud holds => all_onPort all (invariant.midiSeek position pud holds)
  | copy port source count =>
      apply all_switch all
      · intro key pud holds isAudio
        apply all_pudCheck all
        intro srckey srcpud srcHolds
        exact all_onPorts all (both_audioCopy invariant count isAudio ⟨holds, srcHolds⟩)
      · intro key pud holds
        apply all_pudCheck all
        intro srckey srcpud srcHolds
        exact all_onPorts all (invariant.midiCopy count _ ⟨holds, srcHolds⟩)

theorem all_step (action : Action Sample Events) (all : state.All Holds)
    (performed : cycles midi action state = some next) : next.All Holds := by
  cases action with
  | register key cud type direction =>
      simp only [cycles] at performed
      split at performed
      · cases performed
        exact all.update (invariant.new cud type direction)
      · cases performed
  | close key =>
      cases performed
      intro other pud found
      have found : Function.update state.puds key
          ((state.puds key).map fun pud => { pud with valid := false }) other =
            some pud := found
      by_cases isKey : other = key
      · rw [isKey, Function.update_self] at found
        rcases Option.map_eq_some_iff.mp found with ⟨before, isBefore, isPud⟩
        rw [← isPud]
        exact invariant.close before (all key before isBefore)
      · rw [Function.update_of_ne isKey] at found
        exact all other pud found
  | enter cud nframes =>
      simp only [cycles] at performed
      split at performed
      · cases performed
        exact all
      · cases performed
  | call operation =>
      cases performed
      exact all_call invariant operation all
  | leave cud =>
      simp only [cycles] at performed
      split at performed
      · cases performed
        intro key pud found
        rcases Option.map_eq_some_iff.mp found with ⟨before, isBefore, isPud⟩
        rw [← isPud]
        split
        · exact invariant.drop before (all key before isBefore)
        · exact all key before isBefore
      · cases performed
  | abort cud =>
      simp only [cycles] at performed
      split at performed
      · cases performed
        exact all
      · cases performed

/-- All ports have the property after every run. -/
theorem all_run {actions : List (Action Sample Events)}
    (run : (cycles midi).run actions .initial = some state) : state.All Holds :=
  Machine.invariant_of_any_run
    (fun action _ _ all performed => all_step invariant action all performed)
    (fun _ _ found => by cases found) run

end Runs

end LuaJack.Buffer
