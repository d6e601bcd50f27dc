import LuaJack.Buffer.Position

/-!
# Retrieval from C

`luajack_get_buffer` retrieves the buffer of a port as `GetBuffer` does, except that it
does not ask for the number of events in a MIDI buffer. -/

namespace LuaJack.Buffer

open Atomic

variable {Sample Events α β : Type}

/-- A `luajack_t`. -/
structure Object where
  type : BitVec 32
  xud : Addr

/-- `LUAJACK_TPORT`. -/
def tPort : BitVec 32 := 2

/-- Errors are registered with `luajack_error`, and the function returns a null
pointer. -/
def registering (call : Call Sample Events α) : Call Sample Events α := fun state =>
  match call state with
  | (.ok value, state) => (.ok value, state)
  | (.error message, state) => (.error message, { state with exiting := true })

/-- `get_pud`. An object of this type belongs to the entry of a port. -/
def getPud (obj : Option Object) :
    Call Sample Events (Addr × Pud Sample Events) := fun state =>
  match obj with
  | none => (.error "null luajack_t object", state)
  | some obj =>
      if obj.type ≠ tPort then
        (.error "invalid luajack_t object", state)
      else
        match state.puds obj.xud with
        | none => (.error "invalid luajack_t object", state)
        | some pud =>
            (if pud.valid then .ok (obj.xud, pud) else .error
              "invalid luajack_t object", state)

/-- The rest of `luajack_get_buffer` after the check for the process callback, with the
frames of the cycle and what `jack_port_get_buffer` returns. -/
def retrieve (midi : MidiApi Events) (nframes : BitVec 32)
    (buf : Option (Memory Sample Events)) :
    PudCall Sample Events Unit := do
  if (← Fallible.asks Pud.buf).isSome then
    Fallible.error "buffer already retrieved"
  else
    Fallible.modify fun pud => { pud with nframes, buf }
    match buf with
    | none => Fallible.error "cannot get port buffer"
    | some memory =>
        Fallible.modify fun pud => { pud with bufp := 0 }
        let pud ← Fallible.asks id
        match pud.type, pud.direction with
        | .midi, .output =>
            setMemory { memory with events := midi.clearBuffer memory.events }
        | _, _ => return ()

/-- `luajack_get_buffer` without the registration of errors. -/
def tryGetBuffer (midi : MidiApi Events) (port : Option Object)
    (buf : Option (Memory Sample Events)) : Call Sample Events Unit := do
  let (key, pud) ← getPud port
  let nframes ← checkProcess pud
  onPort key pud (retrieve midi nframes buf)

/-- `luajack_get_buffer`. -/
def luajackGetBuffer (midi : MidiApi Events) (port : Option Object)
    (buf : Option (Memory Sample Events)) : Call Sample Events Unit :=
  registering (tryGetBuffer midi port buf)

/-! ## One port -/

/-- The buffer of a port for the input of MIDI events, if it is retrieved, has as many
events as the cycle has frames. -/
def EventsAreFrames (midi : MidiApi Events) (nframes : BitVec 32)
    (buf : Option (Memory Sample Events)) (pud : Pud Sample Events) : Prop :=
  ∀ memory, pud.buf = none → buf = some memory →
    pud.type = .midi → pud.direction = .input →
    midi.getEventCount memory.events = nframes

section Port

variable (midi : MidiApi Events) (nframes : BitVec 32)
  (buf : Option (Memory Sample Events))
variable (pud : Pud Sample Events)

/-- Both functions succeed or fail, and leave the same port unless they count something
else. -/
theorem retrieve_getBuffer :
    (retrieve midi nframes buf pud).1.isOk = (getBuffer midi nframes buf pud).1.isOk ∧
      ((retrieve midi nframes buf pud).2 = (getBuffer midi nframes buf pud).2 ↔
        EventsAreFrames midi nframes buf pud) := by
  rcases pud with ⟨valid, owner, type, direction, pudBuf, _, _, touched⟩
  cases pudBuf with
  | some _ => exact ⟨rfl, iff_of_true rfl fun _ isNone => by cases isNone⟩
  | none =>
      cases buf with
      | none => exact ⟨rfl, iff_of_true rfl fun _ _ isSome => by cases isSome⟩
      | some memory =>
          cases type with
          | audio => exact ⟨rfl, iff_of_true rfl fun _ _ _ isMidi => by cases isMidi⟩
          | midi =>
              cases direction with
              | output =>
                  exact ⟨rfl, iff_of_true rfl fun _ _ _ _ isInput => by cases isInput⟩
              | input =>
                  refine ⟨rfl, ?_, ?_⟩
                  · intro same other _ isOther _ _
                    cases isOther
                    exact (congrArg Pud.nframes same).symm
                  · intro areFrames
                    have isCount := areFrames memory rfl rfl rfl rfl
                    exact congrArg
                      (fun nframes => Pud.mk valid owner .midi .input (some memory)
                      nframes 0 touched) isCount.symm

end Port

/-! ## Calls that follow -/

/-- The call does not depend on whether the program is exiting, and leaves this as it
is. -/
def Blind (call : Call Sample Events α) : Prop :=
  ∀ state exiting, call { state with exiting } =
    ((call state).1, { (call state).2 with exiting })

section Blind

variable {call : Call Sample Events α} {rest : α → Call Sample Events β}

theorem blind_bind (first : Blind call) (second : ∀ value, Blind (rest value)) :
    Blind (call >>= rest) := by
  intro state exiting
  have isFirst := first state exiting
  cases result : call state with
  | mk answer after =>
      rw [result] at isFirst
      cases answer with
      | ok value =>
          rw [Fallible.bind_of_ok isFirst, Fallible.bind_of_ok result]
          exact second value after exiting
      | error message =>
          rw [Fallible.bind_of_error isFirst, Fallible.bind_of_error result]

theorem blind_pudCheck (arg : CheckInteger) :
    Blind (pudCheck arg : Call Sample Events _) := by
  intro state exiting
  cases arg with
  | error message => rfl
  | ok key =>
      simp only [pudCheck]
      cases state.puds key with
      | none => rfl
      | some pud => rfl

theorem blind_checkProcess (pud : Pud Sample Events) : Blind (checkProcess pud) :=
  fun _ _ => rfl

theorem blind_onPort (key : Addr) (pud : Pud Sample Events)
    (call : PudCall Sample Events α) :
    Blind (onPort key pud call) := fun _ _ => rfl

theorem blind_onPorts (key srckey : Addr) (pair : Pair Sample Events)
    (call : PairCall Sample Events α) :
    Blind (onPorts key srckey pair call) := fun _ _ => rfl

theorem blind_switch (port : CheckInteger)
    {audio midi : Addr → Pud Sample Events → Call Sample Events α}
    (audioBlind : ∀ key pud, Blind (audio key pud))
    (midiBlind : ∀ key pud, Blind (midi key pud)) :
    Blind (switch port audio midi) := by
  apply blind_bind (blind_pudCheck port)
  intro (key, pud)
  apply blind_bind (blind_checkProcess pud)
  intro _
  cases pud.type with
  | audio => exact audioBlind key pud
  | midi => exact midiBlind key pud

theorem blind_source (source : CheckInteger) (key : Addr) (pud : Pud Sample Events)
    (call : PairCall Sample Events α) : Blind (do
      let (srckey, srcpud) ← pudCheck source
      onPorts key srckey ⟨pud, srcpud⟩ call) :=
  blind_bind (blind_pudCheck source) fun _ => blind_onPorts _ _ _ _

theorem blind_call [Zero Sample] (midi : MidiApi Events)
    (operation : Operation Sample Events) :
    Blind (operation.call midi) := by
  cases operation with
  | getBuffer arg buf =>
      apply blind_bind (blind_pudCheck arg)
      intro (key, pud)
      exact blind_bind (blind_checkProcess pud) fun nframes => blind_onPort _ _ _
  | write arg args time data =>
      rw [Operation.call]
      exact blind_switch arg (fun _ _ => blind_onPort _ _ _) fun _ _ => blind_onPort _ _ _
  | clear arg count =>
      rw [Operation.call]
      exact blind_switch arg (fun _ _ => blind_onPort _ _ _) fun _ _ => blind_onPort _ _ _
  | read arg count checkstack =>
      rw [Operation.call]
      exact blind_switch arg (fun _ _ => blind_onPort _ _ _) fun _ _ => blind_onPort _ _ _
  | seek arg position =>
      rw [Operation.call]
      exact blind_switch arg (fun _ _ => blind_onPort _ _ _) fun _ _ => blind_onPort _ _ _
  | copy arg source count =>
      rw [Operation.call]
      exact blind_switch arg (fun _ _ => blind_source _ _ _ _) fun _ _ =>
        blind_source _ _ _ _

end Blind

/-! ## Both functions -/

/-- If the buffer is retrieved, both functions count the same. -/
def Agreeing (midi : MidiApi Events) (buf : Option (Memory Sample Events))
    (state : State Sample Events) (pud : Pud Sample Events) : Prop :=
  pud.valid = true → (state.cuds pud.cud).processCallback = true →
    EventsAreFrames midi (state.cuds pud.cud).nframes buf pud

section States

variable {state : State Sample Events} {key : Addr} {pud : Pud Sample Events}

theorem getPud_ok (found : state.puds key = some pud) (isValid : pud.valid = true) :
    getPud (some ⟨tPort, key⟩) state = (.ok (key, pud), state) := by
  simp only [getPud, found, isValid]
  rfl

theorem getPud_closed (found : state.puds key = some pud) (isClosed : pud.valid = false) :
    getPud (some ⟨tPort, key⟩) state = (.error "invalid luajack_t object", state) := by
  simp only [getPud, found, isClosed]
  rfl

theorem registering_apply (call : Call Sample Events α) (state : State Sample Events) :
    (registering call state).1 = (call state).1 ∧
      ∃ exiting, (registering call state).2 = { (call state).2 with exiting } := by
  unfold registering
  cases call state with
  | mk answer after =>
      cases answer with
      | ok value => exact ⟨rfl, after.exiting, rfl⟩
      | error message => exact ⟨rfl, true, rfl⟩

variable [Zero Sample] (midi : MidiApi Events) (buf : Option (Memory Sample Events))

/-- What both functions return, and the ports that they leave. -/
theorem retrievals (found : state.puds key = some pud) :
    (tryGetBuffer midi (some ⟨tPort, key⟩) buf state).1.isOk =
        ((Operation.getBuffer (.ok key) buf).call midi state).1.isOk ∧
      (∃ puds luaPuds, (tryGetBuffer midi (some ⟨tPort, key⟩) buf state).2 =
        { state with puds } ∧
        ((Operation.getBuffer (.ok key) buf).call midi state).2 =
          { state with puds := luaPuds } ∧
          (puds = luaPuds ↔ Agreeing midi buf state pud)) := by
  rw [Operation.call, tryGetBuffer]
  cases isValid : pud.valid with
  | false =>
      rw [Fallible.bind_of_error (getPud_closed found isValid),
        Fallible.bind_of_error (pudCheck_closed found isValid)]
      refine ⟨rfl, state.puds, state.puds, rfl, rfl, iff_of_true rfl ?_⟩
      intro alsoValid
      rw [isValid] at alsoValid
      cases alsoValid
  | true =>
      rw [Fallible.bind_of_ok (getPud_ok found isValid),
        Fallible.bind_of_ok (pudCheck_ok found isValid)]
      simp only
      cases inside : (state.cuds pud.cud).processCallback with
      | false =>
          rw [Fallible.bind_of_error (checkProcess_outside inside),
            Fallible.bind_of_error (checkProcess_outside inside)]
          refine ⟨rfl, state.puds, state.puds, rfl, rfl, iff_of_true rfl ?_⟩
          intro _ alsoInside
          rw [inside] at alsoInside
          cases alsoInside
      | true =>
          rw [Fallible.bind_of_ok (checkProcess_inside inside),
            Fallible.bind_of_ok (checkProcess_inside inside)]
          have onOne := retrieve_getBuffer midi (state.cuds pud.cud).nframes buf pud
          refine ⟨onOne.1, _, _, rfl, rfl, ?_⟩
          constructor
          · intro same _ _
            apply onOne.2.mp
            have isPud := congrFun same key
            rw [Function.update_self, Function.update_self] at isPud
            exact Option.some.inj isPud
          · intro agreeing
            exact congrArg (fun pud => Function.update state.puds key (some pud))
              (onOne.2.mpr (agreeing isValid inside))

/-- The events that are left tell which of the functions has been called. -/
theorem seek_retrieved {memory : Memory Sample Events} (found : state.puds key = some pud)
    (isValid : pud.valid = true) (inside : (state.cuds pud.cud).processCallback = true)
    (isMidi : pud.type = .midi) (isInput : pud.direction = .input)
    (isBuf : pud.buf = some memory) (isStart : pud.bufp = 0) :
    ((Operation.seek (.ok key) none).call midi state).1 =
      .ok [.integer 0, .integer (pud.nframes.setWidth 64)] := by
  have isSeek : midiSeek none pud =
      (.ok [.integer 0, .integer (pud.nframes.setWidth 64)], pud) := by
    unfold midiSeek
    rw [Fallible.bind_of_ok (checkBuffer_of_buf isBuf),
      Fallible.bind_of_ok (checkIsInput_of_input isInput), Fallible.asks_bind]
    have isAvail : pud.avail = pud.nframes := by
      apply BitVec.eq_of_toNat_eq
      rw [avail_toNat, isStart]
      rfl
    simp only [Option.map_none, reportPosition, Fallible.asks_bind, id, isAvail, isStart]
    rfl
  rw [Operation.call, switch, Fallible.bind_of_ok (pudCheck_ok found isValid)]
  simp only
  rw [Fallible.bind_of_ok (checkProcess_inside inside), isMidi]
  simp only [onPort, isSeek]

/-- The buffer of a port for the input of MIDI events is retrieved. -/
theorem retrieved_midiInput {memory : Memory Sample Events}
    (found : state.puds key = some pud)
    (isValid : pud.valid = true) (inside : (state.cuds pud.cud).processCallback = true)
    (isMidi : pud.type = .midi) (isInput : pud.direction = .input)
    (isNone : pud.buf = none) :
    (tryGetBuffer midi (some ⟨tPort, key⟩) (some memory) state).2 = { state with
        puds := Function.update state.puds key (some { pud with
          nframes := (state.cuds pud.cud).nframes, buf := some memory, bufp := 0 }) } ∧
      ((Operation.getBuffer (.ok key) (some memory)).call midi state).2 = { state with
        puds := Function.update state.puds key (some { pud with
          nframes := midi.getEventCount memory.events, buf :=
            some memory, bufp := 0 }) } := by
  rw [Operation.call, tryGetBuffer, Fallible.bind_of_ok (getPud_ok found isValid),
    Fallible.bind_of_ok (pudCheck_ok found isValid)]
  simp only
  rw [Fallible.bind_of_ok (checkProcess_inside inside),
    Fallible.bind_of_ok (checkProcess_inside inside)]
  generalize (state.cuds pud.cud).nframes = nframes
  rcases pud with ⟨_, _, _, _, _, _, _, _⟩
  cases isMidi
  cases isInput
  cases isNone
  exact ⟨rfl, rfl⟩

/-- The calls that follow behave the same only if the port is the same. -/
theorem agreeing_of_calls (found : state.puds key = some pud)
    (same : ∀ operation : Operation Sample Events,
      (operation.call midi (tryGetBuffer midi (some ⟨tPort, key⟩) buf state).2).1 =
        (operation.call midi ((Operation.getBuffer (.ok key) buf).call midi state).2).1) :
    Agreeing midi buf state pud := by
  intro isValid inside memory isNone isBuf isMidi isInput
  subst isBuf
  rcases retrieved_midiInput midi found isValid
    inside isMidi isInput isNone with ⟨isC, isLua⟩
  have position
      (nframes : BitVec 32) : ((Operation.seek (.ok key) none).call midi { state with
      puds := Function.update state.puds key (some { pud with
        nframes, buf := some memory, bufp := 0 }) }).1 =
      .ok [.integer 0, .integer (nframes.setWidth 64)] :=
    @seek_retrieved _ _ { state with puds := Function.update state.puds key _ } key
      { pud with nframes, buf := some memory, bufp := 0 } _ midi memory
        (Function.update_self _ _ _)
      isValid inside isMidi isInput rfl rfl
  have sought := same (.seek (.ok key) none)
  rw [isC, isLua, position, position] at sought
  have values := List.cons.inj (List.cons.inj (Except.ok.inj sought)).2
  have extended := Value.integer.inj values.1
  have narrowed := congrArg (BitVec.setWidth 32) extended
  rw [BitVec.setWidth_setWidth_of_le _ (by decide),
    BitVec.setWidth_setWidth_of_le _ (by decide),
    BitVec.setWidth_eq, BitVec.setWidth_eq] at narrowed
  exact narrowed.symm

end States

/-- Both functions succeed and fail in the same cases. They leave the same port, and all
calls that follow return the same, exactly if no MIDI buffer for input is retrieved that
has another number of events than the cycle has frames. -/
theorem retrieval_agrees_iff [Zero Sample] (midi : MidiApi Events)
    (buf : Option (Memory Sample Events)) (state : State Sample Events) (key : Addr)
    (pud : Pud Sample Events) (found : state.puds key = some pud) :
    (luajackGetBuffer midi (some ⟨tPort, key⟩) buf state).1.isOk =
        ((Operation.getBuffer (.ok key) buf).call midi state).1.isOk ∧
      ((luajackGetBuffer midi (some ⟨tPort, key⟩) buf state).2.puds =
        ((Operation.getBuffer (.ok key) buf).call midi state).2.puds ↔
          Agreeing midi buf state pud) ∧
      ((∀ operation : Operation Sample Events,
        (operation.call midi (luajackGetBuffer midi (some ⟨tPort, key⟩) buf state).2).1 =
          (operation.call midi
            ((Operation.getBuffer (.ok key) buf).call midi state).2).1) ↔
            Agreeing midi buf state pud) := by
  rcases registering_apply (tryGetBuffer midi (some ⟨tPort, key⟩) buf) state with
    ⟨isReturned, exiting, isAfter⟩
  rcases retrievals midi buf found with ⟨isOk, puds, luaPuds, isTried, isLua, isSame⟩
  have unnoticed (operation : Operation Sample Events)
      (puds : Addr → Option (Pud Sample Events)) :
      (operation.call midi { state with puds, exiting }).1 =
        (operation.call midi { state with puds }).1 := by
    have blind := blind_call midi operation { state with puds } exiting
    simp only at blind
    rw [blind]
  rw [luajackGetBuffer, isReturned, isAfter, isTried, isLua]
  refine ⟨isOk, isSame, ?_⟩
  constructor
  · intro same
    apply agreeing_of_calls midi buf found
    intro operation
    rw [isTried, isLua, ← same operation, unnoticed]
  · intro agreeing operation
    rw [unnoticed, isSame.mpr agreeing]

/-- The process callback of a client with a port for the input of MIDI events. -/
def midiCycle : State Int (List MidiEvent) where
  puds := fun key => if key = 1 then some (.new 7 .midi .input) else none
  cuds := fun _ => ⟨true, 256⟩
  exiting := false

/-- A cycle of one frame. -/
def frameCycle :
    State Int (List MidiEvent) := { midiCycle with cuds := fun _ => ⟨true, 1⟩ }

/-- There are as many events in the buffer as there are frames. -/
theorem retrieval_agrees_iff_frameCycle :
    (luajackGetBuffer (.lists 64) (some ⟨tPort, 1⟩) (some ⟨fun _ => 0, [⟨0, [0x90]⟩]⟩)
        frameCycle).2.puds =
      ((Operation.getBuffer (.ok 1) (some ⟨fun _ => 0, [⟨0, [0x90]⟩]⟩)).call (.lists 64)
        frameCycle).2.puds := by
  have agrees :=
    retrieval_agrees_iff (.lists 64) (some ⟨fun _ => 0, [⟨0, [0x90]⟩]⟩) frameCycle 1
    (.new 7 .midi .input) rfl
  apply agrees.2.1.mpr
  intro _ _ memory _ isMemory _ _
  cases isMemory
  rfl

/-- One event is in the buffer, but the port is left as if there were 256. -/
theorem events_miscounted :
    ¬ (luajackGetBuffer (.lists 64) (some ⟨tPort, 1⟩) (some ⟨fun _ => 0, [⟨0, [0x90]⟩]⟩)
        midiCycle).2.puds =
      ((Operation.getBuffer (.ok 1) (some ⟨fun _ => 0, [⟨0, [0x90]⟩]⟩)).call (.lists 64)
        midiCycle).2.puds := by
  intro same
  have isFrames := congrArg (Option.map Pud.nframes) (congrFun same 1)
  exact absurd isFrames (by decide)

end LuaJack.Buffer
