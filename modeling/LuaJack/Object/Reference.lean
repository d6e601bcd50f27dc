import LuaJack.Object.Create
import Mathlib.Algebra.Group.Int.Defs

/-!
# References to created objects

The integer that a creating function returns is meant to be the address of the
new entry.  For ringbuffers it passes through an `int`, so that only addresses
that an `int` can hold survive.
-/

namespace LuaJack

/-- A call of a function that creates an object. -/
inductive Creation where
  | clientOpen (call : ClientOpen)
  | inputAudioPort (call : PortRegister)
  | outputAudioPort (call : PortRegister)
  | inputMidiPort (call : PortRegister)
  | outputMidiPort (call : PortRegister)
  | ringbuffer (call : RingbufferCall)
  | threadCreate (call : ThreadCreate)

namespace Creation

/-- Call the function. -/
def run : Creation → Lua (Option LuaInteger)
  | clientOpen call => LuaJack.clientOpen call
  | inputAudioPort call => LuaJack.inputAudioPort call
  | outputAudioPort call => LuaJack.outputAudioPort call
  | inputMidiPort call => LuaJack.inputMidiPort call
  | outputMidiPort call => LuaJack.outputMidiPort call
  | ringbuffer call => LuaJack.ringbuffer call
  | threadCreate call => LuaJack.threadCreate call

/-- The kind of the object. -/
def kind : Creation → ObjectKind
  | clientOpen _ => .client
  | inputAudioPort _ | outputAudioPort _ | inputMidiPort _ | outputMidiPort _ => .port
  | ringbuffer _ => .ringbuffer
  | threadCreate _ => .thread

/-- What the allocator answers when it is asked for the entry. -/
def malloc : Creation → Option Addr
  | clientOpen call => call.malloc
  | inputAudioPort call | outputAudioPort call | inputMidiPort
    call | outputMidiPort call =>
      call.malloc
  | ringbuffer call => call.malloc
  | threadCreate call => call.malloc

end Creation

/-! ## What a successful call has done -/

namespace Lua

variable {α β : Type} {world after : World}

theorem bind_pure (function : Lua α) : function >>= pure = function := by
  funext world
  rw [bind_apply]
  rcases function world with ⟨value | message, after⟩ <;> rfl

theorem bind_assoc {γ : Type} (function : Lua α)
    (second : α → Lua β) (third : β → Lua γ) :
    function >>= second >>= third = function >>= fun value => second value >>= third := by
  funext world
  simp only [bind_apply]
  rcases function world with ⟨value | message, after⟩ <;> rfl

instance : LawfulMonad Lua := LawfulMonad.mk' _ bind_pure (fun _ _ => rfl) bind_assoc

/-- A sequence succeeds exactly if both parts do. -/
theorem bind_eq_ok {function : Lua α} {rest : α → Lua β} {value : β} :
    (function >>= rest) world = (.ok value, after) ↔
      ∃ first middle, function world = (.ok first, middle) ∧
        rest first middle = (.ok value, after) := by
  rw [bind_apply]
  cases result : function world with
  | mk answer middle =>
      cases answer with
      | ok first => simp
      | error message => simp

@[simp] theorem pure_eq_ok {first value : α} :
    (pure first : Lua α) world = (.ok value, after) ↔ value = first ∧ after = world := by
  rw [pure_apply, Prod.mk.injEq, Except.ok.injEq, eq_comm, @eq_comm _ world]

/-- The function raises an error, whatever the world is. -/
def Fails (function : Lua α) :
    Prop := ∀ world, ∃ message after, function world = (.error message, after)

theorem Fails.ne_ok {function : Lua α} (fails : function.Fails) {value : α} :
    ¬function world = (.ok value, after) := by
  intro result
  rcases fails world with ⟨message, failed, isError⟩
  rw [isError] at result
  cases result

theorem fails_error (message : String) : (error message : Lua α).Fails :=
  fun world => ⟨message, world, rfl⟩

theorem fails_bind {function : Lua α} {rest : α → Lua β} (fails : function.Fails) :
    (function >>= rest).Fails := by
  intro world
  rcases fails world with ⟨message, failed, isError⟩
  exact ⟨message, failed, by rw [bind_apply, isError]⟩

theorem fails_ite {condition : Prop} [Decidable condition] {first second : Lua α}
    (firstFails : first.Fails) (secondFails : second.Fails) :
    (if condition then first else second).Fails := by
  split
  · exact firstFails
  · exact secondFails

theorem fails_modify {change : World → World}
    {rest : Unit → Lua α} (fails : (rest ()).Fails) :
    (modify change >>= rest).Fails := fun world => fails (change world)

theorem ite_apply {condition : Prop} [Decidable condition] {first second : Lua α} :
    (if condition then first else second) world =
      if condition then first world else second world := by
  split <;> rfl

end Lua

variable {world after : World} {kind : ObjectKind} {malloc : Option Addr}

theorem checkcreate_apply : checkcreate world =
    if world.mainThread then
      if world.activeClients > 0 then
        (.ok false, world.luajackError "operation not allowed with active clients")
      else
        (.ok true, world)
    else
      (.ok false, world.luajackError "function can be called only in main thread") := by
  cases isMain : world.mainThread with
  | false =>
      simp only [checkcreate, checkmain, Lua.bind_apply, Lua.asks_apply, Lua.modify_apply,
        Lua.pure_apply, isMain, Bool.false_eq_true, if_false]
  | true =>
      simp only [checkcreate, checkmain, Lua.bind_apply, Lua.asks_apply, Lua.modify_apply,
        Lua.pure_apply, Lua.ite_apply, isMain, if_true]

theorem checkcreate_eq_true :
    checkcreate world = (.ok true, after) ↔
      (world.mainThread = true ∧ ¬world.activeClients > 0) ∧ after = world := by
  rw [checkcreate_apply]
  split
  next isMain =>
    split
    next active =>
      simp only [active, Prod.mk.injEq, Except.ok.injEq,
        Bool.false_eq_true, not_true_eq_false, and_false, false_and]
    next inactive =>
      simp only [isMain, inactive, Prod.mk.injEq, not_false_eq_true, and_self, true_and]
      exact eq_comm
  next isNotMain => simp [isNotMain]

/-- `new` succeeds with the address that it got from the allocator. -/
theorem new_eq_some {entry : kind.Entry} {key : Addr} :
    new kind malloc entry world = (.ok (some key), after) ↔
      malloc = some key ∧ world.search kind key = none ∧
        after = world.setTable kind ((world.table kind).insert key entry) := by
  unfold new
  cases malloc with
  | none => simp
  | some address =>
      cases found : world.search kind address with
      | some old =>
          simp only [Lua.asks_bind, found, Lua.modify_bind, Lua.pure_eq_ok, reduceCtorEq,
            false_and, Option.some.injEq, false_iff, not_and]
          rintro rfl absent
          rw [found] at absent
          cases absent
      | none =>
          simp only [Lua.asks_bind, found, Lua.modify_bind,
            Lua.pure_eq_ok, Option.some.injEq]
          constructor
          · rintro ⟨rfl, rfl⟩
            exact ⟨rfl, found, rfl⟩
          · rintro ⟨rfl, _, rfl⟩
            exact ⟨rfl, rfl⟩

/-! ## The four kinds -/

namespace World

/-- A new entry is a valid object. -/
theorem valid_insert {entry : kind.Entry} {key : Addr}
    (absent : world.search kind key = none) (isValid : kind.isValid entry = true) :
    (world.setTable kind ((world.table kind).insert key entry)).Valid kind key := by
  refine ⟨entry, ?_, isValid⟩
  rw [search, table_setTable, Table.find?_insert absent, if_pos rfl]

/-- Changing an entry without cancelling its mark keeps the object valid. -/
theorem valid_modifyEntry {key : Addr} {change : kind.Entry → kind.Entry}
    (valid : world.Valid kind key)
    (keeps : ∀ entry, kind.isValid (change entry) = kind.isValid entry) :
    (world.modifyEntry kind key change).Valid kind key := by
  rcases valid with ⟨entry, found, isValid⟩
  refine ⟨change entry, ?_, by rw [keeps, isValid]⟩
  rw [search] at found
  rw [search, modifyEntry, table_setTable, Table.find?_modify,
    if_pos rfl, found, Option.map_some]

end World

/-- The integer by which Lua knows a new object. -/
def ObjectKind.luaRef : ObjectKind → Addr → LuaInteger
  | .ringbuffer, key => (key.setWidth 32).signExtend 64
  | _, key => key

/-- When the function returns an integer, there is a new valid object and the
integer is made from its address. -/
def Creates (kind : ObjectKind) (malloc : Option Addr)
    (function : Lua (Option LuaInteger)) : Prop :=
  ∀ world after ref, function world = (.ok (some ref), after) →
    ∃ key, malloc = some key ∧ ref = kind.luaRef key ∧ after.Valid kind key

theorem creates_checkcreate {malloc : Option Addr} {body : Lua (Option LuaInteger)}
    (creates : Creates kind malloc body) :
    Creates kind malloc (do if ← checkcreate then body else return none) := by
  intro world after ref run
  rcases Lua.bind_eq_ok.mp run with ⟨allowed, middle, _, run⟩
  cases allowed with
  | true => exact creates middle after ref run
  | false => simp at run

theorem creates_bind {α : Type} {malloc : Option Addr} {function : Lua α}
    {rest : α → Lua (Option LuaInteger)}
    (creates : ∀ value, Creates kind malloc (rest value)) :
    Creates kind malloc (function >>= rest) := by
  intro world after ref run
  rcases Lua.bind_eq_ok.mp run with ⟨value, middle, _, run⟩
  exact creates value middle after ref run

theorem creates_fails {function : Lua (Option LuaInteger)} (fails : function.Fails) :
    Creates kind malloc function := fun _ _ _ run => absurd run fails.ne_ok

/-- Once the entry exists, the function returns the integer made from its address. -/
def Delivers (kind : ObjectKind) (key : Addr)
    (function : Lua (Option LuaInteger)) : Prop :=
  ∀ world after ref, world.Valid kind key → function world = (.ok (some ref), after) →
    ref = kind.luaRef key ∧ after.Valid kind key

theorem creates_new {entry : kind.Entry} {rest : Option Addr → Lua (Option LuaInteger)}
    (isValid : kind.isValid entry = true) (fails : Creates kind malloc (rest none))
    (delivers : ∀ key, Delivers kind key (rest (some key))) :
    Creates kind malloc (new kind malloc entry >>= rest) := by
  intro world after ref run
  rcases Lua.bind_eq_ok.mp run with ⟨created, middle, isNew, run⟩
  cases created with
  | none => exact fails middle after ref run
  | some key =>
      rcases new_eq_some.mp isNew with ⟨isMalloc, absent, rfl⟩
      have valid := World.valid_insert absent isValid
      rcases delivers key _ after ref valid run with ⟨isRef, valid⟩
      exact ⟨key, isMalloc, isRef, valid⟩

theorem delivers_modify {key : Addr} {change : kind.Entry → kind.Entry}
    {rest : Unit → Lua (Option LuaInteger)}
    (keeps : ∀ entry, kind.isValid (change entry) = kind.isValid entry)
    (delivers : Delivers kind key (rest ())) :
    Delivers kind key (Lua.modify (·.modifyEntry kind key change) >>= rest) :=
  fun _ after ref valid run => delivers _ after ref
    (World.valid_modifyEntry valid keeps) run

theorem delivers_return (key : Addr) :
    Delivers kind key (return some (kind.luaRef key)) := by
  intro world after ref valid run
  simp only [Lua.pure_eq_ok, Option.some.injEq] at run
  rcases run with ⟨rfl, rfl⟩
  exact ⟨rfl, valid⟩

theorem delivers_fails {key : Addr} {function : Lua (Option LuaInteger)}
    (fails : function.Fails) : Delivers kind key function :=
  fun _ _ _ _ run => absurd run fails.ne_ok

theorem clientOpen_creates (call : ClientOpen) :
    Creates .client call.malloc (clientOpen call) := by
  apply creates_checkcreate
  cases call.name.toString? with
  | none => exact creates_fails (Lua.fails_error _)
  | some name =>
      apply creates_bind
      intro request
      cases call.jackClientOpen request with
      | error status => exact creates_fails (Lua.fails_error _)
      | ok client =>
          apply creates_new rfl
          · exact creates_fails (Lua.fails_modify (Lua.fails_error _))
          · intro key
            apply delivers_modify
            · exact fun _ => rfl
            · exact delivers_return key

theorem portRegister_creates (flags : BitVec 64) (call : PortRegister) :
    Creates .port call.malloc (portRegister flags call) := by
  apply creates_checkcreate
  apply creates_bind
  intro cud
  apply creates_bind
  intro name
  apply creates_bind
  intro client
  cases call.jackPortRegister (portRequest client name flags call.options) with
  | none => exact creates_fails (Lua.fails_error _)
  | some port =>
      apply creates_new rfl
      · exact creates_fails (Lua.fails_modify (Lua.fails_error _))
      · intro key
        apply delivers_modify
        · exact fun _ => rfl
        · exact delivers_return key

theorem rbufNew_delivers (cud : Addr) (size : BitVec 64) (call : RingbufferCall) :
    Creates .ringbuffer call.malloc do
      let key ← rbufNew cud size call
      return some (key.signExtend 64) := by
  unfold rbufNew
  simp only [bind_assoc]
  apply creates_bind
  intro pipefd
  apply creates_new rfl
  · exact creates_fails (Lua.fails_error _)
  · intro key
    simp only [bind_assoc]
    apply delivers_modify
    · exact fun _ => rfl
    · cases call.ringbufferNew size call.mlock.toBoolean with
      | none =>
          apply delivers_fails
          apply Lua.fails_bind
          apply Lua.fails_ite
          · apply Lua.fails_modify
            apply Lua.fails_modify
            exact Lua.fails_error _
          · apply Lua.fails_modify
            exact Lua.fails_error _
      | some rbuf => exact delivers_return key

theorem ringbuffer_creates (call : RingbufferCall) :
    Creates .ringbuffer call.malloc (ringbuffer call) := by
  apply creates_checkcreate
  apply creates_bind
  intro cud
  apply creates_bind
  intro size
  exact rbufNew_delivers cud size call

/-- Whatever fails behind `tud_new`, the entry stays valid. -/
theorem threadStart_delivers (key : Addr) (state : Handle) (call : ThreadCreate) :
    Delivers .thread key (do return some (← threadStart key state call)) := by
  unfold threadStart
  split
  · split
    · split
      next rc isAnswer =>
        exact delivers_fails (Lua.fails_bind (Lua.fails_modify (Lua.fails_error _)))
      next thread isAnswer =>
        simp only [bind_assoc]
        apply delivers_modify
        · exact fun _ => rfl
        · exact delivers_return key
    · exact delivers_fails (Lua.fails_bind (Lua.fails_modify (Lua.fails_error _)))
  · exact delivers_fails (Lua.fails_bind (Lua.fails_modify (Lua.fails_error _)))

theorem threadCreate_creates (call : ThreadCreate) :
    Creates .thread call.malloc (threadCreate call) := by
  apply creates_checkcreate
  apply creates_bind
  intro cud
  split
  next script isScript =>
    cases call.newstate with
    | none => exact creates_fails (Lua.fails_error _)
    | some state =>
        apply creates_bind
        intro loaded
        apply creates_bind
        intro moved
        apply creates_new rfl
        · exact creates_fails (Lua.fails_modify (Lua.fails_error _))
        · intro key
          apply delivers_modify
          · exact fun _ => rfl
          · exact threadStart_delivers key state call
  next notScript => exact creates_fails (Lua.fails_error _)

theorem Creation.creates (creation : Creation) :
    Creates creation.kind creation.malloc creation.run := by
  cases creation with
  | clientOpen call => exact clientOpen_creates call
  | inputAudioPort call => exact portRegister_creates _ call
  | outputAudioPort call => exact portRegister_creates _ call
  | inputMidiPort call => exact portRegister_creates _ call
  | outputMidiPort call => exact portRegister_creates _ call
  | ringbuffer call => exact ringbuffer_creates call
  | threadCreate call => exact threadCreate_creates call

/-! ## References -/

/-- The addresses that survive the conversion to an `int` and back. -/
theorem signExtend_setWidth_eq_iff (key : Addr) :
    (key.setWidth 32).signExtend 64 = key ↔ -2 ^ 31 ≤ key.toInt ∧ key.toInt < 2 ^ 31 := by
  rw [← BitVec.toInt_inj, BitVec.toInt_signExtend_of_le (by decide),
    BitVec.toInt_setWidth]
  have bounds := key.isLt
  rw [BitVec.toInt_eq_toNat_bmod]
  simp only [Int.bmod_def]
  omega

/-- The integer that a creating function returns resolves to the new object, as
long as that is valid, exactly if it is no ringbuffer or its address fits in an
`int`. -/
theorem resolves_iff_fits (creation : Creation) (world after : World) (ref : LuaInteger)
    (run : creation.run world = (.ok (some ref), after)) :
    ∃ key, creation.malloc = some key ∧ after.Valid creation.kind key ∧
      ∀ later : World, later.Valid creation.kind key →
        (check creation.kind ref later = (.ok key, later) ↔
          (creation.kind = .ringbuffer → -2 ^ 31 ≤ key.toInt ∧ key.toInt < 2 ^ 31)) := by
  rcases creation.creates world after ref run with ⟨key, isMalloc, isRef, valid⟩
  refine ⟨key, isMalloc, valid, ?_⟩
  intro later laterValid
  have resolves : check creation.kind ref later = (.ok key, later) ↔ ref = key := by
    constructor
    · intro result
      exact (check_eq_ok.mp result).2.1.symm
    · rintro rfl
      exact check_of_valid laterValid
  rw [resolves, isRef]
  cases creation.kind with
  | ringbuffer =>
      simp only [ObjectKind.luaRef, signExtend_setWidth_eq_iff, forall_const]
  | client => simp [ObjectKind.luaRef]
  | port => simp [ObjectKind.luaRef]
  | thread => simp [ObjectKind.luaRef]

/-- The world with one client, whose entry is at a given address. -/
def World.withClient (key : Addr) : World := (clientOpen (.plain key) World.initial).2

/-- A ringbuffer in the low part of the address space. -/
theorem resolves_iff_fits_low :
    ∃ key, some (0x602010 : Addr) = some key ∧
      ((ringbuffer (.plain 0x601010 0x602010) (World.withClient 0x601010)).2).Valid
          .ringbuffer key ∧
      ∀ later : World, later.Valid .ringbuffer key →
        (check .ringbuffer 0x602010 later = (.ok key, later) ↔
          (ObjectKind.ringbuffer = .ringbuffer → -2 ^ 31 ≤ key.toInt ∧
            key.toInt < 2 ^ 31)) :=
  resolves_iff_fits (.ringbuffer (.plain 0x601010 0x602010))
    (World.withClient 0x601010) _ _ rfl

/-- The reference to a ringbuffer whose entry is where a position independent program
has its heap does not resolve to it. -/
theorem not_always_resolved :
    ¬∀ (creation : Creation) (world after later : World) (ref : LuaInteger) (key : Addr),
      creation.run world = (.ok (some ref), after) → creation.malloc = some key →
        later.Valid creation.kind key → check creation.kind ref later =
          (.ok key, later) := by
  intro claim
  have valid : ((ringbuffer (.plain 0x555555559010 0x5555555592a0)
      (World.withClient 0x555555559010)).2).Valid .ringbuffer 0x5555555592a0 :=
        ⟨_, rfl, rfl⟩
  have resolved := claim (.ringbuffer (.plain 0x555555559010 0x5555555592a0))
    (World.withClient 0x555555559010) _ _ _ _ rfl rfl valid
  have same := (check_eq_ok.mp resolved).2.1
  exact absurd same (by decide)

end LuaJack
