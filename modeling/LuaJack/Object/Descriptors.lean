import LuaJack.Object.Failure

/-!
# Descriptors of pipes

The ends of the pipe of a ringbuffer are opened by `syncpipe_new`, and should be open
as long as the ringbuffer is valid.  Nothing closes them when a client is closed, nor
when the creation of a ringbuffer fails between the opening of the pipe and the
allocation of the memory.
-/

namespace LuaJack

open Atomic

namespace Process

/-- The descriptor is an end of the pipe of a valid ringbuffer. -/
def HoldsEnd (process : Process) (key : Addr) (fd : Int) : Prop :=
  ∃ rud : Rud, process.world.search .ringbuffer key = some rud ∧ rud.valid = true ∧
    rud.pipefd.1 ≠ -1 ∧ (fd = rud.pipefd.1 ∨ fd = rud.pipefd.2)

/-- The descriptors that are open, apart from those that are not opened for ringbuffers,
are exactly the ends of the pipes of valid ringbuffers. -/
def Accounted (others : Finset Int) (process : Process) : Prop :=
  ∀ fd, fd ∈ process.descriptors ∧ fd ∉ others ↔ ∃ key, process.HoldsEnd key fd

/-- The ends of the pipes of valid ringbuffers are open, and no two of them share one. -/
structure Plumbed (others : Finset Int) (process : Process) : Prop where
  subset : others ⊆ process.descriptors
  isOpen : ∀ key fd, process.HoldsEnd key fd → fd ∈ process.descriptors ∧ fd ∉ others
  distinct : ∀ key other fd, process.HoldsEnd key fd →
    process.HoldsEnd other fd → key = other

theorem plumbed_initial (others : Finset Int) : (initial others).Plumbed others where
  subset := fun _ => id
  isOpen := fun _ _ held => by cases held.choose_spec.1
  distinct := fun _ _ _ held => by cases held.choose_spec.1

theorem accounted_initial (others : Finset Int) : (initial others).Accounted others := by
  intro fd
  constructor
  · intro both
    exact absurd both.1 both.2
  · intro held
    cases held with
    | intro key held => cases held.choose_spec.1

variable {others : Finset Int} {before after : Process}

/-- What is missing for the account is that each open descriptor is an end of a pipe. -/
theorem Plumbed.accounted_iff (plumbed : before.Plumbed others) :
    before.Accounted others ↔
    ∀ fd ∈ before.descriptors, fd ∉ others → ∃ key, before.HoldsEnd key fd := by
  constructor
  · intro accounted fd isOpen isOther
    exact (accounted fd).mp ⟨isOpen, isOther⟩
  · intro held fd
    constructor
    · exact fun both => held fd both.1 both.2
    · intro isHeld
      cases isHeld with
      | intro key isEnd => exact plumbed.isOpen key fd isEnd

/-! ## What a step does to the descriptors -/

/-- No descriptor is opened or closed, and no ringbuffer becomes valid. -/
structure Drops (before after : Process) : Prop where
  descriptors : after.descriptors = before.descriptors
  holdsEnd : ∀ key fd, after.HoldsEnd key fd → before.HoldsEnd key fd

/-- The descriptors and the ends that ringbuffers hold are the same. -/
structure Still (before after : Process) : Prop where
  descriptors : after.descriptors = before.descriptors
  holdsEnd : ∀ key fd, after.HoldsEnd key fd ↔ before.HoldsEnd key fd

/-- A pipe is opened, for a ringbuffer that then becomes valid if there is one. -/
structure Opens (pipefd : Int × Int) (created : Option Addr)
    (before after : Process) : Prop where
  descriptors : after.descriptors = (before.openPipe pipefd).descriptors
  holdsEnd : ∀ key fd, after.HoldsEnd key fd ↔
    before.HoldsEnd key fd ∨ created = some key ∧ (fd = pipefd.1 ∨ fd = pipefd.2)

/-- The descriptors that `pipe` returns are not open. -/
def Fresh (process : Process) (pipefd : Int × Int) : Prop :=
  pipefd.1 ∉ process.descriptors ∧ pipefd.2 ∉ process.descriptors

theorem Still.drops (still : Still before after) : Drops before after where
  descriptors := still.descriptors
  holdsEnd := fun key fd => (still.holdsEnd key fd).mp

theorem Drops.plumbed (drops : Drops before after) (plumbed : before.Plumbed others) :
    after.Plumbed others where
  subset := drops.descriptors ▸ plumbed.subset
  isOpen := by
    intro key fd held
    rw [drops.descriptors]
    exact plumbed.isOpen key fd (drops.holdsEnd key fd held)
  distinct := fun key other fd held alsoHeld =>
    plumbed.distinct key other fd (drops.holdsEnd key fd held)
      (drops.holdsEnd other fd alsoHeld)

/-- The account stays right exactly if no pipe loses its ringbuffer. -/
theorem Drops.accounted_iff (drops : Drops before after) (plumbed : before.Plumbed others)
    (accounted : before.Accounted others) : after.Accounted others ↔
      ∀ key fd, before.HoldsEnd key fd → after.HoldsEnd key fd := by
  rw [(drops.plumbed plumbed).accounted_iff, drops.descriptors]
  constructor
  · intro held key fd isEnd
    have isOpen := plumbed.isOpen key fd isEnd
    cases held fd isOpen.1 isOpen.2 with
    | intro other stillHeld =>
        have same := plumbed.distinct key other fd isEnd
            (drops.holdsEnd other fd stillHeld)
        rw [same]
        exact stillHeld
  · intro kept fd isOpen isOther
    cases (accounted fd).mp ⟨isOpen, isOther⟩ with
    | intro key isEnd => exact ⟨key, kept key fd isEnd⟩

/-- The account stays right, whatever condition is met besides. -/
theorem Still.keeps {condition : Prop} (still : Still before after)
    (plumbed : before.Plumbed others)
    (meets : condition) : after.Plumbed others ∧
      (before.Accounted others → (after.Accounted others ↔ condition)) := by
  refine ⟨still.drops.plumbed plumbed, fun accounted => ?_⟩
  rw [still.drops.accounted_iff plumbed accounted]
  exact iff_of_true (fun key fd => (still.holdsEnd key fd).mpr) meets

section Opens

variable {pipefd : Int × Int} {created : Option Addr}

theorem mem_openPipe {fd : Int} : fd ∈ (before.openPipe pipefd).descriptors ↔
    (fd = pipefd.1 ∨ fd = pipefd.2) ∨ fd ∈ before.descriptors := by
  rw [openPipe, Finset.mem_insert, Finset.mem_insert, or_assoc]

/-- Closing the ends of a pipe that has just been opened. -/
theorem closePipe_openPipe (fresh : before.Fresh pipefd) :
    ((before.openPipe pipefd).closePipe pipefd).descriptors = before.descriptors := by
  apply Finset.ext
  intro fd
  rw [closePipe, Finset.mem_erase, Finset.mem_erase, mem_openPipe]
  constructor
  · intro both
    cases both.2.2 with
    | inl isEnd =>
        cases isEnd with
        | inl isFirst => exact absurd isFirst both.2.1
        | inr isSecond => exact absurd isSecond both.1
    | inr wasOpen => exact wasOpen
  · intro wasOpen
    refine ⟨?_, ?_, .inr wasOpen⟩
    · intro isSecond
      rw [isSecond] at wasOpen
      exact fresh.2 wasOpen
    · intro isFirst
      rw [isFirst] at wasOpen
      exact fresh.1 wasOpen

theorem Fresh.not_mem (fresh : before.Fresh pipefd) {fd : Int}
    (isEnd : fd = pipefd.1 ∨ fd = pipefd.2) : fd ∉ before.descriptors := by
  cases isEnd with
  | inl isFirst =>
      rw [isFirst]
      exact fresh.1
  | inr isSecond =>
      rw [isSecond]
      exact fresh.2

theorem Opens.plumbed (opens : Opens pipefd created before after)
    (fresh : before.Fresh pipefd)
    (plumbed : before.Plumbed others) : after.Plumbed others where
  subset := by
    intro fd isOther
    rw [opens.descriptors, mem_openPipe]
    exact .inr (plumbed.subset isOther)
  isOpen := by
    intro key fd held
    rw [opens.descriptors, mem_openPipe]
    cases (opens.holdsEnd key fd).mp held with
    | inl wasHeld =>
        have isOpen := plumbed.isOpen key fd wasHeld
        exact ⟨.inr isOpen.1, isOpen.2⟩
    | inr isNew =>
        exact ⟨.inl isNew.2, fun isOther =>
          fresh.not_mem isNew.2 (plumbed.subset isOther)⟩
  distinct := by
    intro key other fd held alsoHeld
    cases (opens.holdsEnd key fd).mp held with
    | inl wasHeld =>
        cases (opens.holdsEnd other fd).mp alsoHeld with
        | inl alsoWas => exact plumbed.distinct key other fd wasHeld alsoWas
        | inr isNew =>
            exact absurd (plumbed.isOpen key fd wasHeld).1 (fresh.not_mem isNew.2)
    | inr isNew =>
        cases (opens.holdsEnd other fd).mp alsoHeld with
        | inl wasHeld =>
            exact absurd (plumbed.isOpen other fd wasHeld).1 (fresh.not_mem isNew.2)
        | inr alsoNew => exact Option.some.inj (isNew.1.symm.trans alsoNew.1)

/-- The account stays right exactly if the pipe is opened for a ringbuffer. -/
theorem Opens.accounted_iff (opens : Opens pipefd created before after)
    (fresh : before.Fresh pipefd) (plumbed : before.Plumbed others)
    (accounted : before.Accounted others) :
    after.Accounted others ↔ created.isSome = true := by
  rw [(opens.plumbed fresh plumbed).accounted_iff, opens.descriptors]
  constructor
  · intro held
    have isFresh : pipefd.1 ∉ before.descriptors := fresh.1
    cases held pipefd.1 (mem_openPipe.mpr (.inl (.inl rfl)))
        (fun isOther => isFresh (plumbed.subset isOther)) with
    | intro key isEnd =>
        cases (opens.holdsEnd key _).mp isEnd with
        | inl wasHeld => exact absurd (plumbed.isOpen key _ wasHeld).1 isFresh
        | inr isNew =>
            rw [isNew.1]
            rfl
  · intro isSome fd isOpen isOther
    cases mem_openPipe.mp isOpen with
    | inl isNew =>
        cases Option.isSome_iff_exists.mp isSome with
        | intro key isKey =>
            exact ⟨key, (opens.holdsEnd key fd).mpr (.inr ⟨isKey, isNew⟩)⟩
    | inr wasOpen =>
        cases (accounted fd).mp ⟨wasOpen, isOther⟩ with
        | intro key isEnd => exact ⟨key, (opens.holdsEnd key fd).mpr (.inl isEnd)⟩

end Opens

/-! ## The pipes of ringbuffers -/

/-- Only the entries of ringbuffers matter. -/
theorem holdsEnd_congr (same : ∀ key, after.world.search .ringbuffer key =
    before.world.search .ringbuffer key) (key : Addr) (fd : Int) :
    after.HoldsEnd key fd ↔ before.HoldsEnd key fd := by
  rw [HoldsEnd, same]
  rfl

/-- A new entry adds the ends of its pipe, if it is valid and has one. -/
theorem holdsEnd_of_created {key : Addr} {rud : Rud}
    (absent : before.world.search .ringbuffer key = none)
    (created : ∀ other, after.world.search .ringbuffer other =
      if other = key then some rud else before.world.search .ringbuffer other)
    (other : Addr) (fd : Int) : after.HoldsEnd other fd ↔ before.HoldsEnd other fd ∨
      other = key ∧ rud.valid = true ∧ rud.pipefd.1 ≠ -1 ∧
        (fd = rud.pipefd.1 ∨ fd = rud.pipefd.2) := by
  rw [HoldsEnd, created]
  by_cases isKey : other = key
  · have notBefore : ¬before.HoldsEnd other fd := by
      intro held
      cases held with
      | intro old both =>
          rw [isKey, absent] at both
          cases both.1
    simp [isKey ▸ notBefore, isKey]
  · simp [isKey, HoldsEnd]

end Process

/-- The creation of a ringbuffer comes to the point where it needs a pipe or an entry. -/
structure RingbufferCall.Reaches (call : RingbufferCall)
    (world : World) (size : LuaInteger) :
    Prop where
  mainThread : world.mainThread = true
  inactive : ¬world.activeClients > 0
  client : world.Valid .client call.ref
  size : call.size = .ok size

/-- The creation of a ringbuffer opens a pipe and fails before there is an entry. -/
def RingbufferCall.Leaks (call : RingbufferCall)
    (answers : PipeAnswers) (world : World) : Prop :=
  (∃ size, call.Reaches world size) ∧ call.usepipe.toBoolean = true ∧
    answers.pipe.isSome = true ∧
    (answers.setfl.1 + answers.setfl.2 < 0 ∨ call.malloc = none)

section Ringbuffer

open Process

variable {call : RingbufferCall} {answers : PipeAnswers}
  {process : Process} {size : LuaInteger}

theorem ringbuffer_of_reaches (reaches : call.Reaches process.world size) :
    Proc.ringbuffer call answers process =
      (do return some ((← Proc.rbufNew call.ref size call answers).signExtend 64) :
        Proc (Option LuaInteger)) process := by
  have allowed := And.intro reaches.mainThread reaches.inactive
  rw [Proc.ringbuffer, Proc.lift_checkcreate_bind_of_allowed allowed]
  simp only [if_true]
  rw [cudCheck, Proc.lift_check_bind_of_valid reaches.client, reaches.size]
  rfl

theorem ringbuffer_reaches_or (call : RingbufferCall)
    (answers : PipeAnswers) (process : Process) :
    (∃ size, call.Reaches process.world size) ∨
      (Proc.ringbuffer call answers process).2.descriptors = process.descriptors ∧
      ∀ key, (Proc.ringbuffer call answers process).2.world.search .ringbuffer key =
        process.world.search .ringbuffer key := by
  by_cases allowed : process.world.mainThread = true ∧ ¬process.world.activeClients > 0
  · by_cases valid : process.world.Valid .client call.ref
    · cases isSize : call.size with
      | ok size => exact .inl ⟨size, allowed.1, allowed.2, valid, isSize⟩
      | error message =>
          rw [Proc.ringbuffer, Proc.lift_checkcreate_bind_of_allowed allowed]
          simp only [if_true]
          rw [cudCheck, Proc.lift_check_bind_of_valid valid, isSize]
          exact .inr ⟨rfl, fun _ => rfl⟩
    · rw [Proc.ringbuffer, Proc.lift_checkcreate_bind_of_allowed allowed]
      simp only [if_true]
      rw [cudCheck, Proc.lift_check_bind_of_not_valid valid]
      exact .inr ⟨rfl, fun _ => rfl⟩
  · right
    rw [Proc.ringbuffer]
    cases Proc.lift_checkcreate_bind_of_not_allowed allowed _ with
    | intro world refused =>
        rw [refused.1]
        constructor
        · rfl
        · intro key
          have same : world.search .ringbuffer key =
              process.world.search .ringbuffer key := by
            rw [World.search, refused.2]
            rfl
          exact same

section Prepared

variable {pipefd : Int × Int} {opened : Process} (cud : Addr)
variable (prepared : Proc.rbufPipe call answers process = (.ok pipefd, opened))
include prepared

/-- `rbuf_new` without an entry: the pipe stays open. -/
theorem rbufNew_of_malloc_none (isMalloc : call.malloc = none) :
    Proc.rbufNew cud size call answers process =
      (.error "cannot create userdata", opened) := by
  have failed : Proc.lift (new .ringbuffer call.malloc Rud.new) opened =
      (.ok none, opened) := by
    rw [isMalloc]
    rfl
  rw [Proc.rbufNew, Fallible.bind_of_ok prepared, Fallible.bind_of_ok failed]
  rfl

/-- The entry that `rbuf_new` leaves, and the descriptors. -/
theorem rbufNew_of_malloc {key : Addr} (isMalloc : call.malloc = some key)
    (absent : opened.world.search .ringbuffer key = none) :
    ∃ rbuf, (∀ other,
      (Proc.rbufNew cud size call answers process).2.world.search .ringbuffer other =
        if other = key then some { valid := rbuf.isSome, cud, rbuf, pipefd }
        else opened.world.search .ringbuffer other) ∧
      (Proc.rbufNew cud size call answers process).2.descriptors =
        if rbuf = none ∧ call.usepipe.toBoolean =
          true then (opened.closePipe pipefd).descriptors
        else opened.descriptors := by
  have created : Proc.lift (new .ringbuffer call.malloc Rud.new) opened =
      (.ok (some key), _) :=
    Proc.lift_of_ok (new_eq_some.mpr ⟨isMalloc, absent, rfl⟩)
  have found (rbuf : Option Handle) := World.search_created absent Rud.new
    fun rud => { rud with cud, pipefd, rbuf }
  refine ⟨call.ringbufferNew size call.mlock.toBoolean, ?_⟩
  rw [Proc.rbufNew, Fallible.bind_of_ok prepared, Fallible.bind_of_ok created]
  cases isRbuf : call.ringbufferNew size call.mlock.toBoolean with
  | some rbuf => exact ⟨found (some rbuf), rfl⟩
  | none =>
      by_cases usepipe : call.usepipe.toBoolean = true
      · simp only [usepipe, if_true, and_self]
        exact ⟨World.search_cancelled (found none), rfl⟩
      · simp only [usepipe]
        exact ⟨World.search_cancelled (found none), rfl⟩

end Prepared

/-- The pipe has been prepared, if one is wanted and can be had. -/
theorem rbufPipe_cases (call : RingbufferCall)
    (answers : PipeAnswers) (process : Process) :
    (call.usepipe.toBoolean = false ∧
      Proc.rbufPipe call answers process = (.ok (-1, -1), process)) ∨
    call.usepipe.toBoolean = true ∧
      ((answers.pipe = none ∧
        Proc.rbufPipe call answers process = (.error "cannot create pipe", process)) ∨
      ∃ pipefd, answers.pipe = some pipefd ∧ Proc.rbufPipe call answers process =
        (if answers.setfl.1 + answers.setfl.2 < 0 then .error "cannot create pipe"
          else .ok pipefd, process.openPipe pipefd)) := by
  unfold Proc.rbufPipe Proc.syncpipeNew
  cases call.usepipe.toBoolean with
  | false => exact .inl ⟨rfl, rfl⟩
  | true =>
      cases answers.pipe with
      | none => exact .inr ⟨rfl, .inl ⟨rfl, rfl⟩⟩
      | some pipefd =>
          refine .inr ⟨rfl, .inr ⟨pipefd, rfl, ?_⟩⟩
          by_cases failed : answers.setfl.1 + answers.setfl.2 < 0
          · simp only [failed, if_true]
            rfl
          · simp only [failed, if_false]
            rfl

/-- A new ringbuffer without a pipe is no end of one. -/
theorem rbufNew_still (cud : Addr) (noPipe : call.usepipe.toBoolean = false)
    (prepared : Proc.rbufPipe call answers process = (.ok (-1, -1), process))
    (absent : ∀ key, call.malloc = some key →
      process.world.search .ringbuffer key = none) :
    Still process (Proc.rbufNew cud size call answers process).2 := by
  cases isMalloc : call.malloc with
  | none =>
      rw [rbufNew_of_malloc_none cud prepared isMalloc]
      exact ⟨rfl, fun _ _ => Iff.rfl⟩
  | some key =>
      rcases rbufNew_of_malloc cud prepared isMalloc (absent key isMalloc) with
        ⟨rbuf, found, descriptors⟩
      rw [noPipe, if_neg (by simp)] at descriptors
      refine ⟨descriptors, ?_⟩
      intro other fd
      rw [holdsEnd_of_created (absent key isMalloc) found]
      simp

/-- A pipe is opened, and lost. -/
theorem opens_openPipe (process : Process) (pipefd : Int × Int) :
    Opens pipefd none process (process.openPipe pipefd) where
  descriptors := rfl
  holdsEnd := fun key fd => by simp [HoldsEnd, openPipe]

/-- A pipe that has been prepared belongs to the new ringbuffer, or is closed again. -/
theorem rbufNew_piped {pipefd : Int × Int} {key : Addr} (cud : Addr)
    (usepipe : call.usepipe.toBoolean = true)
    (prepared : Proc.rbufPipe call answers process =
      (.ok pipefd, process.openPipe pipefd))
    (fresh : process.Fresh pipefd) (nonneg : 0 ≤ pipefd.1)
    (isMalloc : call.malloc = some key)
    (absent : process.world.search .ringbuffer key = none) :
    Still process (Proc.rbufNew cud size call answers process).2 ∨
      Opens pipefd (some key) process (Proc.rbufNew cud size call answers process).2 := by
  rcases rbufNew_of_malloc cud prepared isMalloc absent with ⟨rbuf, found, descriptors⟩
  have held (other : Addr) (fd : Int) :=
    @holdsEnd_of_created process _ key _ absent found other fd
  cases rbuf with
  | none =>
      rw [usepipe, if_pos ⟨rfl, rfl⟩, closePipe_openPipe fresh] at descriptors
      refine .inl ⟨descriptors, ?_⟩
      intro other fd
      rw [held]
      simp
  | some rbuf =>
      rw [if_neg (by simp)] at descriptors
      refine .inr ⟨descriptors, ?_⟩
      intro other fd
      have hasPipe : pipefd.1 ≠ -1 := by omega
      rw [held]
      simp [hasPipe, @eq_comm _ other]

/-- What the creation of a ringbuffer does to the descriptors, once and for all. -/
theorem ringbuffer_step (call : RingbufferCall)
    (answers : PipeAnswers) (process : Process)
    (absent : ∀ key, call.malloc = some key → process.world.search .ringbuffer key = none)
    (fresh : ∀ pipefd, answers.pipe = some pipefd → process.Fresh pipefd ∧ 0 ≤ pipefd.1) :
    (¬call.Leaks answers process.world ∧
      Still process (Proc.ringbuffer call answers process).2) ∨
    ∃ pipefd created, answers.pipe = some pipefd ∧
      Opens pipefd created process (Proc.ringbuffer call answers process).2 ∧
      (created.isSome = true ↔ ¬call.Leaks answers process.world) := by
  by_cases reached : ∃ size, call.Reaches process.world size
  · rcases reached with ⟨size, reaches⟩
    rw [ringbuffer_of_reaches reaches, Fallible.bind_pure_state]
    rcases rbufPipe_cases call answers process with
      ⟨noPipe, prepared⟩ | ⟨usepipe, ⟨noPipe, failed⟩ | ⟨pipefd, isPipe, prepared⟩⟩
    · have notLeaks : ¬call.Leaks answers process.world := by
        rintro ⟨_, usepipe, _⟩
        cases noPipe.symm.trans usepipe
      exact .inl ⟨notLeaks, rbufNew_still call.ref noPipe prepared absent⟩
    · have notLeaks : ¬call.Leaks answers process.world := by
        rintro ⟨_, _, isSome, _⟩
        rw [noPipe] at isSome
        cases isSome
      rw [Proc.rbufNew, Fallible.bind_of_error failed]
      exact .inl ⟨notLeaks, rfl, fun _ _ => Iff.rfl⟩
    · -- the pipe is lost if there is a reason
      have leaks_iff : call.Leaks answers process.world ↔
          answers.setfl.1 + answers.setfl.2 < 0 ∨ call.malloc = none := by
        rw [RingbufferCall.Leaks, isPipe]
        exact ⟨fun leaks => leaks.2.2.2, fun reason =>
          ⟨⟨size, reaches⟩, usepipe, rfl, reason⟩⟩
      by_cases setflFailed : answers.setfl.1 + answers.setfl.2 < 0
      · rw [if_pos setflFailed] at prepared
        rw [Proc.rbufNew, Fallible.bind_of_error prepared]
        refine .inr ⟨pipefd, none, isPipe, opens_openPipe process pipefd, ?_⟩
        simp [leaks_iff, setflFailed]
      · rw [if_neg setflFailed] at prepared
        cases isMalloc : call.malloc with
        | none =>
            rw [rbufNew_of_malloc_none _ prepared isMalloc]
            refine .inr ⟨pipefd, none, isPipe, opens_openPipe process pipefd, ?_⟩
            simp [leaks_iff, isMalloc]
        | some key =>
            have notLeaks : ¬call.Leaks answers process.world := by
              simp [leaks_iff, setflFailed, isMalloc]
            have isFresh := fresh pipefd isPipe
            cases rbufNew_piped call.ref usepipe prepared isFresh.1 isFresh.2 isMalloc
              (absent key isMalloc) with
            | inl still => exact .inl ⟨notLeaks, still⟩
            | inr opens =>
                exact .inr ⟨pipefd, some key, isPipe, opens, by simp [notLeaks]⟩
  · have notLeaks : ¬call.Leaks answers process.world := fun leaks => reached leaks.1
    have unreached := (ringbuffer_reaches_or call answers process).resolve_left reached
    exact .inl ⟨notLeaks, unreached.1, holdsEnd_congr unreached.2⟩

end Ringbuffer

/-! ## The life of a process -/

namespace Happening

/-- The happening neither creates a pipe that gets no ringbuffer, nor closes a ringbuffer
that has a pipe. -/
def Plumbs (happening : Happening) (process : Process) : Prop :=
  match happening.operation with
  | .create (.ringbuffer call) => ¬call.Leaks happening.pipe process.world
  | .clientClose ref _ => process.world.Valid .client ref →
      ∀ key rud, process.world.search .ringbuffer key = some rud →
        ObjectKind.ringbuffer.ownedBy ref rud = true → rud.pipefd.1 = -1
  | _ => True

end Happening

open Process

variable {others : Finset Int} {before after : Process}

/-- The ends of pipes that are held after a client has been closed. -/
theorem holdsEnd_clientClose {ref : LuaInteger} {process : Process} (rc : Int)
    (valid : process.world.Valid .client ref) (key : Addr) (fd : Int) :
    (Proc.clientCloseRef ref rc process).2.HoldsEnd key fd ↔
      ∃ rud : Rud, process.world.search .ringbuffer key = some rud ∧
        ObjectKind.ringbuffer.ownedBy ref rud = false ∧
          rud.valid = true ∧ rud.pipefd.1 ≠ -1 ∧
        (fd = rud.pipefd.1 ∨ fd = rud.pipefd.2) := by
  have swept : (Proc.clientCloseRef ref rc process).2.world.search .ringbuffer key =
      (process.world.search .ringbuffer key).map fun rud =>
        if ObjectKind.ringbuffer.ownedBy ref rud then
          ObjectKind.ringbuffer.cancelValid rud
        else
          rud := by
    rw [(Proc.clientCloseRef_projects ref rc process).2, clientCloseRef, cudCheck,
      check_bind_of_valid valid]
    cases clientClose_freed ref rc true process.world with
    | intro closed both =>
        rw [both.1]
        exact both.2.objects .ringbuffer (by simp) key
  rw [HoldsEnd, swept]
  cases process.world.search .ringbuffer key with
  | none => simp
  | some rud =>
      cases isOwned : ObjectKind.ringbuffer.ownedBy ref rud with
      | false => simp [isOwned]
      | true => simp [isOwned, ObjectKind.cancelValid]

/-- Closing a client closes its ringbuffers, but no descriptors. -/
theorem clientClose_drops (ref : LuaInteger) (rc : Int) (process : Process) :
    Drops process (Proc.clientCloseRef ref rc process).2 ∧
      ((∀ key fd, process.HoldsEnd key fd →
          (Proc.clientCloseRef ref rc process).2.HoldsEnd key fd) ↔
        (process.world.Valid .client ref →
          ∀ key rud, process.world.search .ringbuffer key = some rud →
            ObjectKind.ringbuffer.ownedBy ref rud = true → rud.pipefd.1 = -1)) := by
  have keeps : Proc.Keeps Process.descriptors (Proc.clientCloseRef ref rc) :=
    Proc.clientCloseRef_keeps (fun _ _ => rfl) (fun _ _ => rfl) ref rc
  by_cases valid : process.world.Valid .client ref
  · have holdsEnd := holdsEnd_clientClose rc valid
    refine ⟨⟨keeps process, ?_⟩, ?_⟩
    · intro key fd held
      rcases (holdsEnd key fd).mp held with ⟨rud, found, _, isEnd⟩
      exact ⟨rud, found, isEnd⟩
    · constructor
      · intro kept _ key rud found isOwned
        by_cases noPipe : rud.pipefd.1 = -1
        · exact noPipe
        · have isValid : rud.valid = true := (Bool.and_eq_true_iff.mp isOwned).1
          rcases (holdsEnd key _).mp
            (kept key _ ⟨rud, found, isValid, noPipe, .inl rfl⟩) with
            ⟨other, alsoFound, notOwned, _⟩
          rw [found, Option.some.injEq] at alsoFound
          rw [← alsoFound, isOwned] at notOwned
          cases notOwned
      · intro noPipes key fd held
        rcases held with ⟨rud, found, isValid, hasPipe, isEnd⟩
        apply (holdsEnd key fd).mpr
        cases isOwned : ObjectKind.ringbuffer.ownedBy ref rud with
        | false => exact ⟨rud, found, isOwned, isValid, hasPipe, isEnd⟩
        | true => exact absurd (noPipes valid key rud found isOwned) hasPipe
  · have same (key : Addr) : (Proc.clientCloseRef ref rc process).2.world.search
        .ringbuffer key =
        process.world.search .ringbuffer key := by
      rw [(Proc.clientCloseRef_projects ref rc process).2, clientCloseRef, cudCheck,
        check_bind_of_not_valid valid]
    have still : Still process (Proc.clientCloseRef ref rc process).2 :=
      ⟨keeps process, holdsEnd_congr same⟩
    refine ⟨still.drops, ?_⟩
    exact iff_of_true (fun key fd => (still.holdsEnd key fd).mpr) fun isValid =>
      absurd isValid valid

/-- What is done to the descriptors by everything else. -/
theorem keeps_descriptors (happening : Happening) (process : Process)
    (untouched : ¬happening.resolved.touches .ringbuffer) :
    (happening.perform process).descriptors = process.descriptors := by
  rcases happening with ⟨operation, pipe⟩
  cases operation with
  | create creation =>
      cases creation with
      | ringbuffer call => exact absurd rfl untouched
      | clientOpen call =>
          have keeps : Proc.Keeps Process.descriptors (Proc.clientOpen call) :=
            Proc.clientOpen_keeps (fun _ _ => rfl) (fun _ _ => rfl) (fun _ _ => rfl) call
          exact keeps process
      | threadCreate call => rfl
      | _ =>
          have keeps (flags : BitVec 64) (call : PortRegister) :
              Proc.Keeps Process.descriptors (Proc.portRegister flags call) :=
            Proc.portRegister_keeps (fun _ _ => rfl) (fun _ _ => rfl)
              (fun _ _ => rfl) flags call
          exact keeps _ _ process
  | clientClose ref rc => exact absurd trivial untouched
  | portUnregister ref =>
      have keeps : Proc.Keeps Process.descriptors (Proc.portUnregister ref) :=
        Proc.portUnregister_keeps (fun _ _ => rfl) (fun _ _ => rfl) ref
      exact keeps process
  | _ => rfl

/-- One happening: the pipes stay plumbed, and the account stays right exactly if the
happening does. -/
theorem accounted_step {happening : Happening} (plumbed : before.Plumbed others)
    (performed : life happening before = some after) :
    after.Plumbed others ∧
      (before.Accounted others → (after.Accounted others ↔ happening.Plumbs before)) := by
  rcases life_eq_some.mp performed with ⟨permitted, rfl⟩
  have quiet (untouched : ¬happening.resolved.touches .ringbuffer)
      (plumbs : happening.Plumbs before) : (happening.perform before).Plumbed others ∧
        (before.Accounted others →
          ((happening.perform before).Accounted others ↔ happening.Plumbs before)) := by
    have same (key : Addr) : (happening.perform before).world.search .ringbuffer key =
        before.world.search .ringbuffer key := by
      rw [happening.perform_world, World.search, table_perform_of_not_touches untouched]
      rfl
    have still : Still before (happening.perform before) :=
      ⟨keeps_descriptors happening before untouched, holdsEnd_congr same⟩
    exact still.keeps plumbed plumbs
  rcases happening with ⟨operation, pipe⟩
  cases operation with
  | create creation =>
      cases creation with
      | ringbuffer call =>
          have both := Bool.and_eq_true_iff.mp permitted
          have absent (key : Addr) (isMalloc : call.malloc = some key) :
              before.world.search .ringbuffer key = none := by
            have allocated : (Operation.create
                (.ringbuffer (call.resolve pipe))).allocated =
                some (.ringbuffer, key) :=
              congrArg (Option.map fun key => (ObjectKind.ringbuffer, key)) isMalloc
            exact (absent_of_permitted both.1 allocated).2 .ringbuffer
          have fresh (pipefd : Int × Int) (isPipe : pipe.pipe = some pipefd) :
              before.Fresh pipefd ∧ 0 ≤ pipefd.1 := by
            have answers := both.2
            simp only [isPipe, Option.all_some, Bool.and_eq_true,
              decide_eq_true_eq] at answers
            exact ⟨⟨answers.1.2, answers.2⟩, answers.1.1.1.1⟩
          cases ringbuffer_step call pipe before absent fresh with
          | inl unchanged => exact unchanged.2.keeps plumbed unchanged.1
          | inr opened =>
              rcases opened with ⟨pipefd, created, isPipe, opens, isCreated⟩
              have isFresh := (fresh pipefd isPipe).1
              refine ⟨opens.plumbed isFresh plumbed, fun accounted => ?_⟩
              exact (opens.accounted_iff isFresh plumbed accounted).trans isCreated
      | clientOpen call => exact quiet (fun touched => by cases touched) trivial
      | threadCreate call => exact quiet (fun touched => by cases touched) trivial
      | _ => exact quiet (fun touched => by cases touched) trivial
  | clientClose ref rc =>
      have closes := clientClose_drops ref rc before
      refine ⟨closes.1.plumbed plumbed, fun accounted => ?_⟩
      exact (closes.1.accounted_iff plumbed accounted).trans closes.2
  | _ => exact quiet (fun touched => by cases touched) trivial

/-- In the life of a process, the descriptors that are open for ringbuffers are always
exactly the ends of the pipes of valid ringbuffers, if and only if no pipe is opened that
gets no ringbuffer and no client is closed while it has a ringbuffer with a pipe. -/
theorem descriptors_accounted_iff (others : Finset Int)
    (happenings : List Happening) (final : Process)
    (run : life.run happenings (.initial others) = some final) :
    (∀ first second middle, happenings = first ++ second →
      life.run first (.initial others) = some middle → middle.Accounted others) ↔
      life.Along Happening.Plumbs happenings (.initial others) := by
  apply Machine.all_reached_iff_along _ _ (plumbed_initial others)
    (accounted_initial others) run
  · exact fun _ _ _ plumbed performed => (accounted_step plumbed performed).1
  · exact fun _ _ _ plumbed accounted performed =>
      (accounted_step plumbed performed).2 accounted

/-- As long as its client is not closed, the pipe of a ringbuffer is accounted for. -/
theorem descriptors_accounted_iff_ringbuffer :
    ∃ final, life.run [.clientOpen 0x601010, .ringbuffer 0x601010 0x602010 (3, 4)]
      (.initial {0, 1, 2}) = some final ∧ final.Accounted {0, 1, 2} := by
  have equivalence := descriptors_accounted_iff {0, 1, 2}
    [.clientOpen 0x601010, .ringbuffer 0x601010 0x602010 (3, 4)] _ rfl
  refine ⟨_, rfl, equivalence.mpr ?_ _ [] _ (List.append_nil _).symm rfl⟩
  refine ⟨trivial, fun next performed => ⟨?_, fun _ _ => trivial⟩⟩
  intro leaks
  cases leaks.2.2.2 with
  | inl failed => exact absurd failed (by decide)
  | inr isNone => cases isNone

/-- The pipe of a ringbuffer stays open when its client is closed. -/
theorem descriptors_not_always_accounted :
    ¬∀ others happenings final, life.run happenings (.initial others) = some final →
      final.Accounted others := by
  intro claim
  have accounted := claim {0, 1, 2} [.clientOpen 0x601010,
    .ringbuffer 0x601010 0x602010 (3, 4), .clientClose 0x601010] _ rfl
  rcases (accounted 3).mp ⟨by decide, by decide⟩ with ⟨key, rud, found, isValid, _⟩
  have member := List.mem_singleton.mp (Table.find?_eq_some.mp found)
  cases member
  cases isValid

end LuaJack
