import DriverHost.Proofs.Crew
import DriverHost.Proofs.LockTurns

/-!
# A writer excludes everybody

The word of a read-write lock carries a count of readers and the flag of a writer, and every
task tests it and changes it in one turn.  When tasks that take sides and give back their own
switch in any order, the word says at every switch exactly which sides they have.

Main results:

- Structure `ReadWriteLock.Tally`: the invariant, with the place of each waiting task.
- Theorem `ReadWriteLock.Tally.leave`: every change of the lock by a turn keeps it.
- Theorem `ReadWriteLock.writer_excludes_everybody`: what it says of a lock that was free.
-/

namespace DriverHost

namespace ReadWriteLock

variable {ε : Type}

/-! ## Calls -/

/-- The sides of a lock that a task has. -/
structure Sides where
  reads : Nat := 0
  writes : Nat := 0

/-- The calls of a task that has some sides: it takes another one, or gives one of its own
back. -/
inductive Call (own : Sides) : Coroutine ε ReadWriteLock Sides → Prop
  | takesRead : Call own (readLock.bind fun _ => .done { own with reads := own.reads + 1 })
  | dropsRead (hown : 0 < own.reads) :
      Call own (readUnlock.bind fun _ => .done { own with reads := own.reads - 1 })
  | takesWrite : Call own (writeLock.bind fun _ => .done { own with writes := own.writes + 1 })
  | dropsWrite (hown : 0 < own.writes) :
      Call own (writeUnlock.bind fun _ => .done { own with writes := own.writes - 1 })

/-- A task that waits for a read side, with the sides it has. -/
def waitingRead (own : Sides) : Coroutine ε ReadWriteLock Sides :=
  waitRead.bind fun _ => .done { own with reads := own.reads + 1 }

/-- A task that waits for the write side, with the sides it has. -/
def waitingWrite (own : Sides) : Coroutine ε ReadWriteLock Sides :=
  waitWrite.bind fun _ => .done { own with writes := own.writes + 1 }

/-- The code is a wait for a side. -/
def Waits (own : Sides) (code : Coroutine ε ReadWriteLock Sides) : Prop :=
  code = waitingRead own ∨ code = waitingWrite own

/-- What a turn that ends a call does to the lock and to the sides of its task. -/
inductive Change (lock : ReadWriteLock) (own : Sides) : ReadWriteLock → Sides → Prop
  | readTaken (hfree : lock.isWriteLocked = false) :
      Change lock own { word := lock.word + 1 } { own with reads := own.reads + 1 }
  | readGiven (hown : 0 < own.reads) :
      Change lock own { word := lock.word - 1 } { own with reads := own.reads - 1 }
  | writeTaken (hfree : lock.word = 0) :
      Change lock own { word := writerBit } { own with writes := own.writes + 1 }
  | writeGiven (hown : 0 < own.writes) :
      Change lock own lock.dropWrite { own with writes := own.writes - 1 }

section Turns

variable (host : Host ε ReadWriteLock) {machine : Machine ε ReadWriteLock} {own : Sides}
  {code : Coroutine ε ReadWriteLock Sides}

/-- A turn of a wait takes the side, or leaves the lock alone and goes on waiting. -/
theorem turn_waits (hwaits : Waits own code) :
    (∃ lock next, Change machine.shared own lock next ∧
      code.turn host machine = .returned next (machine.withShared lock)) ∨
    code.turn host machine = .yielded code machine := by
  rcases hwaits with rfl | rfl
  · cases htry : machine.shared.tryRead with
    | none =>
      right
      rw [waitingRead, Coroutine.turn_bind, turn_waitRead, htry]
      rfl
    | some lock =>
      left
      obtain ⟨hfree, rfl⟩ := tryRead_eq_some_iff.1 htry
      refine ⟨_, _, .readTaken hfree, ?_⟩
      rw [waitingRead, Coroutine.turn_bind, turn_waitRead, htry]
      rfl
  · cases htry : machine.shared.tryWrite with
    | none =>
      right
      rw [waitingWrite, Coroutine.turn_bind, turn_waitWrite, htry]
      rfl
    | some lock =>
      left
      obtain ⟨hfree, rfl⟩ := tryWrite_eq_some_iff.1 htry
      refine ⟨_, _, .writeTaken hfree, ?_⟩
      rw [waitingWrite, Coroutine.turn_bind, turn_waitWrite, htry]
      rfl

/-- A turn of a new call changes the lock, or leaves it alone and its task waiting.  A read side
that is given back has to be counted. -/
theorem turn_call (hmay : machine.scheduler.mayLock = true)
    (hcounted : 0 < own.reads → machine.shared.readers ≠ 0) (hcall : Call own code) :
    (∃ lock next, Change machine.shared own lock next ∧
      code.turn host machine = .returned next (machine.withShared lock)) ∨
    ∃ rest, Waits own rest ∧ code.turn host machine = .yielded rest machine := by
  cases hcall with
  | takesRead =>
    rw [Coroutine.turn_bind, turn_readLock hmay, ← Coroutine.turn_bind]
    exact (turn_waits host (Or.inl rfl)).imp_right fun hturn => ⟨_, Or.inl rfl, hturn⟩
  | takesWrite =>
    rw [Coroutine.turn_bind, turn_writeLock hmay, ← Coroutine.turn_bind]
    exact (turn_waits host (Or.inr rfl)).imp_right fun hturn => ⟨_, Or.inr rfl, hturn⟩
  | dropsRead hown =>
    refine Or.inl ⟨_, _, .readGiven hown, ?_⟩
    rw [Coroutine.turn_bind, turn_readUnlock hmay (hcounted hown)]
    rfl
  | dropsWrite hown =>
    refine Or.inl ⟨_, _, .writeGiven hown, ?_⟩
    rw [Coroutine.turn_bind, turn_writeUnlock hmay]
    rfl

end Turns

/-! ## The invariant -/

/-- Read sides that the tasks have together. -/
noncomputable def readHolds (crew : Crew ε ReadWriteLock Sides) : Nat :=
  crew.total Sides.reads

/-- At a switch the word is the number of read sides while nobody has the write side, and the
writer's bit alone while one task has it; every call in progress is a wait. -/
structure Tally (crew : Crew ε ReadWriteLock Sides) : Prop where
  fewReads : crew.FewCount Sides.reads
  fewWrites : crew.FewCount Sides.writes
  word : (crew.total Sides.writes = 0 ∧ crew.shared.word.toNat = readHolds crew) ∨
    (crew.total Sides.writes = 1 ∧ readHolds crew = 0 ∧ crew.shared.word = writerBit)
  waits : ∀ task own rest, crew.activity task = .calling own rest → Waits own rest

namespace Tally

variable {host : Host ε ReadWriteLock} {crew next : Crew ε ReadWriteLock Sides} {task : TaskId}

/-- A task that has a read side is counted. -/
theorem readers_ne_zero (htally : Tally crew) (hbelow : readHolds crew < 2 ^ 31)
    (hown : 0 < (crew.own task).reads) : crew.shared.readers ≠ 0 := by
  have hle : (crew.own task).reads ≤ readHolds crew := Crew.le_total htally.fewReads task
  rw [ne_eq, ← UInt32.toNat_inj, toNat_readers, UInt32.toNat_zero]
  rcases htally.word with ⟨-, hword⟩ | ⟨-, hnone, -⟩
  · rw [hword, Nat.mod_eq_of_lt hbelow]
    omega
  · omega

/-- A change of the lock keeps the tally, one case for each way to take or give a side. -/
theorem leave (htally : Tally crew) (hbelow : readHolds crew < 2 ^ 31) {lock : ReadWriteLock}
    {own : Sides} (hchange : Change crew.shared (crew.own task) lock own) :
    Tally (crew.leave task lock (.idle own)) := by
  have hreads := Crew.total_leave htally.fewReads task lock (.idle own)
  have hwrites := Crew.total_leave htally.fewWrites task lock (.idle own)
  have hreadsOwn : (crew.own task).reads ≤ crew.total Sides.reads :=
    Crew.le_total htally.fewReads task
  have hwritesOwn : (crew.own task).writes ≤ crew.total Sides.writes :=
    Crew.le_total htally.fewWrites task
  refine ⟨htally.fewReads.leave _ _ _, htally.fewWrites.leave _ _ _, ?_,
    Crew.calling_leave htally.waits _ Activity.calling_of_idle⟩
  simp only [readHolds, Activity.own, Crew.leave_shared] at *
  cases hchange with
  | readTaken hfree =>
    rw [← Bool.not_eq_true, isWriteLocked_iff] at hfree
    rcases htally.word with ⟨hnone, hword⟩ | ⟨-, -, hword⟩
    · refine Or.inl ⟨by simp only at hwrites; omega, ?_⟩
      rw [UInt32.toNat_add, UInt32.toNat_one]
      simp only [readHolds] at hreads hword
      omega
    · rw [hword, toNat_writerBit] at hfree
      omega
  | readGiven hown =>
    rcases htally.word with ⟨hnone, hword⟩ | ⟨-, hnone, -⟩
    · refine Or.inl ⟨by simp only at hwrites; omega, ?_⟩
      simp only [readHolds] at hreads hword
      rw [UInt32.toNat_sub_of_le _ _ (by rw [UInt32.le_iff_toNat_le, UInt32.toNat_one]; omega),
        UInt32.toNat_one]
      omega
    · rw [readHolds] at hnone
      omega
  | writeTaken hfree =>
    rcases htally.word with ⟨hnone, hword⟩ | ⟨-, -, hword⟩
    · rw [hfree, UInt32.toNat_zero, readHolds] at hword
      refine Or.inr ⟨?_, ?_, rfl⟩
      · simp only at hwrites
        omega
      · simp only at hreads
        omega
    · rw [hfree] at hword
      cases hword
  | writeGiven hown =>
    rcases htally.word with ⟨hnone, -⟩ | ⟨hone, hnone, hword⟩
    · omega
    · rw [readHolds] at hnone
      refine Or.inl ⟨by simp only at hwrites; omega, ?_⟩
      rw [word_dropWrite, toNat_readers, hword, toNat_writerBit]
      simp only at hreads
      omega

/-- A task that waits keeps the tally. -/
theorem leave_waiting (htally : Tally crew) {rest : Coroutine ε ReadWriteLock Sides}
    (hwaits : Waits (crew.own task) rest) :
    Tally (crew.leave task crew.shared (.calling (crew.own task) rest)) := by
  have hreads := Crew.total_leave htally.fewReads task crew.shared (.calling (crew.own task) rest)
  have hwrites :=
    Crew.total_leave htally.fewWrites task crew.shared (.calling (crew.own task) rest)
  have hsame : readHolds (crew.leave task crew.shared (.calling (crew.own task) rest)) =
      readHolds crew := Nat.add_right_cancel hreads
  refine ⟨htally.fewReads.leave _ _ _, htally.fewWrites.leave _ _ _, ?_,
    Crew.calling_leave htally.waits _ ?_⟩
  · rw [Nat.add_right_cancel hwrites, hsame]
    exact htally.word
  · rintro own rest hcalling
    cases hcalling
    exact hwaits

/-- A turn changes the lock in one of the four ways or leaves it alone; it meets no fault. -/
theorem turn_cases (host : Host ε ReadWriteLock) (htally : Tally crew)
    (hbelow : readHolds crew < 2 ^ 31) {code : Coroutine ε ReadWriteLock Sides}
    {machine : Machine ε ReadWriteLock} (hoffers : (crew.activity task).Offers Call code)
    (hshared : machine.shared = crew.shared) (hmay : machine.scheduler.mayLock = true) :
    (∃ lock own, Change crew.shared (crew.own task) lock own ∧
      code.turn host machine = .returned own (machine.withShared lock)) ∨
    ∃ rest, Waits (crew.own task) rest ∧ code.turn host machine = .yielded rest machine := by
  have hcounted : 0 < (crew.own task).reads → machine.shared.readers ≠ 0 := by
    rw [hshared]
    exact htally.readers_ne_zero hbelow
  rw [← hshared]
  cases hactivity : crew.activity task with
  | calling own rest =>
    have hown : crew.own task = own := by rw [Crew.own, hactivity, Activity.own]
    have hwaits := htally.waits task own rest hactivity
    rw [hactivity] at hoffers
    cases hoffers
    rw [hown]
    exact (turn_waits host hwaits).imp_right fun hturn => ⟨_, hwaits, hturn⟩
  | idle own =>
    have hown : crew.own task = own := by rw [Crew.own, hactivity, Activity.own]
    rw [hown] at hcounted ⊢
    rw [hactivity] at hoffers
    cases hoffers with
    | begins hcall => exact turn_call host hmay hcounted hcall

/-- With fewer readers than the word can count, no turn meets a fault. -/
theorem not_mayFail (htally : Tally crew) (hbelow : readHolds crew < 2 ^ 31) :
    ¬ crew.MayFail host Call := by
  rintro ⟨task, code, machine, cause, last, hoffers, hshared, hmay, hturn⟩
  rcases htally.turn_cases host hbelow hoffers hshared hmay with
    ⟨lock, own, -, hreturns⟩ | ⟨rest, -, hyields⟩
  · rw [hreturns] at hturn
    cases hturn
  · rw [hyields] at hturn
    cases hturn

/-- Every turn keeps the tally. -/
theorem step (htally : Tally crew) (hbelow : readHolds crew < 2 ^ 31)
    (hstep : Crew.Step host Call crew next) : Tally next := by
  cases hstep with
  | returned hoffers hshared hmay hturn =>
    rcases htally.turn_cases host hbelow hoffers hshared hmay with
      ⟨lock, own, hchange, hreturns⟩ | ⟨rest, -, hyields⟩
    · rw [hreturns] at hturn
      cases hturn
      exact htally.leave hbelow hchange
    · rw [hyields] at hturn
      cases hturn
  | yielded hoffers hshared hmay hturn =>
    rcases htally.turn_cases host hbelow hoffers hshared hmay with
      ⟨lock, own, -, hreturns⟩ | ⟨rest, hwaits, hyields⟩
    · rw [hreturns] at hturn
      cases hturn
    · rw [hyields] at hturn
      cases hturn
      rw [hshared]
      exact htally.leave_waiting hwaits

end Tally

theorem readHolds_start : readHolds (Crew.start {} {} : Crew ε ReadWriteLock Sides) = 0 :=
  Crew.total_start Sides.reads _ rfl

/-- A free lock and tasks without sides agree. -/
theorem tally_start : Tally (Crew.start {} {} : Crew ε ReadWriteLock Sides) := by
  refine ⟨Crew.fewCount_start _ rfl, Crew.fewCount_start _ rfl,
    Or.inl ⟨Crew.total_start _ _ rfl, ?_⟩, ?_⟩
  · rw [readHolds_start]
    rfl
  · intro task own rest hcalling
    cases hcalling

/-! ## What tasks may rely on -/

/-- Who has which side at a switch, and that the word says so. -/
structure WriterAlone (crew : Crew ε ReadWriteLock Sides) : Prop where
  /-- Only finitely many tasks have a read side, so their number is one. -/
  few : {task | (crew.own task).reads ≠ 0}.Finite
  sides : ((∀ task, (crew.own task).writes = 0) ∧
      crew.shared.word.toNat = ∑ᶠ task, (crew.own task).reads) ∨
    ∃ writer, (crew.own writer).writes = 1 ∧ (∀ other ≠ writer, (crew.own other).writes = 0) ∧
      (∀ task, (crew.own task).reads = 0) ∧ crew.shared.word.toNat = 2 ^ 31
  readers : crew.shared.readers.toNat = ∑ᶠ task, (crew.own task).reads
  writer : crew.shared.isWriteLocked = true ↔ ∃ task, 0 < (crew.own task).writes

/-- From the tally it follows that a writer inside is alone. -/
theorem Tally.writerAlone {crew : Crew ε ReadWriteLock Sides} (htally : Tally crew)
    (hbelow : readHolds crew < 2 ^ 31) : WriterAlone crew := by
  have hnever : crew.total Sides.writes = 0 → ∀ task, (crew.own task).writes = 0 := by
    intro hnone task
    have hle : (crew.own task).writes ≤ crew.total Sides.writes :=
      Crew.le_total htally.fewWrites task
    omega
  refine ⟨htally.fewReads, ?_, ?_, ?_⟩
  · refine htally.word.imp (fun hreaders => ⟨hnever hreaders.1, hreaders.2⟩) ?_
    rintro ⟨hone, hnone, hword⟩
    obtain ⟨writer, hwriter⟩ := Crew.exists_of_total_pos (hone.symm ▸ Nat.one_pos)
    have hwriterOne : (crew.own writer).writes ≤ crew.total Sides.writes :=
      Crew.le_total htally.fewWrites writer
    refine ⟨writer, by omega, fun other hother => ?_, fun task => ?_, congrArg _ hword⟩
    · have hboth : (crew.own other).writes + (crew.own writer).writes ≤
          crew.total Sides.writes := Crew.add_le_total htally.fewWrites hother
      omega
    · have hle : (crew.own task).reads ≤ readHolds crew := Crew.le_total htally.fewReads task
      omega
  · change _ = readHolds crew
    rw [toNat_readers]
    rcases htally.word with ⟨-, hword⟩ | ⟨-, hnone, hword⟩
    · rw [hword, Nat.mod_eq_of_lt hbelow]
    · rw [hword, hnone, toNat_writerBit, Nat.mod_self]
  · rw [isWriteLocked_iff]
    rcases htally.word with ⟨hnone, hword⟩ | ⟨hone, -, hword⟩
    · constructor
      · intro hset
        omega
      · rintro ⟨task, htask⟩
        have hzero := hnever hnone task
        omega
    · rw [hword, toNat_writerBit]
      exact ⟨fun _ => Crew.exists_of_total_pos (hone.symm ▸ Nat.one_pos), fun _ => Nat.le_refl _⟩

/-- When any number of tasks take sides of a lock that was free and give back their own,
switching in any order and never with `2 ^ 31` read sides or more at once, a writer is alone at
every switch, the word says who has what, and no turn meets a fault. -/
theorem writer_excludes_everybody (host : Host ε ReadWriteLock)
    {crew : Crew ε ReadWriteLock Sides}
    (hreach : Crew.ReachesWithin host Call
      (fun crew => ∑ᶠ task, (crew.own task).reads < 2 ^ 31) (Crew.start {} {}) crew) :
    WriterAlone crew ∧ ¬ crew.MayFail host Call := by
  have hbegin : readHolds (Crew.start {} {} : Crew ε ReadWriteLock Sides) < 2 ^ 31 := by
    rw [readHolds_start]
    decide
  obtain ⟨htally, hbelow⟩ := hreach.invariant hbegin tally_start
    fun crew next htally hbelow hstep _ => htally.step hbelow hstep
  exact ⟨htally.writerAlone hbelow, htally.not_mayFail hbelow⟩

/-- A task that reads keeps a writer waiting. -/
theorem writer_excludes_everybody_of_reader :
    ∃ crew : Crew Empty ReadWriteLock Sides,
      Crew.ReachesWithin (Host.still Empty ReadWriteLock) Call
        (fun crew => ∑ᶠ task, (crew.own task).reads < 2 ^ 31) (.start {} {}) crew ∧
      crew.own 1 = { reads := 1 } ∧ crew.activity 2 = .calling {} (waitingWrite {}) ∧
      WriterAlone crew := by
  let reading : Crew Empty ReadWriteLock Sides :=
    (Crew.start {} {}).leave 1 { word := 1 } (.idle { reads := 1 })
  let waiting := reading.leave 2 { word := 1 } (.calling {} (waitingWrite {}))
  have hfew := tally_start.fewReads (ε := Empty)
  have hnone := readHolds_start (ε := Empty)
  have hone : readHolds reading + 0 = readHolds (Crew.start {} {} : Crew Empty _ Sides) + 1 :=
    Crew.total_leave hfew 1 _ _
  have hwaiting : readHolds waiting + 0 = readHolds reading + 0 :=
    Crew.total_leave (hfew.leave 1 _ _) 2 _ _
  have htakes : (readLock.bind fun _ => .done ({ reads := 1 } : Sides)).turn
      (Host.still Empty ReadWriteLock) { shared := {} } =
        .returned { reads := 1 } { shared := { word := 1 } } := rfl
  have hwaits : (writeLock.bind fun _ => .done ({ writes := 1 } : Sides)).turn
      (Host.still Empty ReadWriteLock) { shared := { word := 1 } } =
        .yielded (waitingWrite {}) { shared := { word := 1 } } := rfl
  have hreads : Crew.Step (Host.still Empty ReadWriteLock) Call (Crew.start {} {}) reading :=
    .returned (.begins .takesRead) rfl rfl htakes
  have hqueues : Crew.Step (Host.still Empty ReadWriteLock) Call reading waiting :=
    .yielded (.begins .takesWrite) rfl rfl hwaits
  have hfewer : readHolds reading < 2 ^ 31 ∧ readHolds waiting < 2 ^ 31 := by omega
  have hreach : Crew.ReachesWithin (Host.still Empty ReadWriteLock) Call
      (fun crew => ∑ᶠ task, (crew.own task).reads < 2 ^ 31) (Crew.start {} {}) waiting :=
    (Relation.ReflTransGen.single ⟨hreads, hfewer.1⟩).tail ⟨hqueues, hfewer.2⟩
  exact ⟨waiting, hreach, rfl, rfl, (writer_excludes_everybody _ hreach).1⟩

end ReadWriteLock

end DriverHost
