import DriverHost.Proofs.LockTurns
import Mathlib.Algebra.Group.Pi.Basic

/-!
# Rooms full of locks

Any number of mutexes, read-write locks and semaphores side by side, and what critical sections do
to them.  A section takes one side: a mutex, the read or the write side of a read-write lock, or a
unit of a semaphore.  The words of the locks count the threads that are inside their sections, so
a lock that nobody is inside can be taken.

Main results:

- Theorems `LockRoom.turn_take`, `LockRoom.turn_waits` and `LockRoom.turn_give`: what the code of
  a section does to the locks.
- Structure `LockRoom.Accounts`: the words of the locks count the threads inside.
- Theorems `LockRoom.Accounts.take` and `LockRoom.Accounts.give`: taking and giving keep it.
- Theorem `LockRoom.Accounts.taken?_of_nobody`: a side can be taken if nobody is inside anywhere.
-/

namespace DriverHost

/-- The locks that some threads share. -/
structure LockRoom where
  mutexes : Nat → Mutex
  readWriteLocks : Nat → ReadWriteLock
  semaphores : Nat → Semaphore

namespace LockRoom

/-- What a critical section takes and gives back. -/
inductive Side where
  /-- A mutex. -/
  | mutex (index : Nat)
  /-- The read side of a read-write lock, which many can have. -/
  | read (index : Nat)
  /-- The write side of a read-write lock. -/
  | write (index : Nat)
  /-- A unit of a semaphore. -/
  | unit (index : Nat)
deriving DecidableEq, Repr

def mutexView (index : Nat) : Coroutine.View LockRoom Mutex where
  get room := room.mutexes index
  set mutex room := { room with mutexes := Function.update room.mutexes index mutex }

def readWriteView (index : Nat) : Coroutine.View LockRoom ReadWriteLock where
  get room := room.readWriteLocks index
  set lock room := { room with readWriteLocks := Function.update room.readWriteLocks index lock }

def semaphoreView (index : Nat) : Coroutine.View LockRoom Semaphore where
  get room := room.semaphores index
  set semaphore room :=
    { room with semaphores := Function.update room.semaphores index semaphore }

theorem lawful_mutexView (index : Nat) : (mutexView index).Lawful := by
  constructor <;> intros <;> simp [mutexView]

theorem lawful_readWriteView (index : Nat) : (readWriteView index).Lawful := by
  constructor <;> intros <;> simp [readWriteView]

theorem lawful_semaphoreView (index : Nat) : (semaphoreView index).Lawful := by
  constructor <;> intros <;> simp [semaphoreView]

/-! ## The code around a section -/

section Code

variable {ε : Type}

/-- Wait until the side is free and take it. -/
def take : Side → Coroutine ε LockRoom Unit
  | .mutex index => Mutex.lock.zoom (mutexView index)
  | .read index => ReadWriteLock.readLock.zoom (readWriteView index)
  | .write index => ReadWriteLock.writeLock.zoom (readWriteView index)
  | .unit index => Semaphore.down.zoom (semaphoreView index)

/-- What is left of taking the side once the core was checked. -/
def waits : Side → Coroutine ε LockRoom Unit
  | .mutex index => Mutex.waitFree.zoom (mutexView index)
  | .read index => ReadWriteLock.waitRead.zoom (readWriteView index)
  | .write index => ReadWriteLock.waitWrite.zoom (readWriteView index)
  | .unit index => Semaphore.waitUnit.zoom (semaphoreView index)

/-- Give the side back. -/
def give : Side → Coroutine ε LockRoom Unit
  | .mutex index => Mutex.unlock.zoom (mutexView index)
  | .read index => ReadWriteLock.readUnlock.zoom (readWriteView index)
  | .write index => ReadWriteLock.writeUnlock.zoom (readWriteView index)
  | .unit index => Semaphore.up.zoom (semaphoreView index)

end Code

/-- The locks after the side was taken, if it is free. -/
def taken? (room : LockRoom) : Side → Option LockRoom
  | .mutex index => (room.mutexes index).tryLock.map fun mutex => (mutexView index).set mutex room
  | .read index =>
      (room.readWriteLocks index).tryRead.map fun lock => (readWriteView index).set lock room
  | .write index =>
      (room.readWriteLocks index).tryWrite.map fun lock => (readWriteView index).set lock room
  | .unit index =>
      (room.semaphores index).take.map fun semaphore => (semaphoreView index).set semaphore room

/-- The locks after the side was given back. -/
def given (room : LockRoom) : Side → LockRoom
  | .mutex index => (mutexView index).set Mutex.unlocked room
  | .read index =>
      (readWriteView index).set { word := (room.readWriteLocks index).word - 1 } room
  | .write index => (readWriteView index).set (room.readWriteLocks index).dropWrite room
  | .unit index => (semaphoreView index).set (room.semaphores index).give room

section Turns

variable {ε : Type} {host : Host ε LockRoom} {machine : Machine ε LockRoom}

/-- Looking at a side takes it if it is free, and changes nothing otherwise. -/
theorem turn_waits (side : Side) :
    (waits side : Coroutine ε LockRoom Unit).turn host machine =
      match machine.shared.taken? side with
      | some room => .returned () (machine.withShared room)
      | none => .yielded (waits side) machine := by
  cases side with
  | mutex index =>
    have hview := lawful_mutexView index
    rw [waits, Coroutine.turn_zoom hview Mutex.within_waitFree, Mutex.turn_waitFree]
    have hpart : (machine.part (mutexView index)).shared = machine.shared.mutexes index := rfl
    rw [hpart, taken?, Mutex.tryLock]
    cases (machine.shared.mutexes index).isLocked with
    | true => simp [Coroutine.Turn.onWhole, Machine.withPart_part hview]
    | false => rfl
  | read index =>
    have hview := lawful_readWriteView index
    rw [waits, Coroutine.turn_zoom hview ReadWriteLock.within_waitRead,
      ReadWriteLock.turn_waitRead]
    have hpart : (machine.part (readWriteView index)).shared =
        machine.shared.readWriteLocks index := rfl
    rw [hpart, taken?]
    cases (machine.shared.readWriteLocks index).tryRead with
    | none => simp [Coroutine.Turn.onWhole, Machine.withPart_part hview]
    | some lock => rfl
  | write index =>
    have hview := lawful_readWriteView index
    rw [waits, Coroutine.turn_zoom hview ReadWriteLock.within_waitWrite,
      ReadWriteLock.turn_waitWrite]
    have hpart : (machine.part (readWriteView index)).shared =
        machine.shared.readWriteLocks index := rfl
    rw [hpart, taken?]
    cases (machine.shared.readWriteLocks index).tryWrite with
    | none => simp [Coroutine.Turn.onWhole, Machine.withPart_part hview]
    | some lock => rfl
  | unit index =>
    have hview := lawful_semaphoreView index
    rw [waits, Coroutine.turn_zoom hview Semaphore.within_waitUnit, Semaphore.turn_waitUnit]
    have hpart : (machine.part (semaphoreView index)).shared =
        machine.shared.semaphores index := rfl
    rw [hpart, taken?, Semaphore.take]
    by_cases hempty : (machine.shared.semaphores index).count = 0
    · simp [hempty, Coroutine.Turn.onWhole, Machine.withPart_part hview]
    · simp only [hempty, if_false]
      rfl

/-- Taking a side takes it in this turn if it is free. -/
theorem turn_take (hmay : machine.scheduler.mayLock = true) (side : Side) :
    (take side : Coroutine ε LockRoom Unit).turn host machine =
      (waits side).turn host machine := by
  cases side with
  | mutex index =>
    have hview := lawful_mutexView index
    rw [take, waits, Coroutine.turn_zoom hview Mutex.within_lock,
      Coroutine.turn_zoom hview Mutex.within_waitFree, Mutex.turn_lock hmay, Mutex.turn_waitFree]
  | read index =>
    have hview := lawful_readWriteView index
    rw [take, waits, Coroutine.turn_zoom hview ReadWriteLock.within_readLock,
      Coroutine.turn_zoom hview ReadWriteLock.within_waitRead, ReadWriteLock.turn_readLock hmay]
  | write index =>
    have hview := lawful_readWriteView index
    rw [take, waits, Coroutine.turn_zoom hview ReadWriteLock.within_writeLock,
      Coroutine.turn_zoom hview ReadWriteLock.within_waitWrite, ReadWriteLock.turn_writeLock hmay]
  | unit index =>
    have hview := lawful_semaphoreView index
    rw [take, waits, Coroutine.turn_zoom hview Semaphore.within_down,
      Coroutine.turn_zoom hview Semaphore.within_waitUnit, Semaphore.turn_down hmay,
      Semaphore.turn_waitUnit]

/-- Giving a side back does so in this turn; a read side has to be counted. -/
theorem turn_give (hmay : machine.scheduler.mayLock = true) (side : Side)
    (hcounted : ∀ index, side = .read index →
      (machine.shared.readWriteLocks index).readers ≠ 0) :
    (give side : Coroutine ε LockRoom Unit).turn host machine =
      .returned () (machine.withShared (machine.shared.given side)) := by
  cases side with
  | mutex index =>
    rw [give, Coroutine.turn_zoom (lawful_mutexView index) Mutex.within_unlock,
      Mutex.turn_unlock hmay]
    rfl
  | read index =>
    rw [give, Coroutine.turn_zoom (lawful_readWriteView index) ReadWriteLock.within_readUnlock,
      ReadWriteLock.turn_readUnlock hmay (hcounted index rfl)]
    rfl
  | write index =>
    rw [give, Coroutine.turn_zoom (lawful_readWriteView index) ReadWriteLock.within_writeUnlock,
      ReadWriteLock.turn_writeUnlock hmay]
    rfl
  | unit index =>
    rw [give, Coroutine.turn_zoom (lawful_semaphoreView index) Semaphore.within_up,
      Semaphore.turn_up hmay]
    rfl

end Turns

end LockRoom

/-! ## Accounts of one lock -/

/-- The word of a mutex is the number of threads inside, and that is at most one. -/
def Mutex.Counts (mutex : Mutex) (inside : Nat) : Prop :=
  mutex.word.toNat = inside ∧ inside ≤ 1

/-- The word of a read-write lock counts the readers inside and has the bit of a writer, who is
alone. -/
def ReadWriteLock.Counts (lock : ReadWriteLock) (readers writers : Nat) : Prop :=
  lock.word.toNat = readers + 2 ^ 31 * writers ∧ (writers = 0 ∨ writers = 1 ∧ readers = 0)

/-- The units of a semaphore are there or with a thread inside. -/
def Semaphore.Counts (initial semaphore : Semaphore) (inside : Nat) : Prop :=
  semaphore.count.toNat + inside = initial.count.toNat

/-- Who takes a free mutex is the only one inside. -/
theorem Mutex.Counts.take {mutex next : Mutex} {inside : Nat} (hcounts : mutex.Counts inside)
    (htaken : mutex.tryLock = some next) : next.Counts (inside + 1) := by
  obtain ⟨hunlocked, rfl⟩ := Mutex.tryLock_eq_some_iff.1 htaken
  have hword : mutex.word = 0 := by simpa [Mutex.isLocked] using hunlocked
  have hnobody : inside = 0 := by simpa [hword] using hcounts.1.symm
  simp [Mutex.Counts, hnobody]

/-- Giving the mutex back leaves one thread fewer inside. -/
theorem Mutex.Counts.give {mutex : Mutex} {inside : Nat} (hcounts : mutex.Counts (inside + 1)) :
    Mutex.unlocked.Counts inside := by
  have hnobody : inside = 0 := Nat.le_zero.1 (Nat.le_of_succ_le_succ hcounts.2)
  simp [Mutex.Counts, Mutex.unlocked, hnobody]

theorem Mutex.Counts.word_of_nobody {mutex : Mutex} (hcounts : mutex.Counts 0) :
    mutex.word = 0 := by
  rw [← UInt32.toNat_inj]
  exact hcounts.1

/-- With nobody inside, the semaphore has its first count again. -/
theorem Semaphore.Counts.of_nobody {initial semaphore : Semaphore}
    (hcounts : Semaphore.Counts initial semaphore 0) : semaphore = initial := by
  rw [Semaphore.mk.injEq, ← UInt32.toNat_inj]
  exact hcounts

/-- A unit that is taken is with one more thread inside. -/
theorem Semaphore.Counts.take {initial semaphore next : Semaphore} {inside : Nat}
    (hcounts : Semaphore.Counts initial semaphore inside) (htaken : semaphore.take = some next) :
    Semaphore.Counts initial next (inside + 1) := by
  obtain ⟨hunits, rfl⟩ := Semaphore.take_eq_some_iff.1 htaken
  have hless := Semaphore.toNat_pred_add_one hunits
  simp only [Semaphore.Counts] at hcounts ⊢
  omega

/-- A unit that is given back is with one thread fewer inside. -/
theorem Semaphore.Counts.give {initial semaphore : Semaphore} {inside : Nat}
    (hcounts : Semaphore.Counts initial semaphore (inside + 1)) :
    Semaphore.Counts initial semaphore.give inside := by
  have hinitial := initial.count.toNat_lt
  simp only [Semaphore.Counts, Semaphore.give, UInt32.toNat_add, UInt32.toNat_one] at hcounts ⊢
  omega

namespace ReadWriteLock

variable {lock next : ReadWriteLock} {readers writers : Nat}

theorem Counts.word_of_nobody (hcounts : lock.Counts 0 0) : lock.word = 0 := by
  rw [← UInt32.toNat_inj]
  exact hcounts.1

/-- One more reader is counted as long as the count of readers stays below the writer's bit. -/
theorem Counts.takeRead (hcounts : lock.Counts readers writers) (hfew : readers < 2 ^ 31 - 1)
    (htaken : lock.tryRead = some next) : next.Counts (readers + 1) writers := by
  obtain ⟨hfree, rfl⟩ := tryRead_eq_some_iff.1 htaken
  have hbelow := mt lock.isWriteLocked_iff.2 (by simp [hfree])
  obtain ⟨hword, -⟩ := hcounts
  have hnoWriter : writers = 0 := by omega
  refine ⟨?_, Or.inl hnoWriter⟩
  rw [UInt32.toNat_add, UInt32.toNat_one]
  omega

/-- A writer gets in only when nobody else is inside, and is then alone. -/
theorem Counts.takeWrite (hcounts : lock.Counts readers writers)
    (htaken : lock.tryWrite = some next) : next.Counts readers (writers + 1) := by
  obtain ⟨hfree, rfl⟩ := tryWrite_eq_some_iff.1 htaken
  obtain ⟨hword, -⟩ := hcounts
  rw [hfree, UInt32.toNat_zero] at hword
  have hnobody : readers = 0 ∧ writers = 0 := by omega
  simp [Counts, hnobody]

/-- A reader inside is seen in the count of readers, so that its unlock passes the check. -/
theorem Counts.readers_ne_zero (hcounts : lock.Counts (readers + 1) writers)
    (hfew : readers + 1 < 2 ^ 31) : lock.readers ≠ 0 := by
  obtain ⟨hword, hwriters⟩ := hcounts
  intro hzero
  have hmod := lock.toNat_readers
  rw [hzero, UInt32.toNat_zero, hword] at hmod
  omega

/-- A reader that leaves takes one off the count. -/
theorem Counts.giveRead (hcounts : lock.Counts (readers + 1) writers) :
    Counts { word := lock.word - 1 } readers writers := by
  obtain ⟨hword, hwriters⟩ := hcounts
  have hpositive : (1 : UInt32) ≤ lock.word := by
    rw [UInt32.le_iff_toNat_le, hword, UInt32.toNat_one]
    omega
  simp only [Counts, UInt32.toNat_sub_of_le _ _ hpositive, UInt32.toNat_one]
  omega

/-- A writer that leaves takes its bit off the word. -/
theorem Counts.giveWrite (hcounts : lock.Counts readers (writers + 1)) :
    lock.dropWrite.Counts readers writers := by
  obtain ⟨hword, hwriters⟩ := hcounts
  have hnobody : readers = 0 ∧ writers = 0 := by omega
  rw [Counts, word_dropWrite, toNat_readers, hword]
  simp [hnobody]

end ReadWriteLock

/-! ## Accounts of a room -/

namespace LockRoom

/-- Nobody has a lock, and no semaphore is without a unit. -/
structure Free (room : LockRoom) : Prop where
  mutex : ∀ index, (room.mutexes index).word = 0
  readWrite : ∀ index, (room.readWriteLocks index).word = 0
  semaphore : ∀ index, (room.semaphores index).count ≠ 0

/-- The words of the locks count the threads inside by what their sections took. -/
structure Accounts (initial : LockRoom) (inside : Side → Nat) (room : LockRoom) : Prop where
  mutex : ∀ index, (room.mutexes index).Counts (inside (.mutex index))
  readWrite : ∀ index,
    (room.readWriteLocks index).Counts (inside (.read index)) (inside (.write index))
  semaphore : ∀ index, Semaphore.Counts (initial.semaphores index) (room.semaphores index)
    (inside (.unit index))

/-- One thread inside a section of a side. -/
def Side.once (side : Side) : Side → Nat := fun other => if other = side then 1 else 0

@[simp] theorem Side.once_apply (side other : Side) :
    side.once other = if other = side then 1 else 0 :=
  rfl

variable {initial room next : LockRoom} {inside after : Side → Nat} {side : Side}

/-- In a room where nobody has a lock, the words count nobody. -/
theorem Free.accounts (hfree : initial.Free) : Accounts initial 0 initial := by
  constructor <;> intro index
  · simp [Mutex.Counts, hfree.mutex]
  · simp [ReadWriteLock.Counts, hfree.readWrite]
  · simp [Semaphore.Counts]

/-- A step on one mutex leaves the accounts of all other locks as they are. -/
theorem Accounts.setMutex (haccounts : Accounts initial inside room) {taken : Nat} {mutex : Mutex}
    (hmutex : mutex.Counts (after (.mutex taken)))
    (hothers : ∀ other ≠ .mutex taken, after other = inside other) :
    Accounts initial after ((mutexView taken).set mutex room) := by
  constructor <;> intro index
  · by_cases hsame : index = taken
    · simpa [mutexView, hsame] using hmutex
    · rw [hothers _ (by simp [hsame])]
      simpa [mutexView, hsame] using haccounts.mutex index
  · rw [hothers _ (by simp), hothers _ (by simp)]
    exact haccounts.readWrite index
  · rw [hothers _ (by simp)]
    exact haccounts.semaphore index

/-- A step on one read-write lock leaves the accounts of all other locks as they are. -/
theorem Accounts.setReadWrite (haccounts : Accounts initial inside room) {taken : Nat}
    {lock : ReadWriteLock} (hlock : lock.Counts (after (.read taken)) (after (.write taken)))
    (hothers : ∀ other, other ≠ .read taken → other ≠ .write taken → after other = inside other) :
    Accounts initial after ((readWriteView taken).set lock room) := by
  constructor <;> intro index
  · rw [hothers _ (by simp) (by simp)]
    exact haccounts.mutex index
  · by_cases hsame : index = taken
    · simpa [readWriteView, hsame] using hlock
    · rw [hothers _ (by simp [hsame]) (by simp), hothers _ (by simp) (by simp [hsame])]
      simpa [readWriteView, hsame] using haccounts.readWrite index
  · rw [hothers _ (by simp) (by simp)]
    exact haccounts.semaphore index

/-- A step on one semaphore leaves the accounts of all other locks as they are. -/
theorem Accounts.setSemaphore (haccounts : Accounts initial inside room) {taken : Nat}
    {semaphore : Semaphore}
    (hsemaphore : Semaphore.Counts (initial.semaphores taken) semaphore (after (.unit taken)))
    (hothers : ∀ other ≠ .unit taken, after other = inside other) :
    Accounts initial after ((semaphoreView taken).set semaphore room) := by
  constructor <;> intro index
  · rw [hothers _ (by simp)]
    exact haccounts.mutex index
  · rw [hothers _ (by simp), hothers _ (by simp)]
    exact haccounts.readWrite index
  · by_cases hsame : index = taken
    · simpa [semaphoreView, hsame] using hsemaphore
    · rw [hothers _ (by simp [hsame])]
      simpa [semaphoreView, hsame] using haccounts.semaphore index

/-- A side that is taken has one more thread inside. -/
theorem Accounts.take (haccounts : Accounts initial inside room)
    (hfew : ∀ other, inside other < maxThreads) (htaken : room.taken? side = some next) :
    Accounts initial (inside + side.once) next := by
  cases side with
  | mutex index =>
    obtain ⟨mutex, hmutex, rfl⟩ := Option.map_eq_some_iff.1 htaken
    have hcounts := (haccounts.mutex index).take hmutex
    exact haccounts.setMutex (by simpa using hcounts) fun other hother => by simp [hother]
  | read index =>
    obtain ⟨lock, hlock, rfl⟩ := Option.map_eq_some_iff.1 htaken
    have hreaders : inside (.read index) < 2 ^ 31 - 1 := Nat.lt_trans (hfew _) (by decide)
    have hcounts := (haccounts.readWrite index).takeRead hreaders hlock
    exact haccounts.setReadWrite (by simpa using hcounts) fun other hother _ => by simp [hother]
  | write index =>
    obtain ⟨lock, hlock, rfl⟩ := Option.map_eq_some_iff.1 htaken
    have hcounts := (haccounts.readWrite index).takeWrite hlock
    exact haccounts.setReadWrite (by simpa using hcounts) fun other _ hother => by simp [hother]
  | unit index =>
    obtain ⟨semaphore, hsemaphore, rfl⟩ := Option.map_eq_some_iff.1 htaken
    have hcounts := (haccounts.semaphore index).take hsemaphore
    exact haccounts.setSemaphore (by simpa using hcounts) fun other hother => by simp [hother]

/-- A side that is given back has one thread less inside. -/
theorem Accounts.give (haccounts : Accounts initial (inside + side.once) room) :
    Accounts initial inside (room.given side) := by
  cases side with
  | mutex index =>
    have hcounts := haccounts.mutex index
    simp only [Pi.add_apply, Side.once_apply, if_true] at hcounts
    exact haccounts.setMutex hcounts.give fun other hother => by simp [hother]
  | read index =>
    have hcounts := haccounts.readWrite index
    simp only [Pi.add_apply, Side.once_apply, if_true, reduceCtorEq, if_false,
      Nat.add_zero] at hcounts
    exact haccounts.setReadWrite hcounts.giveRead fun other hother _ => by simp [hother]
  | write index =>
    have hcounts := haccounts.readWrite index
    simp only [Pi.add_apply, Side.once_apply, if_true, reduceCtorEq, if_false,
      Nat.add_zero] at hcounts
    exact haccounts.setReadWrite hcounts.giveWrite fun other _ hother => by simp [hother]
  | unit index =>
    have hcounts := haccounts.semaphore index
    simp only [Pi.add_apply, Side.once_apply, if_true] at hcounts
    exact haccounts.setSemaphore hcounts.give fun other hother => by simp [hother]

/-- A thread that gives a side back meets no bug check. -/
theorem Accounts.turn_give {ε : Type} {host : Host ε LockRoom} {machine : Machine ε LockRoom}
    (haccounts : Accounts initial (inside + side.once) machine.shared)
    (hfew : ∀ other, inside other < maxThreads) (hmay : machine.scheduler.mayLock = true) :
    (LockRoom.give side : Coroutine ε LockRoom Unit).turn host machine =
      .returned () (machine.withShared (machine.shared.given side)) := by
  apply LockRoom.turn_give hmay
  rintro index rfl
  have hcounts := haccounts.readWrite index
  simp only [Pi.add_apply, Side.once_apply, if_true, reduceCtorEq, if_false,
    Nat.add_zero] at hcounts
  have hreaders := hfew (.read index)
  apply hcounts.readers_ne_zero
  simp only [maxThreads] at hreaders
  omega

/-- If nobody is inside anywhere, the locks are free and the semaphores have all their units. -/
theorem Accounts.of_nobody (haccounts : Accounts initial 0 room) :
    (∀ index, (room.mutexes index).word = 0) ∧ (∀ index, (room.readWriteLocks index).word = 0) ∧
      ∀ index, room.semaphores index = initial.semaphores index :=
  ⟨fun index => (haccounts.mutex index).word_of_nobody,
    fun index => (haccounts.readWrite index).word_of_nobody,
    fun index => (haccounts.semaphore index).of_nobody⟩

/-- When nobody is inside a section, every lock is free again. -/
theorem Accounts.free (haccounts : Accounts initial 0 room) (hfree : initial.Free) : room.Free := by
  obtain ⟨hmutexes, hlocks, hsemaphores⟩ := haccounts.of_nobody
  refine ⟨hmutexes, hlocks, fun index => ?_⟩
  rw [hsemaphores]
  exact hfree.semaphore index

/-- A side can be taken while nobody is inside anywhere. -/
theorem Free.taken? (hfree : room.Free) (side : Side) : ∃ next, room.taken? side = some next := by
  cases side with
  | mutex index => simp [LockRoom.taken?, Mutex.tryLock, Mutex.isLocked, hfree.mutex]
  | read index =>
    simp [LockRoom.taken?, ReadWriteLock.tryRead, ReadWriteLock.isWriteLocked, hfree.readWrite]
  | write index => simp [LockRoom.taken?, ReadWriteLock.tryWrite, hfree.readWrite]
  | unit index => simp [LockRoom.taken?, Semaphore.take, hfree.semaphore]

end LockRoom

end DriverHost
