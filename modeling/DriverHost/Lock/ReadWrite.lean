import DriverHost.Coroutine

/-!
# Read-write locks

A read-write lock is one word: the top bit says that a writer has it, the other bits count
the readers.  A reader waits for the writer to leave, a writer waits until the whole word is
zero.  Giving back a read side that nobody has is a bug; giving back the write side only
clears its bit.

Main results:

- Definitions `ReadWriteLock.readLock`, `readUnlock`, `writeLock` and `writeUnlock` are the
  code that runs.
- Lemmas `tryRead_eq_some_iff` and `tryWrite_eq_some_iff` say when a side is taken.
-/

namespace DriverHost

/-- A lock for many readers or one writer. -/
structure ReadWriteLock where
  /-- The number of readers, and the top bit for a writer. -/
  word : UInt32 := 0
deriving DecidableEq, Repr

namespace ReadWriteLock

/-- The bit of the writer. -/
def writerBit : UInt32 := 0x80000000

/-- Read sides that are held. -/
def readers (lock : ReadWriteLock) : UInt32 :=
  lock.word &&& ~~~writerBit

/-- A writer has the lock. -/
def isWriteLocked (lock : ReadWriteLock) : Bool :=
  lock.word &&& writerBit != 0

/-- Take a read side unless a writer has the lock. -/
def tryRead (lock : ReadWriteLock) : Option ReadWriteLock :=
  if lock.isWriteLocked then none else some { word := lock.word + 1 }

/-- Take the write side if nobody has the lock. -/
def tryWrite (lock : ReadWriteLock) : Option ReadWriteLock :=
  if lock.word = 0 then some { word := lock.word ||| writerBit } else none

/-- Give a read side back, a bug if none is held. -/
def dropRead (lock : ReadWriteLock) : Except Fault ReadWriteLock :=
  if lock.readers = 0 then .error (.bug none) else .ok { word := lock.word - 1 }

/-- Give the write side back. -/
def dropWrite (lock : ReadWriteLock) : ReadWriteLock :=
  { word := lock.word &&& ~~~writerBit }

/-- A read side is taken exactly when no writer has the lock. -/
theorem tryRead_eq_some_iff {lock next : ReadWriteLock} :
    lock.tryRead = some next ↔ lock.isWriteLocked = false ∧ next = { word := lock.word + 1 } := by
  unfold tryRead
  split <;> grind

/-- The write side is taken exactly when the word is zero, and the word is then the writer's
bit alone. -/
theorem tryWrite_eq_some_iff {lock next : ReadWriteLock} :
    lock.tryWrite = some next ↔ lock.word = 0 ∧ next = { word := writerBit } := by
  unfold tryWrite
  split <;> grind

/-- Wait until no writer has the lock and take a read side. -/
def readLock {ε : Type} : Coroutine ε ReadWriteLock Unit := do
  Coroutine.requireBootCore
  Coroutine.await fun lock =>
    match lock.tryRead with
    | some lock => .ok (some ()) lock
    | none => .ok none lock

/-- Give a read side back. -/
def readUnlock {ε : Type} : Coroutine ε ReadWriteLock Unit := do
  Coroutine.requireBootCore
  Coroutine.act fun lock =>
    match lock.dropRead with
    | .ok lock => .ok () lock
    | .error cause => .error cause lock

/-- Wait until nobody has the lock and take the write side. -/
def writeLock {ε : Type} : Coroutine ε ReadWriteLock Unit := do
  Coroutine.requireBootCore
  Coroutine.await fun lock =>
    match lock.tryWrite with
    | some lock => .ok (some ()) lock
    | none => .ok none lock

/-- Give the write side back. -/
def writeUnlock {ε : Type} : Coroutine ε ReadWriteLock Unit := do
  Coroutine.requireBootCore
  Coroutine.act fun lock => .ok () lock.dropWrite

end ReadWriteLock

end DriverHost
