import DriverHost.Script.World

/-!
# Operations on locks

An operation on a lock answers with the lock's state afterwards.

Main results:

- Definition `LockOp.perform`.
-/

namespace DriverHost.Script

/-- The state of a mutex, as an answer. -/
def mutexReply (index : Nat) : Code Reply :=
  Coroutine.act (look fun world => .flag ((mutexView index).get world).isLocked)

/-- The state of a semaphore, as an answer. -/
def semaphoreReply (index : Nat) : Code Reply :=
  Coroutine.act (look fun world => .number ((semaphoreView index).get world).count.toNat)

/-- The state of a read-write lock, as an answer. -/
def readWriteReply (index : Nat) : Code Reply :=
  Coroutine.act (look fun world =>
    let lock := (readWriteView index).get world
    .sides lock.readers lock.isWriteLocked)

/-- Code on a mutex, with its state as the answer. -/
def onMutex (index : Nat) (code : Coroutine String Mutex Unit) : Code Reply := do
  code.zoom (mutexView index)
  mutexReply index

/-- Code on a semaphore, with its state as the answer. -/
def onSemaphore (index : Nat) (code : Coroutine String Semaphore Unit) : Code Reply := do
  code.zoom (semaphoreView index)
  semaphoreReply index

/-- Code on a read-write lock, with its state as the answer. -/
def onReadWrite (index : Nat) (code : Coroutine String ReadWriteLock Unit) : Code Reply := do
  code.zoom (readWriteView index)
  readWriteReply index

/-- Replace a lock by another. -/
def replace {σ : Type} (lock : σ) : Coroutine String σ Unit :=
  Coroutine.act fun _ => .ok () lock

/-- Perform an operation on the locks with a number. -/
def LockOp.perform (setting : Setting) (index : Nat) : LockOp → Code Reply
  | mutexLock => setting.waiting (onMutex index Mutex.lock)
  | mutexUnlock | mutexReset => onMutex index Mutex.unlock
  | mutexState => mutexReply index
  | down => setting.waiting (onSemaphore index Semaphore.down)
  | up => onSemaphore index Semaphore.up
  | tryDown => do
      let taken ← Semaphore.tryDown.zoom (semaphoreView index)
      let left ← Coroutine.act (look fun world => ((semaphoreView index).get world).count)
      return .attempt taken left
  | semaphoreReset count => onSemaphore index (replace { count })
  | semaphoreStart count => onSemaphore index (replace (Semaphore.ofInt count))
  | semaphoreState => semaphoreReply index
  | readLock => setting.waiting (onReadWrite index ReadWriteLock.readLock)
  | readUnlock => onReadWrite index ReadWriteLock.readUnlock
  | writeLock => setting.waiting (onReadWrite index ReadWriteLock.writeLock)
  | writeUnlock => onReadWrite index ReadWriteLock.writeUnlock
  | readWriteReset => onReadWrite index (replace {})
  | readWriteState => readWriteReply index
  | readWriteWord word => onReadWrite index (replace { word })

end DriverHost.Script
