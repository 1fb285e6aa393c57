import DriverHost.Script.Locks
import DriverHost.Script.Storage
import DriverHost.Script.Tasks

/-!
# The driver's entry points

What a driver calls by name.  Once the services behind them are installed, the entry points
that wait give the processor up to the scheduler, the heap serves allocations, and the table
of task records follows the scheduler.  Before that, whatever needs a service is a bug.

Main results:

- Definition `EntryOp.perform`.
-/

namespace DriverHost.Script

/-- Stop with a bug check before the services are installed. -/
def requireServices : Code Unit :=
  Coroutine.act fun world =>
    if world.outside.threads.installed then .ok () world else .error (.bug none) world

/-- Install the services, once, and report the size of the heap. -/
def install : Action World Reply := fun world =>
  match world.outside.threads.install? with
  | none => .ok (.refused .alreadyInstalled) world
  | some threads =>
      let world : World :=
        { world with
          outside := { world.outside with
            threads, onSwitch := .taskTable, onTermination := .taskTable } }
      match ByteCount.ofSize world.heap.remaining with
      | .error cause => .error cause world
      | .ok size =>
          .ok .nothing (world.log .notice "linuxemu::runtime"
            ("kmalloc pool: " ++ size.text ++ " available"))

/-- An entry point that waits for a lock. -/
def serviced (code : Code Reply) : Code Reply := do
  requireServices
  code

/-- An entry point that answers zero and the state of its lock. -/
def returnsZero (code : Code Reply) : Code Reply := do
  let state ← serviced code
  return .returned 0 state

/-- A block for the driver, zero if it is refused. -/
def blockFor (allocate : Action World (Except AllocError UInt64)) : Code Reply := do
  requireServices
  let start ← Coroutine.act do
    Kernel.blockOrNull (← allocate)
  return .number start.toNat

/-- Perform an operation through a driver's entry point, on the locks with a number. -/
def EntryOp.perform (index : Nat) : EntryOp → Code Reply
  | install => Coroutine.act Script.install
  | current => Coroutine.act (look fun world => recordReply world.outside.threads.currentRecord?)
  | createThread program => do
      requireServices
      let task ← (KernelThreads.create program).zoom threadsView
      Coroutine.act (tableReply task)
  | wakeUp => return .number 0
  | setNice | flushSignals => return .nothing
  | allocate size => blockFor (Kernel.allocate size)
  | allocateZeroed size => blockFor (Kernel.allocateZeroed size)
  | free address => do
      if address ≠ 0 then requireServices
      return .nothing
  | mutexLock => serviced (onMutex index Mutex.lock)
  | mutexLockInterruptible => returnsZero (onMutex index Mutex.lock)
  | mutexUnlock => onMutex index Mutex.unlock
  | down => serviced (onSemaphore index Semaphore.down)
  | downInterruptible => returnsZero (onSemaphore index Semaphore.down)
  | tryDown => do
      let taken ← Semaphore.tryDown.zoom (semaphoreView index)
      let state ← semaphoreReply index
      return .returned (if taken then 0 else 1) state
  | up => onSemaphore index Semaphore.up
  | readLock => serviced (onReadWrite index ReadWriteLock.readLock)
  | readUnlock => onReadWrite index ReadWriteLock.readUnlock
  | writeLock => serviced (onReadWrite index ReadWriteLock.writeLock)
  | writeUnlock => onReadWrite index ReadWriteLock.writeUnlock
  | bug file line => Coroutine.fault (.bug (some ⟨textOrUnknown file, line⟩))
  | assertion condition file line =>
      Coroutine.fault (.assertion (textOrUnknown condition) ⟨textOrUnknown file, line⟩)

end DriverHost.Script
