import DriverHost.Fault

/-!
# The scheduler's table

Tasks share one processor and give it up only of their own accord.  Task zero is the boot
context; threads get the numbers one to sixteen in the order they are created and keep them
for good.  The table records which tasks can still run, the boot context among them, which task
has the processor, and on which core each task believes it runs.

Main results:

- Definition `Scheduler.create?` numbers threads in order and refuses the seventeenth.
- Definition `Scheduler.live` counts the threads that have not ended.
- Definition `Scheduler.task?` finds the entry of a task.
- Theorem `Scheduler.create?_eq_some_iff` and theorem `Scheduler.state?_terminate` describe a
  creation and the end of a task.
-/

namespace DriverHost

/-- The number of a task. -/
abbrev TaskId : Type := Nat

/-- The boot context, which runs before and between threads. -/
def bootTask : TaskId := 0

/-- Threads that can be created over the lifetime of the system. -/
def maxThreads : Nat := 16

/-- A thread can run until its body has returned. -/
inductive TaskState where
  | runnable
  | terminated
deriving DecidableEq, Repr

/-- What the table has about a task. -/
structure TaskEntry where
  id : TaskId
  state : TaskState
deriving DecidableEq, Repr

/-- The tasks, the one that has the processor, and the cores they run on. -/
structure Scheduler where
  /-- The state of the boot context, whose entry is there from the beginning. -/
  boot : TaskState := .runnable
  /-- The state of each thread, thread one first. -/
  threads : Array TaskState := #[]
  /-- The task that has the processor. -/
  current : TaskId := bootTask
  /-- The core each task believes it runs on. -/
  core : TaskId → UInt64 := fun _ => 0
  /-- Locks may only be touched on core zero. -/
  bootCoreOnly : Bool := false

namespace Scheduler

/-- The state of a task, for the boot context and the threads created so far. -/
def state? (scheduler : Scheduler) : TaskId → Option TaskState
  | 0 => some scheduler.boot
  | index + 1 => scheduler.threads[index]?

/-- The entry of a task, if there is a task with this number. -/
def task? (scheduler : Scheduler) (task : TaskId) : Option TaskEntry :=
  (scheduler.state? task).map fun state => ⟨task, state⟩

/-- The task exists and can run. -/
def isRunnable (scheduler : Scheduler) (task : TaskId) : Bool :=
  scheduler.state? task == some .runnable

/-- Threads created so far. -/
def created (scheduler : Scheduler) : Nat :=
  scheduler.threads.size

/-- Threads that have not ended. -/
def live (scheduler : Scheduler) : Nat :=
  scheduler.threads.toList.countP (· == .runnable)

/-- Enter a new runnable thread under the next number, if there is one left. -/
def create? (scheduler : Scheduler) : Option (TaskId × Scheduler) :=
  if scheduler.created < maxThreads then
    some (scheduler.created + 1, { scheduler with threads := scheduler.threads.push .runnable })
  else none

/-- Give the processor to a task. -/
def switch (scheduler : Scheduler) (task : TaskId) : Scheduler :=
  { scheduler with current := task }

/-- Record that a task's body has returned. -/
def terminate (scheduler : Scheduler) : TaskId → Scheduler
  | 0 => { scheduler with boot := .terminated }
  | index + 1 => { scheduler with threads := scheduler.threads.setIfInBounds index .terminated }

/-- Record the core that the running task believes it runs on. -/
def setCore (scheduler : Scheduler) (core : UInt64) : Scheduler :=
  { scheduler with
    core := fun task => if task = scheduler.current then core else scheduler.core task }

/-- The running task may touch a lock. -/
def mayLock (scheduler : Scheduler) : Bool :=
  !scheduler.bootCoreOnly || scheduler.core scheduler.current == 0

/-- A creation adds one thread, under the number after the last one. -/
theorem create?_eq_some_iff {scheduler next : Scheduler} {task : TaskId} :
    scheduler.create? = some (task, next) ↔
      scheduler.created < maxThreads ∧ task = scheduler.created + 1 ∧
        next = { scheduler with threads := scheduler.threads.push .runnable } := by
  unfold create?
  split <;> grind

/-- Giving the processor away changes no thread. -/
@[simp] theorem state?_switch (scheduler : Scheduler) (task other : TaskId) :
    (scheduler.switch task).state? other = scheduler.state? other := by
  cases other <;> rfl

/-- A termination ends its task and no other. -/
theorem state?_terminate (scheduler : Scheduler) (task other : TaskId) :
    (scheduler.terminate task).state? other =
      if task = other ∧ task ≤ scheduler.created then some .terminated
      else scheduler.state? other := by
  cases task with
  | zero => cases other <;> simp [terminate, state?]
  | succ index =>
    cases other with
    | zero => simp [terminate, state?]
    | succ other =>
      simp only [terminate, state?, created, Array.getElem?_setIfInBounds]
      grind

end Scheduler

end DriverHost
