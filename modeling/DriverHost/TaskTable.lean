import DriverHost.Machine

/-!
# The table of task records

The driver knows a task by a record with its number, whether it has ended, and a word of its
own.  There is one record for each number a task can have.  A record is claimed when its
task is created; once the table is installed it also follows the scheduler, and one variable
always names the record of the task that has the processor.

Main results:

- Definitions `TaskTable.claim` and `TaskTable.markTerminated` with their laws.
- Definition `KernelThreads.install?` succeeds once.
- Definition `KernelThreads.follow` is what a notice of the scheduler does to the table.
-/

namespace DriverHost

/-- What the driver sees of a task. -/
structure TaskRecord where
  /-- The task's number, minus one before it is claimed. -/
  pid : Int := -1
  /-- One once the task has ended. -/
  terminated : Int := 0
  /-- The scheduler's own word. -/
  object : UInt64 := 0
  /-- The driver's own word. -/
  userData : UInt64 := 0
deriving DecidableEq, Repr

/-- The records of all tasks. -/
structure TaskTable where
  /-- The record of a task. -/
  record : TaskId → TaskRecord := fun _ => {}

namespace TaskTable

/-- The number has a record. -/
def covers (task : TaskId) : Bool :=
  task ≤ maxThreads

/-- The record of a task, for the numbers a task can have. -/
def get? (table : TaskTable) (task : TaskId) : Option TaskRecord :=
  if covers task then some (table.record task) else none

/-- Change the record of a task, if it has one. -/
def modify (table : TaskTable) (task : TaskId) (change : TaskRecord → TaskRecord) : TaskTable :=
  if covers task then
    { record := fun other => if other = task then change (table.record task)
        else table.record other }
  else table

/-- Fill in the record of a task that was just created; its driver word stays. -/
def claim (table : TaskTable) (task : TaskId) : TaskTable :=
  table.modify task fun record =>
    { record with pid := task, terminated := 0, object := UInt64.ofNat task }

/-- Record that a task has ended. -/
def markTerminated (table : TaskTable) (task : TaskId) : TaskTable :=
  table.modify task fun record => { record with terminated := 1 }

/-- Store the driver's word of a task. -/
def setUserData (table : TaskTable) (task : TaskId) (value : UInt64) : TaskTable :=
  table.modify task fun record => { record with userData := value }

/-- A change reaches the record of its task and no other. -/
theorem get?_modify (table : TaskTable) (task other : TaskId)
    (change : TaskRecord → TaskRecord) :
    (table.modify task change).get? other =
      if other = task then (table.get? other).map change else table.get? other := by
  unfold modify get?
  grind

end TaskTable

/-- The table, the task whose record is the current one, and whether they are in use. -/
structure KernelThreads where
  table : TaskTable := {}
  /-- The task whose record is current, if one was ever set. -/
  current : Option TaskId := none
  /-- The services behind the driver's entry points have been chosen. -/
  installed : Bool := false

namespace KernelThreads

/-- The record of the current task. -/
def currentRecord? (threads : KernelThreads) : Option TaskRecord :=
  threads.current.bind threads.table.get?

/-- Put the table into use, once: the boot context gets its record and is current. -/
def install? (threads : KernelThreads) : Option KernelThreads :=
  if threads.installed then none
  else some { table := threads.table.claim bootTask, current := some bootTask, installed := true }

/-- The record of the task that has the processor is the current one. -/
def switchTo (threads : KernelThreads) (task : TaskId) : KernelThreads :=
  { threads with current := (threads.table.get? task).map fun _ => task }

/-- A task has ended. -/
def markTerminated (threads : KernelThreads) (task : TaskId) : KernelThreads :=
  { threads with table := threads.table.markTerminated task }

/-- Follow what the scheduler tells about its tasks. -/
def follow (threads : KernelThreads) : Notice → KernelThreads
  | .created _ => threads
  | .switched task => threads.switchTo task
  | .terminated task => threads.markTerminated task

/-- Create a thread and claim its record. -/
def create {ε : Type} (entry : ε) : Coroutine ε KernelThreads TaskId := do
  let task ← Coroutine.start entry
  Coroutine.act fun threads => .ok () { threads with table := threads.table.claim task }
  return task

end KernelThreads

end DriverHost
