import DriverHost.Lock.ReadWrite
import DriverHost.Message
import DriverHost.Script.Operation
import DriverHost.Script.Trace
import DriverHost.SystemTimer

/-!
# The world of a script

A script runs in a world of its own: the kernel's services, surrounded by the locks, pools,
page lists, transfers and counters that its operations name, and by the trace so far.  Every
record is written by the task that has the processor, after the text that reached the
console in the meantime.

Main results:

- Structure `Bench` and abbreviation `World`.
- Definitions `emit` and `Bench.hear` write the trace.
- Definition `worldOf` is the world a script begins in.
-/

namespace DriverHost.Script

/-- Who is told when the processor changes hands or a thread ends. -/
inductive Listener where
  | nobody
  /-- The trace. -/
  | trace
  /-- The table of task records. -/
  | taskTable
deriving DecidableEq, Repr

/-- What surrounds the kernel in a script. -/
structure Bench where
  /-- What happened, the last record first. -/
  trace : List Record := []
  /-- The task that has the processor. -/
  running : TaskId := bootTask
  counters : String → Int := fun _ => 0
  mutexes : Array Mutex := #[]
  semaphores : Array Semaphore := #[]
  readWriteLocks : Array ReadWriteLock := #[]
  /-- The steps to take at the next places where code would give the processor up. -/
  pauses : List (List Step) := []
  /-- What the clock shows next, and by how much it moves then. -/
  clock : UInt32 × UInt32 := (0, 0)
  threads : KernelThreads := {}
  onSwitch : Listener := .nobody
  onTermination : Listener := .nobody
  pool : Bump := { next := 0, stop := 0, name := "" }
  fragments : FragmentPool := {}
  lists : String → Option PageList := fun _ => none
  bulks : String → Option Bulk := fun _ => none
  events : Array RemoteEvent := Array.replicate 4 {}
  device : PlatformDevice := {}
  timer : SystemTimer Nat

/-- The state that the tasks of a script share. -/
abbrev World : Type := Kernel Handler Bench

/-- Code of a script, whose threads start at programs with a name. -/
abbrev Code (α : Type) : Type 1 := Coroutine String World α

/-! ## Writing the trace -/

/-- Collect the text that reached the console since the last record. -/
def collect (world : World) : World :=
  let text := world.board.console.pending
  if text.isEmpty then world
  else
    { world with
      board := { world.board with console := { world.board.console with pending := "" } }
      outside := { world.outside with trace := .printed text :: world.outside.trace } }

/-- Write a record. -/
def emit (record : Record) (world : World) : World :=
  let world := collect world
  { world with outside := { world.outside with trace := record :: world.outside.trace } }

/-- Write a record of the task that has the processor. -/
def note (record : TaskId → Record) : Action World Unit := fun world =>
  .ok () (emit (record world.outside.running) world)

/-- Change what surrounds the kernel. -/
def onBench (change : Bench → Bench) : Action World Unit := fun world =>
  .ok () { world with outside := change world.outside }

/-- Look at the world. -/
def look {α : Type} (view : World → α) : Action World α := fun world =>
  .ok (view world) world

/-- Report to the console. -/
def report (severity : Severity) (source message : String) : Action World Unit := fun world =>
  .ok () (world.log severity source message)

/-- Change the console. -/
def onConsole (change : Console → Console) : Action World Unit := fun world =>
  .ok () { world with board := { world.board with console := change world.board.console } }

/-- Change the memory. -/
def onMemory (change : Memory → Memory) : Action World Unit := fun world =>
  .ok () { world with board := { world.board with device := change world.board.device } }

/-- The memory. -/
def memory : Action World Memory := look fun world => world.board.device

/-! ## What the scheduler tells -/

/-- Tell a listener. -/
def Listener.hear (listener : Listener) (record : Record) (notice : Notice) (world : World) :
    World :=
  match listener with
  | .nobody => world
  | .trace => emit record world
  | .taskTable =>
      { world with
        outside := { world.outside with threads := world.outside.threads.follow notice } }

/-- The source behind log lines of the scheduler. -/
def schedulerLogSource : String := "linuxemu::sched"

/-- What a notice of the scheduler does. -/
def hear (notice : Notice) (world : World) : World :=
  match notice with
  | .created task =>
      world.log .debug schedulerLogSource ("created kernel thread " ++ toString task)
  | .switched task =>
      let world := { world with outside := { world.outside with running := task } }
      world.outside.onSwitch.hear (.switched task) notice world
  | .terminated task =>
      let world :=
        world.log .debug schedulerLogSource ("kernel thread " ++ toString task ++ " terminated")
      world.outside.onTermination.hear (.terminated task) notice world

/-! ## Parts of the world -/

/-- What surrounds the kernel. -/
def benchView : Coroutine.View World Bench where
  get world := world.outside
  set outside world := { world with outside }

/-- The mutex with a number. -/
def mutexView (index : Nat) : Coroutine.View World Mutex :=
  benchView.comp {
    get := fun bench => bench.mutexes.getD index {}
    set := fun mutex bench =>
      { bench with mutexes := bench.mutexes.setIfInBounds index mutex } }

/-- The semaphore with a number. -/
def semaphoreView (index : Nat) : Coroutine.View World Semaphore :=
  benchView.comp {
    get := fun bench => bench.semaphores.getD index {}
    set := fun semaphore bench =>
      { bench with semaphores := bench.semaphores.setIfInBounds index semaphore } }

/-- The read-write lock with a number. -/
def readWriteView (index : Nat) : Coroutine.View World ReadWriteLock :=
  benchView.comp {
    get := fun bench => bench.readWriteLocks.getD index {}
    set := fun lock bench =>
      { bench with readWriteLocks := bench.readWriteLocks.setIfInBounds index lock } }

/-- The table of task records. -/
def threadsView : Coroutine.View World KernelThreads :=
  benchView.comp {
    get := fun bench => bench.threads
    set := fun threads bench => { bench with threads } }

/-- The script's own pool of fragments, or the platform's. -/
def fragmentView (ofPlatform : Bool) : Coroutine.View World FragmentPool where
  get world := if ofPlatform then world.platform.fragments else world.outside.fragments
  set fragments world :=
    if ofPlatform then { world with platform := { world.platform with fragments } }
    else { world with outside := { world.outside with fragments } }

/-- What describing a buffer with the script's own pool works on. -/
def listView : Coroutine.View World TransferState where
  get world := ⟨world.board.device, world.heap, world.outside.fragments⟩
  set part world :=
    { world with
      board := { world.board with device := part.memory }
      heap := part.heap
      outside := { world.outside with fragments := part.fragments } }

/-- Read the script's clock. -/
def readClock : Action World UInt32 := fun world =>
  let (now, step) := world.outside.clock
  .ok now { world with outside := { world.outside with clock := (now + step, step) } }

/-! ## Beginning and waiting -/

/-- The world a script begins in. -/
def worldOf (script : Script) : World where
  board := { console := { level := Severity.ofRaw script.level }, device := Memory.zeroed }
  heap := Heap.ofRange script.heap.1 script.heap.2
  interrupts := { base := script.interruptBase }
  outside :=
    { mutexes := Array.replicate script.mutexes {}
      semaphores := (script.semaphores.map fun count => { count }).toArray
      readWriteLocks := Array.replicate script.readWriteLocks {}
      pauses := script.pauses
      clock := script.clock
      timer := { base := script.timerBase } }

/-- What the operations of a script need besides the world: the script, and how to take
nested steps. -/
structure Setting where
  script : Script
  nested : List Step → Code Unit

/-- How often one operation may give the processor up before it counts as blocked. -/
def pauseBudget : Nat := 200

/-- Take the next steps that the script has ready, blocked if there are none left. -/
def takePause (setting : Setting) : Code Unit := do
  let steps ← Coroutine.act fun world =>
    match world.outside.pauses with
    | [] => .error .blocked world
    | steps :: pauses => .ok steps { world with outside := { world.outside with pauses } }
  Coroutine.act (note .pausing)
  setting.nested steps

/-- What code does where it would give the processor up. -/
def Setting.pause (setting : Setting) : Code Unit :=
  match setting.script.pausing with
  | .schedule => Coroutine.yield
  | .spin => pure ()
  | .scripted => takePause setting

/-- Code of one operation, which gives the processor up as the script has it. -/
def Setting.waiting {α : Type} (setting : Setting) (code : Code α) : Code α :=
  Coroutine.pausingBy setting.pause code pauseBudget

end DriverHost.Script
