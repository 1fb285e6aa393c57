import DriverHost.Script.World

/-!
# Operations on tasks, the console and the script's counters

Main results:

- Definitions `TaskOp.perform`, `ConsoleOp.perform` and `PlainOp.perform`.
-/

namespace DriverHost.Script

/-- The record of a task, as an answer. -/
def recordReply (record : Option TaskRecord) : Reply :=
  match record with
  | some record => .taskRecord record
  | none => .nothing

/-- The record of a task as it stands in the table, as an answer. -/
def tableReply (task : TaskId) : Action World Reply :=
  look fun world => recordReply (world.outside.threads.table.get? task)

/-- Change the table of task records. -/
def onTable (change : TaskTable → TaskTable) : Action World Unit :=
  onBench fun bench =>
    { bench with threads := { bench.threads with table := change bench.threads.table } }

/-- Read the counter of the script's system timer. -/
def readTimer : Action World UInt32 := fun world =>
  let (now, device) := world.outside.timer.now world.board.device
  .ok now { world with board := { world.board with device } }

/-- Run a number of rounds and count the turns of each. -/
def countRounds : Nat → Code (List Nat)
  | 0 => return []
  | more + 1 => do
      let count ← Coroutine.round Coroutine.done
      let counts ← countRounds more
      return count :: counts

/-- Perform an operation on tasks. -/
def TaskOp.perform : TaskOp → Code Reply
  | spawn program => do
      let task ← Coroutine.start program
      return .number task
  | runOnce => do
      let count ← Coroutine.round Coroutine.done
      return .number count
  | run => do
      Coroutine.drain (Coroutine.done ())
      return .nothing
  | rounds count => do
      let counts ← countRounds count
      return .numbers counts
  | giveUp => do
      Coroutine.yield
      return .nothing
  | spin => return .nothing
  | live => do
      let count ← Coroutine.survey fun scheduler _ => scheduler.live
      return .number count
  | current => do
      let task ← Coroutine.survey fun scheduler _ => scheduler.current
      return .number task
  | state task => do
      match ← Coroutine.survey fun scheduler _ => scheduler.task? task with
      | some entry => return .task entry.id entry.state
      | none => return .nothing
  | watchSwitches => do
      Coroutine.act (onBench fun bench => { bench with onSwitch := .trace })
      return .nothing
  | watchTerminations => do
      Coroutine.act (onBench fun bench => { bench with onTermination := .trace })
      return .nothing
  | sleep millis onTimer => do
      DriverHost.sleep (if onTimer then readTimer else readClock) millis
      Coroutine.act (look fun world => .number world.outside.clock.1.toNat)
  | record task => Coroutine.act (tableReply task)
  | claim task => do
      Coroutine.act (onTable fun table => table.claim task)
      Coroutine.act (tableReply task)
  | markTerminated task => do
      Coroutine.act (onTable fun table => table.markTerminated task)
      return .nothing
  | setUserData task value => do
      Coroutine.act (onTable fun table => table.setUserData task value)
      Coroutine.act (tableReply task)

/-- Log a kernel message; the answer counts its bytes. -/
def printkReply (message : Console → Nat × Console) : Action World Reply := fun world =>
  let (count, console) := message world.board.console
  .ok (.number count) { world with board := { world.board with console } }

/-- Perform an operation on the console and the log. -/
def ConsoleOp.perform : ConsoleOp → Code Reply
  | log source level parts => do
      Coroutine.act (report (Severity.ofRaw level) source (String.join parts))
      return .nothing
  | setLevel level => do
      Coroutine.act (onConsole fun console => { console with level := Severity.ofRaw level })
      return .nothing
  | print text => do
      Coroutine.act (onConsole fun console => console.write text)
      return .nothing
  | printLine text => do
      Coroutine.act (onConsole fun console => console.write (text ++ "\n"))
      return .nothing
  | printk parts => Coroutine.act (printkReply fun console => console.printk parts)
  | printkBytes none => return .number 0
  | printkBytes (some bytes) =>
      Coroutine.act (printkReply fun console => console.printkBytes bytes)
  | replaceConsole text => do
      Coroutine.act (onConsole fun console => console.write text)
      Coroutine.act (note fun _ => .flushed)
      return .flag false
  | bug site => Coroutine.fault (.bug (some site))
  | assertion condition site => Coroutine.fault (.assertion condition site)
  | setCore core => do
      Coroutine.moveTo core (Coroutine.done ())
      return .nothing
  | requireBootCore => do
      Coroutine.requireBootCore
      return .nothing

/-- Put one more value in front of values that are counted already. -/
def joinRun (byte : UInt8) : List (Nat × UInt8) → List (Nat × UInt8)
  | [] => [(1, byte)]
  | (count, next) :: more =>
      if byte = next then (count + 1, next) :: more else (1, byte) :: (count, next) :: more

/-- Values with how often each is repeated in a row. -/
def runLengths (bytes : List UInt8) : List (Nat × UInt8) :=
  bytes.foldr joinRun []

/-- Give the processor up a number of times. -/
def pauseTimes : Nat → Code Unit
  | 0 => return ()
  | more + 1 => do
      Coroutine.yield
      pauseTimes more

/-- The byte at an offset of a filled block. -/
def fillByte (byte : UInt8) (ramp : Bool) (offset : Nat) : UInt8 :=
  if ramp then byte + UInt8.ofNat offset else byte

/-- Perform an operation on memory or on the script's counters. -/
def PlainOp.perform (setting : Setting) : PlainOp → Code Reply
  | note words => return words
  | counter name => Coroutine.act (look fun world => .number (world.outside.counters name))
  | addTo name amount pauses => do
      let before ← Coroutine.act (look fun world => world.outside.counters name)
      setting.waiting (pauseTimes pauses)
      Coroutine.act (onBench fun bench =>
        { bench with
          counters := fun other =>
            if other = name then before + amount else bench.counters other })
      return .number (before + amount)
  | peek address count =>
      Coroutine.act (look fun world =>
        .spans (runLengths (world.board.device.bytes address count)))
  | fill address count byte ramp => do
      Coroutine.act (onMemory fun memory => memory.store address count (fillByte byte ramp))
      return .nothing
  | pokeWord address value => do
      Coroutine.act (onMemory fun memory => memory.setWord address value)
      return .nothing
  | peekWords address count =>
      Coroutine.act (look fun world =>
        .numbers ((world.board.device.words address count).map UInt32.toNat))

end DriverHost.Script
