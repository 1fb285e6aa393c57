import DriverHost.Script.Trace

/-!
# Operations

A script is a list of operations on a fresh system, with the threads, handlers and stand-ins
that it needs.  Every operation is named by a label, under which its answer appears in the
trace.  Repeating a list of operations has no answer of its own.

Main results:

- Inductive type `Step` and structure `Script`.
-/

namespace DriverHost.Script

/-- Operations on memory and on the script's own counters. -/
inductive PlainOp where
  /-- Say something, which is also the answer. -/
  | note (words : Reply)
  | counter (name : String)
  /-- Read a counter, give the processor up so often, and store what was read and more. -/
  | addTo (name : String) (amount : Int) (pauses : Nat)
  | peek (address : UInt64) (count : Nat)
  | fill (address : UInt64) (count : Nat) (byte : UInt8) (ramp : Bool)
  | pokeWord (address : UInt64) (value : UInt32)
  | peekWords (address : UInt64) (count : Nat)

/-- Operations on the console and the log. -/
inductive ConsoleOp where
  | log (source : String) (level : UInt32) (parts : List String)
  | setLevel (level : UInt32)
  | print (text : String)
  | printLine (text : String)
  | printk (parts : List String)
  /-- A kernel message that comes as bytes, or not at all. -/
  | printkBytes (bytes : Option (List UInt8))
  /-- Write through the console, flush it, and offer another console. -/
  | replaceConsole (text : String)
  | bug (site : Site)
  | assertion (condition : String) (site : Site)
  | setCore (core : UInt64)
  | requireBootCore

/-- Operations on the locks with a number. -/
inductive LockOp where
  | mutexLock
  | mutexUnlock
  | mutexReset
  | mutexState
  | down
  | up
  | tryDown
  | semaphoreReset (count : UInt32)
  | semaphoreStart (count : Int)
  | semaphoreState
  | readLock
  | readUnlock
  | writeLock
  | writeUnlock
  | readWriteReset
  | readWriteState
  | readWriteWord (word : UInt32)

/-- Operations on tasks. -/
inductive TaskOp where
  | spawn (program : String)
  | runOnce
  | run
  | rounds (count : Nat)
  | giveUp
  | spin
  | live
  | current
  | state (task : TaskId)
  | watchSwitches
  | watchTerminations
  /-- Sleep on the script's clock, or on the system timer. -/
  | sleep (millis : UInt32) (onTimer : Bool)
  | record (task : TaskId)
  | claim (task : TaskId)
  | markTerminated (task : TaskId)
  | setUserData (task : TaskId) (value : UInt64)

/-- Operations on the kernel heap and on an allocator of its own. -/
inductive HeapOp where
  | allocate (size : UInt64)
  | allocateZeroed (size : UInt64)
  | free
  | left
  | poolNew (start stop : UInt64) (name : String)
  | poolLeft
  | poolLayout (size alignment : UInt64)
  | poolAllocate (size alignment : UInt64)
  | poolAllocateZeroed (size alignment : UInt64)
  | poolFree

/-- Who handles an interrupt. -/
inductive Handler where
  | timer
  | platform
  | scripted (name : String)
deriving DecidableEq, Repr

/-- The name a handler is known by. -/
def Handler.name : Handler → String
  | timer => "timer"
  | platform => "arm"
  | scripted name => name

/-- Operations on the interrupt controller and the system timer. -/
inductive InterruptOp where
  | connect (irq : Nat) (handler : Handler)
  | disconnect (irq : Nat)
  | enable (irq : Nat)
  | disable (irq : Nat)
  | pending
  | dispatch
  | timerStart
  | timerNow
  | timerPeriodic (handler : Nat)
  | timerHandle
  /-- Busy-wait while the counter moves by a step between readings. -/
  | timerDelay (duration : UInt32) (inMillis : Bool) (step : UInt32)

/-- Operations on a pool of fragments. -/
inductive PoolOp where
  | refill (base : UInt64) (count : Nat) (cacheLine : UInt64)
  | acquire
  | release (index : Nat)
  | state
  | address (index : UInt64)

/-- Operations on page lists. -/
inductive ListOp where
  | create (id : String) (buffer length : UInt64) (direction : Direction)
  | finish (id : String) (actual : Int32)
  | view (id : String)

/-- Operations on the device. -/
inductive DeviceOp where
  | clear
  | wired (base : Option UInt64)
  | add (start stop : UInt64) (flags : UInt32)
  | share (start stop : UInt64)
  | resource (flags : UInt32) (index : Nat)
  | size (flags : UInt32) (index : Nat)
  | irq (index : Nat)
  | allocate (size : UInt64)

/-- How a firmware behaves that stands in for the real one. -/
structure FirmwareModel where
  /-- Nothing can ever be sent. -/
  full : Bool := false
  /-- Words it writes into the buffer. -/
  words : List (Nat × UInt32) := []
  /-- Words for others that it sends first. -/
  junk : List UInt32 := []
  /-- It sends the buffer back. -/
  answers : Bool := true

/-- A mailbox with the firmware behind it. -/
structure MailboxSetup where
  registers : UInt64
  buffer : UInt64
  model : FirmwareModel

/-- Operations on the mailbox. -/
inductive MailboxOp where
  | initTransfers (base : UInt32)
  | call (channel base : UInt32)

/-- Operations on the transfer platform. -/
inductive PlatformOp where
  | bringUp
  | serveDoorbell
  | setEvent (index : Nat) (event : RemoteEvent)
  | signal (index : Nat)
  | initEngineState
  | engineState
  | suspend
  | resume
  | power
  | describe
  | reportUse
  | bulkNew (id : String) (direction : BulkDirection) (size : UInt64)
  | bulkActual (id : String) (actual : Int32)
  | bulkPrepare (id : String) (handle : UInt32) (buffer size : UInt64)
      (direction : BulkDirection)
  | bulkComplete (id : String)
  | bulkTransfer (id : String)

/-- The driver's own entry points. -/
inductive EntryOp where
  | install
  | current
  | createThread (program : String)
  | wakeUp
  | setNice
  | flushSignals
  | allocate (size : UInt64)
  | allocateZeroed (size : UInt64)
  | free (address : UInt64)
  | mutexLock
  | mutexLockInterruptible
  | mutexUnlock
  | down
  | downInterruptible
  | tryDown
  | up
  | readLock
  | readUnlock
  | writeLock
  | writeUnlock
  | bug (file : Option (List UInt8)) (line : UInt32)
  | assertion (condition file : Option (List UInt8)) (line : UInt32)

/-- An operation. -/
inductive Operation where
  | plain (op : PlainOp)
  | console (op : ConsoleOp)
  | lock (index : Nat) (op : LockOp)
  | task (op : TaskOp)
  | heap (op : HeapOp)
  | interrupt (op : InterruptOp)
  /-- On the script's own pool, or on the platform's. -/
  | pool (ofPlatform : Bool) (op : PoolOp)
  | list (op : ListOp)
  | device (op : DeviceOp)
  | mailbox (setup : MailboxSetup) (op : MailboxOp)
  | platform (op : PlatformOp)
  | entry (index : Nat) (op : EntryOp)

/-- A labelled operation, or steps that are repeated. -/
inductive Step where
  | perform (label : String) (operation : Operation)
  | repeating (count : Nat) (steps : List Step)

/-- What code does where it would give the processor up. -/
inductive Pausing where
  /-- It gives the processor up. -/
  | schedule
  /-- Nothing. -/
  | spin
  /-- The next steps that the script has ready for it. -/
  | scripted
deriving DecidableEq, Repr

/-- What a scripted interrupt handler does. -/
structure HandlerScript where
  steps : List Step := []
  /-- The interrupt was for it. -/
  claims : Bool := true

/-- How the protocol engine behaves that stands in for the real one. -/
structure EngineScript where
  /-- Where the platform's words are among the slots, if it takes the memory. -/
  slots : Option UInt64 := some 0
  initState : TransferStatus := .success
  engineState : TransferStatus := .success
  /-- Setting its state up includes its state on this side. -/
  setsEngineState : Bool := false
  /-- What it does when it looks at its events. -/
  onPoll : List Step := []

/-- How the firmware answers when it is told where the slots are. -/
inductive FirmwareScript where
  | answers (status : UInt32)
  | fails (error : MailboxError)
  | simulated (setup : MailboxSetup)

end DriverHost.Script

namespace DriverHost

open Script

/-- A run: its operations and everything they can reach. -/
structure Script where
  steps : List Step := []
  threads : List (String × List Step) := []
  level : UInt32 := 4
  heap : UInt64 × UInt64 := (0x2000000, 0x2100000)
  mutexes : Nat := 1
  semaphores : List UInt32 := [0]
  readWriteLocks : Nat := 1
  pausing : Pausing := .schedule
  pauses : List (List Step) := []
  /-- What the clock shows first, and by how much it moves on every reading. -/
  clock : UInt32 × UInt32 := (0, 250)
  addressMap : AddressMap := .direct
  engine : EngineScript := {}
  firmware : FirmwareScript := .answers 0
  handlers : List (String × HandlerScript) := []
  interruptBase : UInt64 := interruptRegisters
  timerBase : UInt64 := timerRegisters
  /-- Locks may only be touched on core zero. -/
  bootCoreOnly : Bool := false

end DriverHost
