import DriverHost.Bulk
import DriverHost.TaskTable

/-!
# Traces

A trace is everything that happened in a run, in order: the operations that finished with
their answers, the text that reached the console, and whatever the operations caused in
between.  Text is collected between two records.  A fault is always the last record.

Main results:

- Inductive types `Reply` and `Record`.
- Definitions `PageListView.of` and `BulkView.of` read a page list and a transfer as they
  stand in memory.
-/

namespace DriverHost.Script

/-- A page list with what its words in memory say. -/
structure PageListView where
  list : PageList
  kind : UInt16
  runs : List PageRun
deriving DecidableEq, Repr

/-- Read a page list as it stands in memory. -/
def PageListView.of (memory : Memory) (list : PageList) : PageListView :=
  { list, kind := list.kind memory, runs := list.runs memory }

/-- A transfer with what the words of its page list say. -/
structure BulkView where
  bulk : Bulk
  pageList : Option PageListView
deriving DecidableEq, Repr

/-- Read a transfer as it stands in memory. -/
def BulkView.of (memory : Memory) (bulk : Bulk) : BulkView :=
  { bulk, pageList := bulk.pageList.map (PageListView.of memory) }

/-- What the services refuse. -/
inductive Refusal where
  | block (error : AllocError)
  | irq (error : IrqError)
  | pageList (error : PageListError)
  | mailbox (error : MailboxError)
  | platform (error : PlatformError)
  /-- The services behind the driver's entry points are chosen already. -/
  | alreadyInstalled
deriving DecidableEq, Repr

/-- The answer of an operation. -/
inductive Reply where
  | nothing
  | flag (value : Bool)
  | number (value : Int)
  | numbers (values : List Nat)
  | text (value : String)
  /-- Bytes of memory, each with how often it is repeated. -/
  | spans (spans : List (Nat × UInt8))
  /-- Whether a unit was taken, and how many are left. -/
  | attempt (taken : Bool) (left : UInt32)
  /-- The readers of a lock, and whether a writer has it. -/
  | sides (readers : UInt32) (writer : Bool)
  /-- What a driver's entry point returned, and the state of its lock. -/
  | returned (code : Int) (state : Reply)
  | task (id : TaskId) (state : TaskState)
  | taskRecord (record : TaskRecord)
  | layout (layout : Layout)
  | irqReturn (result : IrqReturn)
  | pageList (view : PageListView)
  | resource (resource : Resource)
  /-- The address of shared memory, as the processor and as the VideoCore see it. -/
  | sharedMemory (address : UInt64) (bus : UInt32)
  /-- The status the firmware gave. -/
  | firmwareStatus (status : UInt32)
  /-- The words of a buffer the firmware answered in. -/
  | firmwareWords (words : List UInt32)
  | event (event : RemoteEvent)
  /-- Whether the VideoCore is wanted, and whether a timer would turn it off. -/
  | power (wanted timer : Bool)
  | bulk (view : BulkView)
  /-- The status of an operation on a transfer, and the transfer. -/
  | bulkStatus (status : Option TransferStatus) (view : BulkView)
  | refused (refusal : Refusal)
deriving Repr

/-- A call of the protocol engine. -/
inductive EngineCall where
  | initSlots (memory size : UInt64)
  | initState
  | initEngineState (counter : UInt32)
  | platformState (status : TransferStatus)
  | poll
  | connected
deriving DecidableEq, Repr

/-- One thing that happened. -/
inductive Record where
  /-- A task finished an operation. -/
  | finished (task : TaskId) (label : String) (reply : Reply)
  /-- Text that reached the console since the record before. -/
  | printed (text : String)
  /-- The console was flushed. -/
  | flushed
  /-- Another task has the processor. -/
  | switched (task : TaskId)
  /-- The body of a thread has returned. -/
  | terminated (task : TaskId)
  /-- A task gave the processor up to what the script has ready for that. -/
  | pausing (task : TaskId)
  /-- A handler was called for an interrupt. -/
  | interrupted (task : TaskId) (handler : String)
  /-- A handler was called for a tick of the timer. -/
  | ticked (task : TaskId) (handler : Nat)
  /-- The protocol engine was called. -/
  | engine (task : TaskId) (call : EngineCall)
  /-- The firmware was told where the slots are. -/
  | firmware (task : TaskId) (base : UInt32)
  /-- The system ended. -/
  | ended (cause : Fault)
deriving Repr

end DriverHost.Script
