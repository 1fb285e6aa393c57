import DriverHost.BusAddress
import DriverHost.Interrupt
import DriverHost.Mailbox
import DriverHost.PageList

/-!
# The kernel's services

The state behind the services that drivers use together: the board with its memory and
console, the kernel heap, the interrupt controller, and what the transfer platform keeps.
Whatever surrounds the kernel adds a state of its own, which the kernel never looks at.

Main results:

- Structure `Kernel` with views of its parts.
- Definitions `Kernel.allocate` and `Kernel.allocateZeroed` report what they refuse.
-/

namespace DriverHost

/-- What the transfer platform keeps. -/
structure TransferPlatform where
  /-- The fragments of transfers that are not aligned. -/
  fragments : FragmentPool := {}
  /-- Where the doorbell's registers are, zero before they are known. -/
  doorbell : UInt64 := 0
  /-- The engine's own state has been set up. -/
  inited : Bool := false
  /-- The engine's own state. -/
  engineState : UInt32 := 0
deriving DecidableEq, Repr

/-- The state behind the services, with handlers `η` and surroundings `κ`. -/
structure Kernel (η κ : Type) where
  board : Board Memory
  heap : Bump
  interrupts : InterruptController η
  platform : TransferPlatform := {}
  /-- What surrounds the kernel. -/
  outside : κ

namespace Kernel

variable {η κ : Type}

/-- Report to the console. -/
def log (kernel : Kernel η κ) (severity : Severity) (source message : String) : Kernel η κ :=
  { kernel with board := kernel.board.log severity source message }

/-- The board. -/
def boardView : Coroutine.View (Kernel η κ) (Board Memory) where
  get kernel := kernel.board
  set board kernel := { kernel with board }

/-- The memory of the board. -/
def memoryView : Coroutine.View (Kernel η κ) Memory where
  get kernel := kernel.board.device
  set device kernel := { kernel with board := { kernel.board with device } }

/-- The interrupt controller with the board. -/
def interruptView : Coroutine.View (Kernel η κ) (Interrupts η Memory) where
  get kernel := ⟨kernel.interrupts, kernel.board⟩
  set part kernel := { kernel with interrupts := part.controller, board := part.board }

/-- What describing a buffer for the transfer platform works on. -/
def transferView : Coroutine.View (Kernel η κ) TransferState where
  get kernel := ⟨kernel.board.device, kernel.heap, kernel.platform.fragments⟩
  set part kernel :=
    { kernel with
      board := { kernel.board with device := part.memory }
      heap := part.heap
      platform := { kernel.platform with fragments := part.fragments } }

/-- A block of the heap. -/
def allocate (size : UInt64) : Action (Kernel η κ) (Except AllocError UInt64) := fun kernel =>
  match Heap.allocate kernel.heap size with
  | .error cause => .error cause kernel
  | .ok (.error e) => .ok (.error e) kernel
  | .ok (.ok (start, heap)) => .ok (.ok start) { kernel with heap }

/-- A cleared block of the heap. -/
def allocateZeroed (size : UInt64) : Action (Kernel η κ) (Except AllocError UInt64) :=
  fun kernel =>
    match Heap.allocateZeroed kernel.heap kernel.board.device size with
    | .error cause => .error cause kernel
    | .ok (.error e) => .ok (.error e) kernel
    | .ok (.ok (start, heap, device)) =>
        .ok (.ok start) { kernel with heap, board := { kernel.board with device } }

/-- The address a driver gets for a block: zero for a block it was refused, and the log then
tells why. -/
def blockOrNull (result : Except AllocError UInt64) : Action (Kernel η κ) UInt64 := fun kernel =>
  match result with
  | .ok start => .ok start kernel
  | .error e => .ok 0 (kernel.log .warning "linuxemu::linux::slab" e.message)

end Kernel

end DriverHost
