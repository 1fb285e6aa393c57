import DriverHost.BusAddress
import DriverHost.Interrupt

/-!
# Platform devices

A device carries at most four resources, each a range of addresses or interrupt numbers with
flags that say of which kind it is, and at most one range of memory that it shares with the
processor.  A range that ends before it begins, a resource of no kind and a fifth resource
are bugs.

Main results:

- Definitions `PlatformDevice.addResource`, `resource?`, `irq?` and `allocCoherent?`.
- Definition `transferDevice` is the device as it is wired on the board.
-/

namespace DriverHost

/-- Kinds of a resource, as bits. -/
abbrev ResourceFlags : Type := UInt32

namespace ResourceFlags

/-- A window of registers. -/
def registers : ResourceFlags := 0x200

/-- Interrupt numbers. -/
def interrupt : ResourceFlags := 0x400

/-- Memory shared with the processor. -/
def dma : ResourceFlags := 0x800

/-- All kinds there are. -/
def all : ResourceFlags := 0xe00

/-- The kinds among some bits; other bits mean nothing. -/
def ofBits (bits : UInt32) : ResourceFlags :=
  bits &&& all

/-- Some kinds are all among others. -/
def contains (flags wanted : ResourceFlags) : Bool :=
  flags &&& wanted == wanted

end ResourceFlags

/-- A range with its kinds; the last address belongs to it. -/
structure Resource where
  start : UInt64
  stop : UInt64
  flags : ResourceFlags
deriving DecidableEq, Repr

/-- How much a range covers. -/
def Resource.size (resource : Resource) : Except Fault UInt64 := do
  addWords (← subWords resource.stop resource.start) 1

/-- The resources of a device and the memory it shares. -/
structure PlatformDevice where
  resources : List Resource := []
  dmaMemory : Option Resource := none
deriving DecidableEq, Repr

namespace PlatformDevice

/-- Resources a device can carry. -/
def maxResources : Nat := 4

/-- Add a resource behind the others. -/
def addResource (device : PlatformDevice) (start stop : UInt64) (flags : ResourceFlags) :
    Except Fault PlatformDevice := do
  bugIf (stop < start)
  bugIf (flags == 0)
  bugIf (maxResources ≤ device.resources.length)
  return { device with resources := device.resources ++ [⟨start, stop, flags⟩] }

/-- Declare the memory the device shares with the processor. -/
def setDmaMemory (device : PlatformDevice) (start stop : UInt64) : Except Fault PlatformDevice := do
  bugIf (stop < start)
  return { device with dmaMemory := some ⟨start, stop, ResourceFlags.dma⟩ }

/-- The resource at a position among those of some kinds. -/
def resource? (device : PlatformDevice) (flags : ResourceFlags) (index : Nat) : Option Resource :=
  (device.resources.filter fun resource => resource.flags.contains flags)[index]?

/-- The interrupt number at a position. -/
def irq? (device : PlatformDevice) (index : Nat) : Option UInt64 :=
  (device.resource? ResourceFlags.interrupt index).map Resource.start

/-- All the shared memory, as the processor and as the VideoCore see it, if it holds a number
of bytes and does not begin at address zero. -/
def allocCoherent? (device : PlatformDevice) (size : UInt64) :
    Except Fault (Option (UInt64 × UInt32)) :=
  match device.dmaMemory with
  | none => .ok none
  | some memory => do
      if (← memory.size) < size ∨ memory.start = 0 then return none
      else return some (memory.start, busOfPhysical memory.start)

end PlatformDevice

/-- The device as wired on the board: the doorbell's registers and interrupt, and the half of
the coherent region that is set aside for transfers. -/
def transferDevice (region : CoherentRegion) : Except Fault PlatformDevice := do
  let (first, last) := doorbellRegisters
  let device ← PlatformDevice.addResource {} first last ResourceFlags.registers
  let doorbell := UInt64.ofNat InterruptController.doorbellSource
  let device ← device.addResource doorbell doorbell ResourceFlags.interrupt
  let (first, last) ← region.transferRange
  device.setDmaMemory first last

end DriverHost
