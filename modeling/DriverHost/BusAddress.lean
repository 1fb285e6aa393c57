import DriverHost.Alignment

/-!
# Bus addresses

The VideoCore sees the low gigabyte of memory through an alias that bypasses its caches: the
two top bits of a bus address are set.  An address map takes processor addresses to bus
addresses; besides the alias there are maps that place the pages of one buffer anywhere.
One megabyte of memory is set aside for both sides, in pages with fixed uses.

Main results:

- Definitions `busOfPhysical` and `physicalOfBus`, inverse to each other on the low gigabyte.
- Definition `AddressMap.busAddress`.
- Structure `CoherentRegion` with its pages and its half for transfers.
-/

namespace DriverHost

/-- The bits that select the alias without caches. -/
def aliasBits : UInt32 := 0xc0000000

/-- The bus address of a processor address in the low gigabyte. -/
def busOfPhysical (address : UInt64) : UInt32 :=
  (address.toUInt32 &&& ~~~aliasBits) ||| aliasBits

/-- The processor address behind a bus address. -/
def physicalOfBus (bus : UInt32) : UInt64 :=
  (bus &&& ~~~aliasBits).toUInt64

/-- How processor addresses are seen on the bus. -/
inductive AddressMap where
  /-- Through the alias without caches. -/
  | direct
  /-- The pages from a base on at frames of their own, all other addresses unchanged. -/
  | frames (base : UInt64) (pages : Array UInt32)
deriving DecidableEq, Repr

/-- The bus address of a processor address. -/
def AddressMap.busAddress : AddressMap → UInt64 → UInt32
  | .direct, address => busOfPhysical address
  | .frames base pages, address =>
      if base ≤ address then
        match pages[((address - base) / pageSize).toNat]? with
        | some frame => frame ||| (pageOffset address).toUInt32
        | none => address.toUInt32
      else address.toUInt32

/-! ## Fixed places -/

/-- Where the devices begin. -/
def peripheralBase : UInt64 := 0x3f000000

/-- The registers of the interrupt controller. -/
def interruptRegisters : UInt64 := peripheralBase + 0xb200

/-- The registers of the system timer. -/
def timerRegisters : UInt64 := peripheralBase + 0x3000

/-- The registers of the mailbox to the firmware. -/
def mailboxRegisters : UInt64 := peripheralBase + 0xb880

/-- The first and the last address of the doorbell registers. -/
def doorbellRegisters : UInt64 × UInt64 :=
  (peripheralBase + 0xb840, peripheralBase + 0xb84f)

/-! ## The coherent region -/

/-- Memory that both processors use without caches. -/
structure CoherentRegion where
  /-- Its first address. -/
  base : UInt64 := 0x01c00000
deriving DecidableEq, Repr

namespace CoherentRegion

/-- Bytes of the region. -/
def size : UInt64 := 0x00100000

/-- The page that holds the firmware's mailbox buffer. -/
def mailboxSlot : UInt64 := 4

/-- The first page set aside for transfers. -/
def firstTransferSlot : UInt64 := size / pageSize / 2

/-- The last page set aside for transfers. -/
def lastTransferSlot : UInt64 := size / pageSize - 1

/-- The address of a page of the region. -/
def page (region : CoherentRegion) (slot : UInt64) : Except Fault UInt64 := do
  addWords region.base (← mulWords slot pageSize)

/-- The first and the last address set aside for transfers. -/
def transferRange (region : CoherentRegion) : Except Fault (UInt64 × UInt64) := do
  let first ← region.page firstTransferSlot
  let stop ← addWords (← region.page lastTransferSlot) pageSize
  return (first, stop - 1)

end CoherentRegion

end DriverHost
