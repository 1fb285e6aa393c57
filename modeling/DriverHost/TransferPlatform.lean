import DriverHost.Kernel
import DriverHost.PlatformDevice

/-!
# The transfer platform

What the protocol engine of the VideoCore needs from the board.  Bringing the platform up
takes eight steps in a fixed order, and the first one that fails ends it: memory shared with
the VideoCore, the engine's slots, the fragments behind them, the engine's state, the
doorbell's registers, its interrupt, and the call of the firmware that tells it where the
slots are.  Afterwards the platform rings the doorbell for events of the other side and
passes its own doorbell on to the engine.

Main results:

- Structure `Engine` is what the platform calls, with any behaviour.
- Definition `Kernel.bringUp` and definition `PlatformError.errno`.
- Definitions `Kernel.signal` and `Kernel.serveDoorbell`.
-/

namespace DriverHost

/-- A result code shared with the engine. -/
inductive TransferStatus where
  | error
  | success
  | retry
deriving DecidableEq, Repr

/-- The code's number. -/
def TransferStatus.number : TransferStatus → Int
  | error => -1
  | success => 0
  | retry => 1

/-- Why the platform did not come up. -/
inductive PlatformError where
  /-- The device shares no memory of the size needed. -/
  | noDmaMemory (size : UInt64)
  /-- The engine refused the memory for its slots. -/
  | slotInit
  /-- The engine's state could not be set up. -/
  | stateInit
  /-- The device has no window of registers. -/
  | noRegisters
  /-- The device has no interrupt. -/
  | noIrq
  /-- The interrupt could not be connected. -/
  | irqRequest (irq : Nat) (source : IrqError)
  /-- The firmware could not be called. -/
  | firmware (source : MailboxError)
  /-- The firmware refused the slots. -/
  | channelBase (status : UInt32)
deriving DecidableEq, Repr

namespace PlatformError

/-- The wording of a platform error. -/
def message : PlatformError → String
  | noDmaMemory size => "could not allocate " ++ toString size.toNat ++ " bytes of DMA memory"
  | slotInit => "VCHIQ core rejected the slot memory"
  | stateInit => "VCHIQ core state initialisation failed"
  | noRegisters => "doorbell register window missing"
  | noIrq => "failed to get IRQ"
  | irqRequest irq _ => "failed to register irq=" ++ toString irq
  | firmware _ => "firmware property call failed"
  | channelBase status => "failed to set channelbase, firmware answered " ++ hexText status.toNat

/-- The number a driver's probe answers with. -/
def errno : PlatformError → Int
  | noDmaMemory _ => -12
  | slotInit | stateInit => -22
  | noRegisters | firmware _ => -19
  | noIrq | channelBase _ => -6
  | irqRequest _ _ => -16

end PlatformError

/-- The source behind log lines of the platform. -/
def platformLogSource : String := "linuxemu::vchiq::arm"

/-- Bytes of a cache line. -/
def cacheLineSize : UInt64 := 64

/-- Bytes of a message slot. -/
def slotSize : UInt64 := 4096

/-- Slots: one for bookkeeping and thirty-two for each side. -/
def totalSlots : UInt64 := 65

/-- Bytes of all slots. -/
def slotMemorySize : UInt64 := 266240

/-- Bytes of all fragments. -/
def fragmentMemorySize : UInt64 := 8192

/-- Bytes of shared memory the platform needs. -/
def sharedMemorySize : UInt64 := slotMemorySize + fragmentMemorySize

/-- The slots take a whole number of pages. -/
theorem slotMemorySize_eq : pageAlign (totalSlots * slotSize) = .ok slotMemorySize := by
  rfl

/-- The fragments take a whole number of pages. -/
theorem fragmentMemorySize_eq :
    pageAlign (2 * cacheLineSize * UInt64.ofNat FragmentPool.maxFragments) =
      .ok fragmentMemorySize := by
  rfl

/-- An event of the other side: whether it waits for it, and whether it has happened. -/
structure RemoteEvent where
  armed : Int32 := 0
  fired : Int32 := 0
deriving DecidableEq, Repr

/-- The other side waits for the event. -/
def RemoteEvent.isArmed (event : RemoteEvent) : Bool :=
  event.armed != 0

/-- The event has happened. -/
def RemoteEvent.isFired (event : RemoteEvent) : Bool :=
  event.fired != 0

/-- What the platform calls: the protocol engine and the firmware. -/
structure Engine (η κ : Type) where
  /-- Lay out the slots in memory; the answer is where the platform's words are, or nothing
  if the memory will not do. -/
  initSlots : UInt64 → UInt64 → Action (Kernel η κ) (Option UInt64)
  /-- Set up the engine's state on top of the slots. -/
  initState : Action (Kernel η κ) TransferStatus
  /-- Tell whoever waits that the connection is up. -/
  callConnected : Action (Kernel η κ) Unit
  /-- Tell the firmware the bus address of the slots; the answer is its status. -/
  initFirmware : UInt32 → Action (Kernel η κ) (Except MailboxError UInt32)

namespace Kernel

variable {η κ : Type}

/-! ## Bringing the platform up -/

/-- Report and go on. -/
def report (severity : Severity) (message : String) : Action (Kernel η κ) Unit := fun kernel =>
  .ok () (kernel.log severity platformLogSource message)

/-- Change what the platform keeps. -/
def updatePlatform (change : TransferPlatform → TransferPlatform) : Action (Kernel η κ) Unit :=
  fun kernel => .ok () { kernel with platform := change kernel.platform }

/-- Tell the VideoCore about the fragments, in the two words of the platform. -/
def storePlatformWords (words : UInt64) (fragments : UInt32) : Action (Kernel η κ) Unit :=
  memoryView.lift fun memory =>
    .ok () ((memory.setWord words fragments).setWord (words + 4)
      (UInt32.ofNat FragmentPool.maxFragments))

/-- Hand the memory behind the slots to the pool of fragments. -/
def refillFragments (slots : UInt64) : Action (Kernel η κ) Unit := fun kernel =>
  let filled := do
    kernel.platform.fragments.refill (← addWords slots slotMemorySize)
      FragmentPool.maxFragments cacheLineSize
  match filled with
  | .error cause => .error cause kernel
  | .ok fragments => .ok () { kernel with platform := { kernel.platform with fragments } }

/-- Connect the doorbell's interrupt. -/
def connectDoorbell (irq : Nat) (handler : η) : Action (Kernel η κ) (Except IrqError Unit) :=
  fun kernel =>
    match kernel.interrupts.connect irq ⟨"VCHIQ doorbell", handler⟩ kernel.board with
    | .error e => .ok (.error e) kernel
    | .ok (interrupts, board) => .ok (.ok ()) { kernel with interrupts, board }

/-- Bring the platform up with a device, and stop at the first step that fails. -/
def bringUp (engine : Engine η κ) (doorbell : η) (device : PlatformDevice) :
    Action (Kernel η κ) (Except PlatformError Unit) := do
  let some (slots, slotsBus) ← device.allocCoherent? sharedMemorySize
    | report .error "could not allocate DMA memory"
      return .error (.noDmaMemory sharedMemorySize)
  if !(← isAligned slots pageSize) then
    report .warning ("slot memory at " ++ hexText slots.toNat ++ " is not page aligned")
  let some words ← engine.initSlots slots slotMemorySize
    | return .error .slotInit
  storePlatformWords words (slotsBus + slotMemorySize.toUInt32)
  refillFragments slots
  if (← engine.initState) ≠ .success then
    return .error .stateInit
  let some registers := device.resource? ResourceFlags.registers 0
    | return .error .noRegisters
  updatePlatform fun platform => { platform with doorbell := registers.start }
  let irq := ((device.irq? 0).getD 0).toNat
  if irq = 0 then
    report .error "failed to get IRQ"
    return .error .noIrq
  let connected ← connectDoorbell irq doorbell
  if let .error source := connected then
    return .error (.irqRequest irq source)
  match ← engine.initFirmware slotsBus with
  | .error source => return .error (.firmware source)
  | .ok status =>
    if status ≠ 0 then
      report .error "failed to set channelbase"
      return .error (.channelBase status)
    report .notice ("vchiq_init - done (slots " ++ hexText slots.toNat ++ ", phys " ++
      hexTextWide 10 slotsBus.toNat ++ ")")
    engine.callConnected
    return .ok ()

/-! ## The engine's state on this side -/

/-- Let the engine set its state on this side up; it counts as set up only if the engine
agrees. -/
def initEngineState (setUp : Action (Kernel η κ) TransferStatus) :
    Action (Kernel η κ) TransferStatus := do
  updatePlatform fun platform => { platform with inited := true }
  let status ← setUp
  if status ≠ .success then
    updatePlatform fun platform => { platform with inited := false }
  return status

/-- The engine's state on this side, a bug before it is set up. -/
def engineState : Action (Kernel η κ) UInt32 := fun kernel =>
  if kernel.platform.inited then .ok kernel.platform.engineState kernel
  else .error (.bug none) kernel

/-! ## Doorbells -/

/-- Where the register is that says whether the VideoCore rang. -/
def ownBellOffset : UInt64 := 0

/-- Where the register is that rings the VideoCore. -/
def farBellOffset : UInt64 := 8

/-- Set in the own bell when the VideoCore rang. -/
def rungFlag : UInt32 := 4

/-- Make an event happen, and ring the VideoCore if it waits for it. -/
def signal (event : RemoteEvent) : Action (Kernel η κ) RemoteEvent := fun kernel =>
  let event := { event with fired := 1 }
  let doorbell := kernel.platform.doorbell
  if event.isArmed && doorbell != 0 then
    memoryView.lift (fun memory =>
      .ok event (Bus.save (doorbell + farBellOffset) (0 : UInt32) memory)) kernel
  else .ok event kernel

/-- Service the doorbell: if the VideoCore rang, the engine looks at its events. -/
def serveDoorbell {ε : Type} (poll : Coroutine ε (Kernel η κ) Unit) :
    Coroutine ε (Kernel η κ) IrqReturn := do
  let rung ← Coroutine.act fun kernel =>
    let doorbell := kernel.platform.doorbell
    if doorbell = 0 then .ok false kernel
    else
      memoryView.lift (fun memory =>
        let (status, memory) := Bus.load (doorbell + ownBellOffset) memory
        .ok (status &&& rungFlag != 0) memory) kernel
  if rung then
    poll
    return .handled
  else return .unclaimed

/-! ## Power -/

/-- What the platform says about itself. -/
def describePlatform : String := "  Platform: 2835 (VC master)"

/-- Report on the use of the VideoCore. -/
def reportUse : Action (Kernel η κ) Unit :=
  report .notice "Suspend timer not in use"

/-- The platform cannot be suspended. -/
def suspend : TransferStatus := .error

/-- The platform never was suspended. -/
def resume : TransferStatus := .success

/-- Nothing ever turns the VideoCore off. -/
def videoCoreWanted : Bool := true

/-- There is no timer to turn it off. -/
def usesSuspendTimer : Bool := false

end Kernel

end DriverHost
