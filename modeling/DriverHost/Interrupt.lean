import DriverHost.Console
import DriverHost.Coroutine
import DriverHost.Memory

/-!
# The interrupt controller

The controller raises seventy-two sources in three banks: two of thirty-two sources each for
the peripherals and one of eight sources beside the processor.  One register summarises
which banks have something pending.  Writing a one to an enable or disable register changes
that source's mask and no other.  The handler table has room for more numbers than there are
sources; the numbers past the last source have no mask.

Main results:

- Definitions `connect`, `disconnect` and `pending`.
- Definition `dispatch` services the pending source that comes first.
- Lemma `connect_eq_ok_iff` says when a handler is accepted.
-/

namespace DriverHost

/-- The lowest bit that is set in a number of the given width. -/
def lowestBit (width n : Nat) : Option Nat :=
  (List.range width).find? n.testBit

/-- What a handler did with an interrupt. -/
inductive IrqReturn where
  /-- The interrupt was not for it. -/
  | unclaimed
  | handled
deriving DecidableEq, Repr

/-- A handler with the name it is known by. -/
structure IrqDescriptor (η : Type) where
  name : String
  handler : η

/-- Why a handler was not connected. -/
inductive IrqError where
  /-- The table has no such number. -/
  | outOfRange (irq : Nat)
  /-- The number is taken. -/
  | alreadyRegistered (irq : Nat)
deriving DecidableEq, Repr

/-- The wording of an interrupt error. -/
def IrqError.message : IrqError → String
  | .outOfRange irq => "IRQ " ++ toString irq ++ " is out of range"
  | .alreadyRegistered irq => "IRQ " ++ toString irq ++ " already has a handler"

/-- The registers' place and the handler of each number. -/
structure InterruptController (η : Type) where
  /-- Where the registers are. -/
  base : UInt64
  /-- Who handles a number. -/
  handler : Nat → Option (IrqDescriptor η) := fun _ => none

namespace InterruptController

variable {η δ : Type} [Bus δ]

/-- Sources the controller raises. -/
def sourceCount : Nat := 72

/-- Numbers the handler table has room for. -/
def tableSize : Nat := 128

/-- The system timer's first compare channel. -/
def timerSource : Nat := 1

/-- The doorbell that the VideoCore rings. -/
def doorbellSource : Nat := 66

/-- The source behind log lines of the controller. -/
def logSource : String := "linuxemu::platform::rpi3::interrupt"

/-- The bank of a number and its bit there, for the numbers that are sources. -/
def bank? (irq : Nat) : Option (UInt64 × UInt32) :=
  if irq < sourceCount then some (UInt64.ofNat (irq / 32), 1 <<< UInt32.ofNat (irq % 32)) else none

/-- Where the enable register of the first bank is; the other banks follow. -/
def enableOffset : UInt64 := 0x10

/-- Where the disable register of the first bank is; the other banks follow. -/
def disableOffset : UInt64 := 0x1c

/-- Write the bit of a source to the register of its bank in a group of three. -/
def writeMask (controller : InterruptController η) (group : UInt64) (irq : Nat) (device : δ) : δ :=
  match bank? irq with
  | some (bank, bit) => Bus.save (controller.base + group + 4 * bank) bit device
  | none => device

/-- Let a source through. -/
def enable (controller : InterruptController η) (irq : Nat) (device : δ) : δ :=
  controller.writeMask enableOffset irq device

/-- Hold a source back. -/
def disable (controller : InterruptController η) (irq : Nat) (device : δ) : δ :=
  controller.writeMask disableOffset irq device

/-- Replace the handler of a number. -/
def setHandler (controller : InterruptController η) (irq : Nat)
    (descriptor : Option (IrqDescriptor η)) : InterruptController η :=
  { controller with
    handler := fun other => if other = irq then descriptor else controller.handler other }

/-- Give a number its handler and let the source through. -/
def connect (controller : InterruptController η) (irq : Nat) (descriptor : IrqDescriptor η)
    (board : Board δ) : Except IrqError (InterruptController η × Board δ) :=
  if tableSize ≤ irq then .error (.outOfRange irq)
  else if (controller.handler irq).isSome then .error (.alreadyRegistered irq)
  else
    let board := { board with device := controller.enable irq board.device }
    .ok (controller.setHandler irq (some descriptor),
      board.log .debug logSource ("connected IRQ " ++ toString irq ++ " to " ++ descriptor.name))

/-- Hold a source back and forget its handler. -/
def disconnect (controller : InterruptController η) (irq : Nat) (device : δ) :
    InterruptController η × δ :=
  if tableSize ≤ irq then (controller, device)
  else (controller.setHandler irq none, controller.disable irq device)

/-- A handler is accepted exactly for a free number of the table. -/
theorem connect_eq_ok_iff (controller : InterruptController η) (irq : Nat)
    (descriptor : IrqDescriptor η) (board : Board δ) :
    (∃ result, controller.connect irq descriptor board = .ok result) ↔
      irq < tableSize ∧ controller.handler irq = none := by
  unfold connect
  split
  · next h => simp [Nat.not_lt.2 h]
  · split
    · next h =>
      simp only [Option.isSome_iff_exists] at h
      obtain ⟨other, h⟩ := h
      simp [h]
    · next h1 h2 =>
      simp only [Option.isSome_iff_exists, not_exists] at h2
      have free : controller.handler irq = none := by
        cases h : controller.handler irq with
        | none => rfl
        | some other => exact absurd h (h2 other)
      simp [free, Nat.lt_of_not_le h1]

/-- A handler table changes in one place. -/
@[simp] theorem handler_setHandler (controller : InterruptController η) (irq other : Nat)
    (descriptor : Option (IrqDescriptor η)) :
    (controller.setHandler irq descriptor).handler other =
      if other = irq then descriptor else controller.handler other := rfl

/-! ## Service -/

/-- The source of a pending bank that comes first, looked up if the summary names the bank. -/
def bankSource (controller : InterruptController η) (summary : UInt32) (bank : Nat) (device : δ) :
    Option Nat × δ :=
  if summary.toNat.testBit (8 + bank) then
    let (word, device) :=
      Bus.load (controller.base + 4 + 4 * UInt64.ofNat bank) device
    ((lowestBit 32 word.toNat).map (32 * bank + ·), device)
  else (none, device)

/-- The source to service next: the peripheral banks first, then the sources beside the
processor, each from its lowest number up. -/
def pending (controller : InterruptController η) (device : δ) : Option Nat × δ :=
  let (summary, device) := Bus.load controller.base device
  match controller.bankSource summary 0 device with
  | (some irq, device) => (some irq, device)
  | (none, device) =>
      match controller.bankSource summary 1 device with
      | (some irq, device) => (some irq, device)
      | (none, device) => ((lowestBit 8 summary.toNat).map (64 + ·), device)

end InterruptController

/-- A controller with the board it sits on. -/
structure Interrupts (η δ : Type) where
  controller : InterruptController η
  board : Board δ

namespace Interrupts

variable {η δ : Type} [Bus δ]

/-- Look up the source to service next. -/
def pending (interrupts : Interrupts η δ) : Option Nat × Interrupts η δ :=
  let (source, device) := interrupts.controller.pending interrupts.board.device
  (source, { interrupts with board := { interrupts.board with device } })

/-- Report on the board's console. -/
def log (interrupts : Interrupts η δ) (severity : Severity) (message : String) :
    Interrupts η δ :=
  { interrupts with
    board := interrupts.board.log severity InterruptController.logSource message }

/-- Service the source that comes first.  The answer is that source if it has a handler. -/
def dispatch {ε σ : Type} (view : Coroutine.View σ (Interrupts η δ))
    (serve : η → Coroutine ε σ IrqReturn) : Coroutine ε σ (Option Nat) := do
  let found ← Coroutine.act (view.lift fun interrupts =>
    let (source, interrupts) := interrupts.pending
    .ok (source.map fun irq => (irq, interrupts.controller.handler irq)) interrupts)
  match found with
  | none => return none
  | some (irq, none) =>
      Coroutine.act (view.lift fun interrupts =>
        .ok () (interrupts.log .warning ("no handler for pending IRQ " ++ toString irq)))
      return none
  | some (irq, some descriptor) =>
      match ← serve descriptor.handler with
      | .handled => return some irq
      | .unclaimed =>
          Coroutine.act (view.lift fun interrupts =>
            .ok () (interrupts.log .debug
              ("IRQ " ++ toString irq ++ " not claimed by " ++ descriptor.name)))
          return some irq

end Interrupts

end DriverHost
