import DriverHost.Interrupt
import DriverHost.Proofs.Masks

/-!
# Sources that are let through

Connecting a handler and disconnecting it do two things apart from each other: they change the
handler table, and they write one bit to one of six registers.  The hardware keeps a mask that only
these writes change, so whether the two agree is a question about all writes of a run, in the order
they were made.

Main results:

- Definition `letThrough`: the hardware's mask after a list of register writes.
- Theorem `InterruptController.letThrough_writeMask`: what writing the bit of a source does to it.
- Definition `Interrupts.changed`: the controller after connecting and disconnecting.
- Theorem `Interrupts.let_through_iff_connected`: exactly the sources with a handler are let
  through.
-/

namespace DriverHost

variable {η δ : Type}

/-! ## The mask of the hardware -/

/-- A word that was written to a register. -/
structure RegisterWrite where
  address : UInt64
  value : UInt32
deriving DecidableEq

/-- A device of which nothing is known but what was written to its registers, in order. -/
structure WriteLog where
  writes : List RegisterWrite := []
deriving DecidableEq

instance : Bus WriteLog where
  load _ log := (0, log)
  save address value log := ⟨log.writes ++ [⟨address, value⟩]⟩

/-- A device to which the words of a log were written, in order. -/
def WriteLog.replay [Bus δ] (log : WriteLog) (device : δ) : δ :=
  log.writes.foldl (fun device write => Bus.save write.address write.value device) device

/-- A register that lets the sources of a bank through, or holds them back. -/
structure MaskRegister where
  offset : UInt64
  /-- The source behind the lowest bit. -/
  first : Nat
  /-- How many sources the bank has. -/
  count : Nat
  letsThrough : Bool
deriving DecidableEq

/-- The registers that change the mask. -/
def maskRegisters : List MaskRegister :=
  [⟨0x10, 0, 32, true⟩, ⟨0x14, 32, 32, true⟩, ⟨0x18, 64, 8, true⟩,
    ⟨0x1c, 0, 32, false⟩, ⟨0x20, 32, 32, false⟩, ⟨0x24, 64, 8, false⟩]

/-- A word written to the register has a one for a source of its bank. -/
def MaskRegister.selects (register : MaskRegister) (value : UInt32) (irq : Nat) : Bool :=
  decide (register.first ≤ irq) && decide (irq < register.first + register.count) &&
    value.toNat.testBit (irq - register.first)

/-- The mask after a write: the ones of a word change their sources, and its zeros change
nothing. -/
def RegisterWrite.mask (base : UInt64) (through : Nat → Bool) (write : RegisterWrite) :
    Nat → Bool := fun irq =>
  match maskRegisters.find? fun register => base + register.offset == write.address with
  | some register => if register.selects write.value irq then register.letsThrough else through irq
  | none => through irq

/-- The sources that are let through after writes, where none was in front of them. -/
def letThrough (base : UInt64) (writes : List RegisterWrite) : Nat → Bool :=
  writes.foldl (RegisterWrite.mask base) fun _ => false

/-- What is let through follows from the earlier writes and the last one. -/
theorem letThrough_append (base : UInt64) (writes : List RegisterWrite) (write : RegisterWrite) :
    letThrough base (writes ++ [write]) = write.mask base (letThrough base writes) := by
  simp [letThrough]

/-- Every register has a place of its own. -/
theorem find?_maskRegisters {register : MaskRegister} (hregister : register ∈ maskRegisters)
    (base : UInt64) :
    (maskRegisters.find? fun other => base + other.offset == base + register.offset) =
      some register := by
  have hplace : ∀ other : MaskRegister,
      (base + other.offset == base + register.offset) = (other.offset == register.offset) := by
    intro other
    rw [Bool.eq_iff_iff, beq_iff_eq, beq_iff_eq]
    exact UInt64.add_right_inj base
  -- Without the base this is a question about the six offsets.
  simp only [hplace]
  clear hplace
  revert register
  decide

namespace InterruptController

/-- The registers that let sources through, or those that hold them back. -/
def groupOffset (through : Bool) : UInt64 :=
  if through then enableOffset else disableOffset

/-- The register of a source's bank in either group. -/
theorem exists_maskRegister {irq : Nat} (hirq : irq < sourceCount) (through : Bool) :
    ∃ register ∈ maskRegisters,
      groupOffset through + 4 * UInt64.ofNat (irq / 32) = register.offset ∧
      register.first = 32 * (irq / 32) ∧ irq < register.first + register.count ∧
      register.letsThrough = through := by
  have hbank : irq / 32 = 0 ∨ irq / 32 = 1 ∨ irq / 32 = 2 := by
    simp only [sourceCount] at hirq
    omega
  simp only [sourceCount] at hirq
  rcases hbank with hbank | hbank | hbank <;> rw [hbank] <;> cases through
  · exact ⟨⟨0x1c, 0, 32, false⟩, by decide, by decide, rfl, by simp only; omega, rfl⟩
  · exact ⟨⟨0x10, 0, 32, true⟩, by decide, by decide, rfl, by simp only; omega, rfl⟩
  · exact ⟨⟨0x20, 32, 32, false⟩, by decide, by decide, rfl, by simp only; omega, rfl⟩
  · exact ⟨⟨0x14, 32, 32, true⟩, by decide, by decide, rfl, by simp only; omega, rfl⟩
  · exact ⟨⟨0x24, 64, 8, false⟩, by decide, by decide, rfl, by simp only; omega, rfl⟩
  · exact ⟨⟨0x18, 64, 8, true⟩, by decide, by decide, rfl, by simp only; omega, rfl⟩

/-- The bit of a source selects that source and no other. -/
theorem selects_bit {register : MaskRegister} {irq : Nat}
    (hfirst : register.first = 32 * (irq / 32)) (hcount : irq < register.first + register.count)
    (other : Nat) :
    register.selects (1 <<< UInt32.ofNat (irq % 32)) other = decide (other = irq) := by
  rw [MaskRegister.selects, testBit_oneBit (by omega)]
  grind

/-- Writing the bit of a source to its register changes the mask of that source and no other;
numbers behind the last source have none. -/
theorem letThrough_writeMask (controller : InterruptController η) (through : Bool) (irq : Nat)
    (log : WriteLog) :
    letThrough controller.base
        (controller.writeMask (groupOffset through) irq log).writes =
      fun other => if other = irq ∧ irq < sourceCount then through
        else letThrough controller.base log.writes other := by
  funext other
  unfold writeMask bank?
  by_cases hirq : irq < sourceCount
  · obtain ⟨register, hregister, hoffset, hfirst, hcount, hthrough⟩ :=
      exists_maskRegister hirq through
    have hwrites : (Bus.save (controller.base + groupOffset through + 4 * UInt64.ofNat (irq / 32))
        (1 <<< UInt32.ofNat (irq % 32)) log).writes =
          log.writes ++ [⟨controller.base + register.offset,
            1 <<< UInt32.ofNat (irq % 32)⟩] := by
      rw [UInt64.add_assoc, hoffset]
      rfl
    simp only [hirq, if_true]
    rw [hwrites, letThrough_append, RegisterWrite.mask, find?_maskRegisters hregister]
    simp [selects_bit hfirst hcount, hthrough]
  · simp [hirq]

/-- Whatever the device is, it gets the word that goes to the log. -/
theorem replay_writeMask [Bus δ] (controller : InterruptController η) (group : UInt64) (irq : Nat)
    (log : WriteLog) (device : δ) :
    (controller.writeMask group irq log).replay device =
      controller.writeMask group irq (log.replay device) := by
  unfold writeMask
  cases bank? irq with
  | none => rfl
  | some place => simp [WriteLog.replay, Bus.save]

end InterruptController

/-! ## Handlers come and go -/

/-- A call that changes who handles a number. -/
inductive HandlerChange (η : Type) where
  | connect (irq : Nat) (descriptor : IrqDescriptor η)
  | disconnect (irq : Nat)

namespace HandlerChange

/-- The number whose handler changes. -/
def irq : HandlerChange η → Nat
  | connect irq _ => irq
  | disconnect irq => irq

/-- Who is to handle it. -/
def descriptor : HandlerChange η → Option (IrqDescriptor η)
  | connect _ descriptor => some descriptor
  | disconnect _ => none

/-- The table has room for the number, and a handler that is connected finds it free. -/
def accepted (controller : InterruptController η) : HandlerChange η → Bool
  | connect irq _ =>
      decide (irq < InterruptController.tableSize) && (controller.handler irq).isNone
  | disconnect irq => decide (irq < InterruptController.tableSize)

end HandlerChange

namespace Interrupts

open InterruptController

section

variable [Bus δ]

/-- Connect a handler and say whether it was accepted. -/
def connect (irq : Nat) (descriptor : IrqDescriptor η) (interrupts : Interrupts η δ) :
    Except IrqError Unit × Interrupts η δ :=
  match interrupts.controller.connect irq descriptor interrupts.board with
  | .ok (controller, board) => (.ok (), ⟨controller, board⟩)
  | .error cause => (.error cause, interrupts)

/-- Disconnect the handler of a number. -/
def disconnect (irq : Nat) (interrupts : Interrupts η δ) : Interrupts η δ :=
  let (controller, device) := interrupts.controller.disconnect irq interrupts.board.device
  { controller, board := { interrupts.board with device } }

/-- Make a change, or not if it is not accepted. -/
def change (interrupts : Interrupts η δ) : HandlerChange η → Interrupts η δ
  | .connect irq descriptor => (interrupts.connect irq descriptor).2
  | .disconnect irq => interrupts.disconnect irq

/-- Make changes one after the other. -/
def changed (interrupts : Interrupts η δ) (changes : List (HandlerChange η)) : Interrupts η δ :=
  changes.foldl change interrupts

/-- The controller after changes, where nobody was connected at first. -/
def connecting (base : UInt64) (board : Board δ) (changes : List (HandlerChange η)) :
    Interrupts η δ :=
  changed { controller := { base }, board } changes

end

/-- The words that such changes write to registers. -/
def maskWrites (base : UInt64) (changes : List (HandlerChange η)) : WriteLog :=
  (connecting base { device := ({} : WriteLog) } changes).board.device

variable [Bus δ] (interrupts : Interrupts η δ)

/-- What a connection answers and leaves, by the number and what the table has for it. -/
theorem connect_eq (irq : Nat) (descriptor : IrqDescriptor η) :
    interrupts.connect irq descriptor =
      if tableSize ≤ irq then (.error (.outOfRange irq), interrupts)
      else if (interrupts.controller.handler irq).isSome then
        (.error (.alreadyRegistered irq), interrupts)
      else
        (.ok (), {
          controller := interrupts.controller.setHandler irq (some descriptor)
          board := { interrupts.board with
            device := interrupts.controller.enable irq interrupts.board.device }.log .debug
              logSource ("connected IRQ " ++ toString irq ++ " to " ++ descriptor.name) }) := by
  unfold connect InterruptController.connect
  by_cases houtside : tableSize ≤ irq
  · simp [houtside]
  · by_cases htaken : (interrupts.controller.handler irq).isSome = true
    · simp [houtside, htaken]
    · simp [houtside, htaken]

/-- A handler that is accepted has its place. -/
theorem handler_connect {irq : Nat} {descriptor : IrqDescriptor η}
    (haccepted : (interrupts.connect irq descriptor).1 = .ok ()) :
    (interrupts.connect irq descriptor).2.controller.handler irq = some descriptor := by
  rw [connect_eq] at haccepted ⊢
  split at haccepted
  · cases haccepted
  · next hinside =>
    split at haccepted
    · cases haccepted
    · next hfree => simp [hinside, hfree]

/-- A number that is disconnected has no handler. -/
theorem handler_disconnect {irq : Nat} (hirq : irq < tableSize) :
    (interrupts.disconnect irq).controller.handler irq = none := by
  simp [disconnect, InterruptController.disconnect, Nat.not_le_of_lt hirq]

/-- A change that is accepted replaces one handler, and lets its source through exactly if there is
one again. -/
theorem change_accepted {change : HandlerChange η}
    (haccepted : change.accepted interrupts.controller = true) :
    (interrupts.change change).controller =
        interrupts.controller.setHandler change.irq change.descriptor ∧
      (interrupts.change change).board.device =
        interrupts.controller.writeMask (groupOffset change.descriptor.isSome) change.irq
          interrupts.board.device := by
  cases change with
  | connect irq descriptor =>
    obtain ⟨hroom, hfree⟩ : irq < tableSize ∧ interrupts.controller.handler irq = none := by
      simpa [HandlerChange.accepted] using haccepted
    rw [Interrupts.change, connect_eq, if_neg (Nat.not_le_of_lt hroom), hfree]
    exact ⟨rfl, rfl⟩
  | disconnect irq =>
    have hroom : irq < tableSize := by simpa [HandlerChange.accepted] using haccepted
    rw [Interrupts.change, disconnect, InterruptController.disconnect,
      if_neg (Nat.not_le_of_lt hroom)]
    exact ⟨rfl, rfl⟩

/-- A change that is not accepted leaves everything as it was. -/
theorem change_refused {change : HandlerChange η}
    (hrefused : change.accepted interrupts.controller = false) :
    interrupts.change change = interrupts := by
  cases change with
  | connect irq descriptor =>
    rw [Interrupts.change, connect_eq]
    by_cases houtside : tableSize ≤ irq
    · simp [houtside]
    · have htaken : (interrupts.controller.handler irq).isSome = true := by
        simpa [HandlerChange.accepted, Nat.lt_of_not_le houtside] using hrefused
      simp [houtside, htaken]
  | disconnect irq =>
    have houtside : tableSize ≤ irq := by simpa [HandlerChange.accepted] using hrefused
    simp [Interrupts.change, disconnect, InterruptController.disconnect, houtside]

/-- A change touches no handler but the one of its number. -/
theorem handler_change_of_ne (change : HandlerChange η) {other : Nat}
    (hother : other ≠ change.irq) :
    (interrupts.change change).controller.handler other =
      interrupts.controller.handler other := by
  cases haccepted : change.accepted interrupts.controller with
  | true =>
    rw [(interrupts.change_accepted haccepted).1, handler_setHandler, if_neg hother]
  | false => rw [interrupts.change_refused haccepted]

/-- A handler stays in its place unless it is disconnected. -/
theorem handler_change {change : HandlerChange η} {irq : Nat} {descriptor : IrqDescriptor η}
    (hconnected : interrupts.controller.handler irq = some descriptor)
    (hchange : change ≠ .disconnect irq) :
    (interrupts.change change).controller.handler irq = some descriptor := by
  by_cases hirq : irq = change.irq
  · cases change with
    | connect other replacement =>
      have hirq : irq = other := hirq
      subst hirq
      have htaken : (HandlerChange.connect irq replacement).accepted interrupts.controller =
          false := by
        simp [HandlerChange.accepted, hconnected]
      rw [interrupts.change_refused htaken]
      exact hconnected
    | disconnect other => exact absurd (congrArg HandlerChange.disconnect hirq.symm) hchange
  · rw [interrupts.handler_change_of_ne change hirq]
    exact hconnected

variable {interrupts}

/-- However many changes follow, a handler stays until it is disconnected. -/
theorem handler_changed {irq : Nat} {descriptor : IrqDescriptor η}
    (hconnected : interrupts.controller.handler irq = some descriptor)
    {changes : List (HandlerChange η)} (hchanges : .disconnect irq ∉ changes) :
    (interrupts.changed changes).controller.handler irq = some descriptor := by
  induction changes generalizing interrupts with
  | nil => exact hconnected
  | cons change rest ih =>
    rw [List.mem_cons, not_or] at hchanges
    exact ih (interrupts.handler_change hconnected (Ne.symm hchanges.1)) hchanges.2

/-! ## The table and the mask -/

/-- The handlers have room in the table, and the hardware lets exactly the sources through that
have one. -/
structure InStep (place : UInt64) (interrupts : Interrupts η WriteLog) : Prop where
  base : interrupts.controller.base = place
  room : ∀ irq, (interrupts.controller.handler irq).isSome → irq < tableSize
  mask : ∀ irq, letThrough place interrupts.board.device.writes irq =
    (decide (irq < sourceCount) && (interrupts.controller.handler irq).isSome)

/-- Another controller went through the same changes, and its device got the words of a log. -/
structure Mirrors (interrupts : Interrupts η δ) (device : δ) (logged : Interrupts η WriteLog) :
    Prop where
  controller : interrupts.controller = logged.controller
  device : interrupts.board.device = logged.board.device.replay device

/-- A change moves the table and the mask together. -/
theorem InStep.change {base : UInt64} {interrupts : Interrupts η WriteLog}
    (hstep : interrupts.InStep base) (change : HandlerChange η) :
    (interrupts.change change).InStep base := by
  cases haccepted : change.accepted interrupts.controller with
  | false =>
    rw [interrupts.change_refused haccepted]
    exact hstep
  | true =>
    obtain ⟨hcontroller, hdevice⟩ := interrupts.change_accepted haccepted
    have hroom : change.irq < tableSize := by
      cases change <;> grind [HandlerChange.accepted, HandlerChange.irq]
    constructor
    · rw [hcontroller]
      exact hstep.base
    · intro irq
      rw [hcontroller, handler_setHandler]
      split
      · next hirq => exact fun _ => hirq ▸ hroom
      · exact hstep.room irq
    · intro irq
      rw [hdevice, hcontroller, ← hstep.base, letThrough_writeMask, handler_setHandler,
        hstep.base]
      by_cases hirq : irq = change.irq
      · -- A number behind the last source is changed in the table without a write.
        by_cases hsource : change.irq < sourceCount
        · simp [hirq, hsource]
        · simp [hirq, hsource, hstep.mask change.irq]
      · simp [hirq, hstep.mask irq]

/-- A change writes the same words to any device. -/
theorem Mirrors.change {device : δ} {logged : Interrupts η WriteLog}
    (hmirrors : Mirrors interrupts device logged) (change : HandlerChange η) :
    Mirrors (interrupts.change change) device (logged.change change) := by
  obtain ⟨hsame, hreplay⟩ := hmirrors
  cases haccepted : change.accepted logged.controller with
  | false =>
    rw [logged.change_refused haccepted, interrupts.change_refused (hsame ▸ haccepted)]
    exact ⟨hsame, hreplay⟩
  | true =>
    obtain ⟨hcontroller, hdevice⟩ := logged.change_accepted haccepted
    obtain ⟨hcontroller', hdevice'⟩ := interrupts.change_accepted (hsame ▸ haccepted)
    constructor
    · rw [hcontroller, hcontroller', hsame]
    · rw [hdevice, hdevice', replay_writeMask, hsame, hreplay]

/-- Any sequence of changes keeps the masks in step with the table. -/
theorem InStep.changed {base : UInt64} {interrupts : Interrupts η WriteLog}
    (hstep : interrupts.InStep base) (changes : List (HandlerChange η)) :
    (interrupts.changed changes).InStep base := by
  induction changes generalizing interrupts with
  | nil => exact hstep
  | cons change rest ih => exact ih (hstep.change change)

/-- Any sequence of changes keeps the device in the state that the logged writes lead to. -/
theorem Mirrors.changed {device : δ} {logged : Interrupts η WriteLog}
    (hmirrors : Mirrors interrupts device logged) (changes : List (HandlerChange η)) :
    Mirrors (interrupts.changed changes) device (logged.changed changes) := by
  induction changes generalizing interrupts logged with
  | nil => exact hmirrors
  | cons change rest ih => exact ih (hmirrors.change change)

/-- A controller that starts out empty stays in step with its masks. -/
theorem inStep_connecting (base : UInt64) (changes : List (HandlerChange η)) :
    (connecting base { device := ({} : WriteLog) } changes).InStep base := by
  apply InStep.changed
  constructor <;> simp [letThrough]

/-- The device of any board ends where the logged writes lead. -/
theorem mirrors_connecting (base : UInt64) (board : Board δ) (changes : List (HandlerChange η)) :
    Mirrors (connecting base board changes) board.device
      (connecting base { device := ({} : WriteLog) } changes) := by
  unfold connecting
  apply Mirrors.changed
  exact ⟨rfl, rfl⟩

/-- Exactly the sources with a handler are let through, whatever was connected and disconnected
before, and by writes that are the same on every device.  A connection fails for a number behind
the table and for one that is taken, and then changes nothing; a change touches only the handler of
its number; and the handler that was accepted stays until it is disconnected. -/
theorem let_through_iff_connected (base : UInt64) (board : Board δ)
    (changes : List (HandlerChange η)) :
    (connecting base board changes).board.device =
      (maskWrites base changes).replay board.device ∧
    (∀ irq, letThrough base (maskWrites base changes).writes irq = true ↔
      irq < sourceCount ∧ ((connecting base board changes).controller.handler irq).isSome) ∧
    (∀ irq descriptor,
      (((connecting base board changes).connect irq descriptor).1 = .error (.outOfRange irq) ↔
        tableSize ≤ irq) ∧
      (((connecting base board changes).connect irq descriptor).1 =
          .error (.alreadyRegistered irq) ↔
        ((connecting base board changes).controller.handler irq).isSome) ∧
      (((connecting base board changes).connect irq descriptor).1 ≠ .ok () →
        ((connecting base board changes).connect irq descriptor).2 =
          connecting base board changes)) ∧
    (∀ change other, other ≠ change.irq →
      ((connecting base board changes).change change).controller.handler other =
        (connecting base board changes).controller.handler other) ∧
    (∀ irq descriptor later, ((connecting base board changes).connect irq descriptor).1 = .ok () →
      .disconnect irq ∉ later →
      (connecting base board (changes ++ .connect irq descriptor :: later)).controller.handler irq =
        some descriptor) ∧
    ∀ irq, ((connecting base board changes).disconnect irq).controller.handler irq = none := by
  have hstep := inStep_connecting (η := η) base changes
  obtain ⟨hsame, hreplay⟩ := mirrors_connecting base board changes
  have hroom : ∀ irq, ((connecting base board changes).controller.handler irq).isSome →
      irq < tableSize := by
    intro irq hirq
    rw [hsame] at hirq
    exact hstep.room irq hirq
  refine ⟨hreplay, ?_, ?_, fun change other => handler_change_of_ne _ change, ?_, ?_⟩
  · intro irq
    rw [maskWrites, hstep.mask irq, hsame]
    simp
  · intro irq descriptor
    have hroom := hroom irq
    rw [connect_eq]
    grind
  · intro irq descriptor later haccepted hlater
    have hchanges : connecting base board (changes ++ .connect irq descriptor :: later) =
        ((connecting base board changes).change (.connect irq descriptor)).changed later := by
      simp [connecting, changed]
    rw [hchanges]
    exact handler_changed (handler_connect _ haccepted) hlater
  · intro irq
    by_cases hirq : irq < tableSize
    · exact handler_disconnect _ hirq
    · have hnone : ((connecting base board changes).controller.handler irq).isSome ≠ true :=
        fun hsome => hirq (hroom irq hsome)
      simpa [disconnect, InterruptController.disconnect, Nat.le_of_not_lt hirq] using hnone

/-- The doorbell is connected, a second time in vain, and goes; two numbers without a source are
tried; and of three more sources one goes again. -/
def comingsAndGoings : List (HandlerChange Nat) :=
  [.connect 66 ⟨"doorbell", 0⟩, .connect 66 ⟨"second", 1⟩, .connect 100 ⟨"spare", 2⟩,
    .connect 200 ⟨"outside", 3⟩, .disconnect 66, .connect 1 ⟨"timer", 4⟩] ++
  .connect 33 ⟨"wide", 5⟩ :: [.connect 33 ⟨"later", 6⟩, .connect 71 ⟨"last", 7⟩, .disconnect 1]

/-- Two sources are let through in the end, and the first handler of one of them is still there. -/
theorem let_through_iff_connected_of_comingsAndGoings :
    (maskWrites 0x1000 comingsAndGoings).writes =
      [⟨0x1018, 0x4⟩, ⟨0x1024, 0x4⟩, ⟨0x1010, 0x2⟩, ⟨0x1014, 0x2⟩, ⟨0x1018, 0x80⟩,
        ⟨0x101c, 0x2⟩] ∧
    (∀ irq, letThrough 0x1000 (maskWrites 0x1000 comingsAndGoings).writes irq = true ↔
      irq = 33 ∨ irq = 71) ∧
    (connecting 0x1000 { device := ({} : WriteLog) } comingsAndGoings).controller.handler 33 =
      some ⟨"wide", 5⟩ := by
  refine ⟨by decide, ?_, ?_⟩
  · have hhandlers : ∀ irq < sourceCount,
        ((connecting 0x1000 { device := ({} : WriteLog) } comingsAndGoings).controller.handler
          irq).isSome = decide (irq = 33 ∨ irq = 71) := by decide
    intro irq
    rw [(let_through_iff_connected 0x1000 { device := ({} : WriteLog) } comingsAndGoings).2.1 irq]
    constructor
    · rintro ⟨hirq, hsome⟩
      rw [hhandlers irq hirq] at hsome
      simpa using hsome
    · intro heither
      have hirq : irq < sourceCount := by
        simp only [sourceCount]
        omega
      rw [hhandlers irq hirq]
      exact ⟨hirq, by simpa using heither⟩
  · obtain ⟨-, -, -, -, hstays, -⟩ :=
      let_through_iff_connected 0x1000 { device := ({} : WriteLog) } (comingsAndGoings.take 6)
    exact hstays 33 ⟨"wide", 5⟩ _ rfl (by simp)

end Interrupts

end DriverHost
