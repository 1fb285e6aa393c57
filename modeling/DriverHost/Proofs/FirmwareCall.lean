import DriverHost.Proofs.BringUp
import DriverHost.Proofs.HeaderBlocks
import DriverHost.Proofs.Ownership

/-!
# What is in place when the firmware is called

The call of the firmware starts the other processor on the slots.  By then the platform's words
say where the fragments are, the pool has all of them, and the doorbell is connected.  The
processor and the VideoCore name the same memory by different addresses, so this module also
says that the fragments lie where both of them look.

Main results:

- Theorem `toNat_busOfPhysical`: bus addresses of the low gigabyte are not wrapped.
- Structures `FragmentsInPlace` and `InPlace`: what the VideoCore may use.
- Theorem `Kernel.firmware_called_when_in_place`: all of it is there at the call.
-/

namespace DriverHost

variable {η κ : Type}

/-! ## Bus addresses -/

/-- Below the bus alias, a physical address and its bus address differ by the alias. -/
theorem toNat_busOfPhysical {address : UInt64} (hlow : address.toNat < 2 ^ 30) :
    (busOfPhysical address).toNat = 3 * 2 ^ 30 + address.toNat := by
  have hword : address.toUInt32.toNat = address.toNat := by
    rw [UInt64.toNat_toUInt32]
    omega
  have hmask : (~~~aliasBits).toNat = 2 ^ 30 - 1 := rfl
  have halias : aliasBits.toNat = 2 ^ 30 * 3 := rfl
  rw [busOfPhysical, UInt32.toNat_or, UInt32.toNat_and, hword, hmask,
    Nat.and_two_pow_sub_one_of_lt_two_pow hlow, halias, Nat.or_comm,
    ← Nat.two_pow_add_eq_or_of_lt hlow, Nat.mul_comm]

/-! ## Fragments behind the slots -/

/-- Where a fragment is: in the range that the device shares, behind the slots, with a line for
each of its two ends. -/
structure FragmentAt (range : Resource) (index : Nat) (fragment : UInt64) : Prop where
  start : fragment.toNat = range.start.toNat + slotMemorySize.toNat + 128 * index
  behindSlots : Memory.Apart range.start slotMemorySize.toNat fragment 128
  inside : range.start.toNat ≤ fragment.toNat ∧ fragment.toNat + 128 ≤ range.stop.toNat + 1

/-- All fragments are free, and each has its place. -/
structure FragmentsInPlace (range : Resource) (pool : FragmentPool) : Prop where
  counted : pool.freeCount = 64
  free : ∀ index < 64, pool.isFree index = true
  size : pool.fragmentSize = 128
  placed : ∀ index < 64, ∃ fragment, pool.address (UInt64.ofNat index) = .ok fragment ∧
    FragmentAt range index fragment
  apart : ∀ index < 64, ∀ other < 64, index ≠ other → ∀ first second,
    pool.address (UInt64.ofNat index) = .ok first →
    pool.address (UInt64.ofNat other) = .ok second → Memory.Apart first 128 second 128

section Refilled

variable {range : Resource} {pool : FragmentPool}

/-- The fragments of a range that is large enough lie one after the other behind the slots. -/
theorem fragmentAt_refilled (pool : FragmentPool)
    (hlarge : range.start.toNat + sharedMemorySize.toNat ≤ range.stop.toNat + 1) {index : Nat}
    (hindex : index < 64) :
    ∃ fragment, (pool.refilled (range.start + slotMemorySize)).address (UInt64.ofNat index) =
        .ok fragment ∧ FragmentAt range index fragment := by
  have hstop := range.stop.toNat_lt
  have hslots : slotMemorySize.toNat = 266240 := rfl
  have hshared : sharedMemorySize.toNat = 274432 := rfl
  have hsize : (pool.refilled (range.start + slotMemorySize)).fragmentSize.toNat = 128 := rfl
  have hbase : (pool.refilled (range.start + slotMemorySize)).base.toNat =
      range.start.toNat + slotMemorySize.toNat := by
    rw [FragmentPool.refilled]
    exact (toNat_behindSlots (by omega)).1
  have hbelow : (pool.refilled (range.start + slotMemorySize)).base.toNat +
      index * (pool.refilled (range.start + slotMemorySize)).fragmentSize.toNat < 2 ^ 64 := by
    rw [hbase, hsize]
    omega
  obtain ⟨fragment, haddress, hstart⟩ := FragmentPool.address_eq_ok hbelow (by omega)
  rw [hbase, hsize, Nat.mul_comm] at hstart
  exact ⟨fragment, haddress, hstart, .of_le (by omega) (by omega), by omega, by omega⟩

/-- Different fragments of the pool share no byte. -/
theorem FragmentAt.apart {index other : Nat} {first second : UInt64}
    (hfirst : FragmentAt range index first) (hsecond : FragmentAt range other second)
    (hne : index ≠ other) : Memory.Apart first 128 second 128 := by
  have hstop := range.stop.toNat_lt
  have hone := hfirst.start
  have htwo := hsecond.start
  have hfirstEnd := hfirst.inside.2
  have hsecondEnd := hsecond.inside.2
  rcases Nat.lt_or_gt_of_ne hne with hbefore | hbehind
  · exact .of_le (by omega) (by omega)
  · exact (Memory.Apart.of_le (by omega) (by omega)).symm

/-- A pool that was just filled has its fragments in place. -/
theorem fragmentsInPlace_refilled (pool : FragmentPool)
    (hlarge : range.start.toNat + sharedMemorySize.toNat ≤ range.stop.toNat + 1) :
    FragmentsInPlace range (pool.refilled (range.start + slotMemorySize)) := by
  refine ⟨rfl, fun index => pool.isFree_refilled _, rfl,
    fun index => fragmentAt_refilled pool hlarge, ?_⟩
  intro index hindex other hother hne first second hfirst hsecond
  obtain ⟨one, hone, hplace⟩ := fragmentAt_refilled pool hlarge hindex
  obtain ⟨two, htwo, hsecondPlace⟩ := fragmentAt_refilled pool hlarge hother
  cases hfirst.symm.trans hone
  cases hsecond.symm.trans htwo
  exact hplace.apart hsecondPlace hne

end Refilled

/-- The VideoCore finds a fragment of the low gigabyte by its number, behind the address in the
platform's first word. -/
theorem FragmentAt.toNat_bus {range : Resource} {index : Nat} {fragment : UInt64}
    (hfragment : FragmentAt range index fragment) (hindex : index < 64)
    (hlow : range.stop.toNat < 2 ^ 30) :
    (busOfPhysical fragment).toNat =
      (busOfPhysical range.start + slotMemorySize.toUInt32).toNat + 128 * index := by
  have hstart := hfragment.start
  have hend := hfragment.inside
  have hslots : slotMemorySize.toNat = 266240 := rfl
  have hwords : slotMemorySize.toUInt32.toNat = 266240 := rfl
  rw [toNat_busOfPhysical (by omega), UInt32.toNat_add, toNat_busOfPhysical (by omega), hwords]
  omega

/-! ## The platform's words -/

/-- Two words that are written one behind the other are both read back. -/
theorem Memory.words_setWord_setWord (memory : Memory) (address : UInt64)
    (first second : UInt32) :
    ((memory.setWord address first).setWord (address + 4) second).word address = first ∧
      ((memory.setWord address first).setWord (address + 4) second).word (address + 4) =
        second := by
  refine ⟨?_, word_setWord _ _ _⟩
  have hbehind : address + 4 = addressAt address 4 := rfl
  rw [← word_setWord memory address first]
  apply word_congr
  intro offset hoffset
  rw [word_setWord, setWord, hbehind, byte_store_at _ _ _ (by decide) (by omega),
    if_neg (by omega)]

/-- Memories that agree on the two words hold the same words. -/
theorem Memory.AgreeOn.words {first second : Memory} {address : UInt64}
    (hagree : AgreeOn first second address 8) :
    second.word address = first.word address ∧
      second.word (address + 4) = first.word (address + 4) := by
  have hstart : addressAt address 0 = address := UInt64.add_zero address
  have hfirst := hagree.word (by decide : 0 + 4 ≤ 8)
  rw [hstart] at hfirst
  exact ⟨hfirst, hagree.word (by decide : 4 + 4 ≤ 8)⟩

/-! ## The doorbell's interrupt -/

namespace InterruptController

variable {δ : Type} [Bus δ] {controller connected : InterruptController η} {irq : Nat}
  {descriptor : IrqDescriptor η} {board after : Board δ}

/-- A number that is connected has its handler and is let through. -/
theorem connect_eq_ok (h : controller.connect irq descriptor board = .ok (connected, after)) :
    connected = controller.setHandler irq (some descriptor) ∧
      after.device = controller.enable irq board.device := by
  unfold connect at h
  by_cases houtside : tableSize ≤ irq
  · rw [if_pos houtside] at h
    cases h
  rw [if_neg houtside] at h
  by_cases htaken : (controller.handler irq).isSome = true
  · rw [if_pos htaken] at h
    cases h
  rw [if_neg htaken] at h
  cases h
  exact ⟨rfl, rfl⟩

/-- No enable register lies in the two words at an address. -/
def EnablesApart (controller : InterruptController η) (words : UInt64) : Prop :=
  ∀ irq bank bit, bank? irq = some (bank, bit) →
    Memory.Apart words 8 (controller.base + enableOffset + 4 * bank) 4

/-- Letting a source through does not touch the platform's words. -/
theorem agreeOn_enable {words : UInt64} (hapart : controller.EnablesApart words) (irq : Nat)
    (memory : Memory) : Memory.AgreeOn memory (controller.enable irq memory) words 8 := by
  rw [enable, writeMask]
  cases hbank : bank? irq with
  | none => exact .refl _ _ _
  | some place =>
    obtain ⟨bank, bit⟩ := place
    exact Memory.agreeOn_setWord _ _ (hapart irq bank bit hbank) (by decide)

/-- Letting a source through writes its bit to the enable register of its bank. -/
theorem word_enable (hirq : irq < sourceCount) (memory : Memory) :
    (controller.enable irq memory).word
      (controller.base + enableOffset + 4 * UInt64.ofNat (irq / 32)) =
        1 <<< UInt32.ofNat (irq % 32) := by
  rw [enable, writeMask, bank?, if_pos hirq]
  exact Memory.word_setWord _ _ _

end InterruptController

/-! ## The call -/

/-- The engine may answer with these words when it lays out its slots in the device's memory. -/
def Engine.Answers (engine : Engine η κ) (device : PlatformDevice) (words : UInt64) : Prop :=
  ∃ range asked laid, device.dmaMemory = some range ∧
    engine.initSlots range.start slotMemorySize asked = .ok (some words) laid

/-- Setting up its state, the engine takes no fragments and does not rewrite the platform's
words. -/
structure Engine.LeavesPrepared (engine : Engine η κ) (device : PlatformDevice) : Prop where
  fragments : ∀ kernel status after, engine.initState kernel = .ok status after →
    after.platform.fragments = kernel.platform.fragments
  words : ∀ words, engine.Answers device words → ∀ kernel status after,
    engine.initState kernel = .ok status after →
      Memory.AgreeOn kernel.board.device after.board.device words 8

namespace Kernel

/-- What the VideoCore may use from the call of the firmware on. -/
structure InPlace (engine : Engine η κ) (doorbell : η) (device : PlatformDevice)
    (before : Kernel η κ) (bus : UInt32) (range registers : Resource) (words : UInt64)
    (kernel : Kernel η κ) : Prop where
  shares : device.dmaMemory = some range
  told : bus = busOfPhysical range.start
  /-- The words are those that the engine answered with when it was asked. -/
  answered : ∃ asked laid, OnlyReported before asked ∧
    engine.initSlots range.start slotMemorySize asked = .ok (some words) laid
  fragmentsWord : kernel.board.device.word words = bus + slotMemorySize.toUInt32
  countWord : kernel.board.device.word (words + 4) = 64
  fragments : FragmentsInPlace range kernel.platform.fragments
  /-- In the low gigabyte the VideoCore finds each fragment from the first word. -/
  seen : range.stop.toNat < 2 ^ 30 → ∀ index < 64, ∀ fragment,
    kernel.platform.fragments.address (UInt64.ofNat index) = .ok fragment →
      (busOfPhysical fragment).toNat = (kernel.board.device.word words).toNat + 128 * index
  window : device.resource? ResourceFlags.registers 0 = some registers
  bell : kernel.platform.doorbell = registers.start
  interrupt : ∃ irq, device.irq? 0 = some irq ∧
    kernel.interrupts.handler irq.toNat = some ⟨"VCHIQ doorbell", doorbell⟩ ∧
    (irq.toNat < InterruptController.sourceCount → kernel.board.device.word
      (kernel.interrupts.base + InterruptController.enableOffset +
        4 * UInt64.ofNat (irq.toNat / 32)) = 1 <<< UInt32.ofNat (irq.toNat % 32))

variable {engine : Engine η κ} {doorbell : η} {device : PlatformDevice}
  {before atCall : Kernel η κ} {bus : UInt32}

theorem irq_of_irqNumber_ne_zero (hirq : irqNumber device ≠ 0) :
    ∃ irq, device.irq? 0 = some irq ∧ irqNumber device = irq.toNat := by
  rw [irqNumber] at hirq ⊢
  cases hfound : device.irq? 0 with
  | none =>
    rw [hfound] at hirq
    exact absurd rfl hirq
  | some irq => exact ⟨irq, rfl, rfl⟩

/-- The firmware is told about the slots only when everything that it may use is in place: the
platform's words, all fragments, and the doorbell with its interrupt. -/
theorem firmware_called_when_in_place
    (hcalls : CallsFirmware engine doorbell device before bus atCall)
    (hengine : engine.LeavesPrepared device)
    (hregisters : ∀ words, engine.Answers device words → atCall.interrupts.EnablesApart words) :
    ∃ range registers words,
      InPlace engine doorbell device before bus range registers words atCall := by
  obtain ⟨slots, hprepare⟩ := callsFirmware_iff.1 hcalls
  obtain ⟨reported, words, asked, started, registers, hreported, hmemory, hwords, hfits, hstate,
    hwindow, hirq, hconnected⟩ := prepare_eq_ok hprepare
  obtain ⟨range, hrange, hslots, hlarge⟩ := PlatformDevice.allocCoherent_eq_some hmemory
  obtain ⟨rfl, rfl⟩ := Prod.mk.inj hslots
  have hanswers : engine.Answers device words := ⟨range, reported, asked, hrange, hwords⟩
  obtain ⟨source, hnever, -⟩ | ⟨interrupts, board, -, rfl, hconnect⟩ :=
    connectDoorbell_cases hconnected
  · cases hnever
  obtain ⟨hcontroller, hdevice⟩ := InterruptController.connect_eq_ok hconnect
  obtain ⟨irq, hfound, hnumber⟩ := irq_of_irqNumber_ne_zero hirq
  subst hcontroller
  have hkept : Memory.AgreeOn
      (asked.withSlots range.start words (busOfPhysical range.start)).board.device board.device
      words 8 := by
    refine (hengine.words words hanswers _ _ _ hstate).trans ?_
    rw [hdevice]
    exact InterruptController.agreeOn_enable (hregisters words hanswers) _ _
  obtain ⟨hfirst, hsecond⟩ := asked.board.device.words_setWord_setWord words
    (busOfPhysical range.start + slotMemorySize.toUInt32) (UInt32.ofNat FragmentPool.maxFragments)
  have hoffset : board.device.word words =
      busOfPhysical range.start + slotMemorySize.toUInt32 :=
    hkept.words.1.trans hfirst
  have hcount : board.device.word (words + 4) = 64 :=
    hkept.words.2.trans hsecond
  have hpool : FragmentsInPlace range started.platform.fragments := by
    rw [hengine.fragments _ _ _ hstate]
    exact fragmentsInPlace_refilled _ hlarge
  refine ⟨range, registers, words, hrange, rfl, ⟨reported, asked, hreported, hwords⟩, hoffset,
    hcount, hpool, ?_, hwindow, rfl, irq, hfound, ?_, ?_⟩
  · intro hlow index hindex fragment hfragment
    obtain ⟨placed, hplaced, hplace⟩ := hpool.placed index hindex
    cases hplaced.symm.trans hfragment
    rw [hoffset]
    exact hplace.toNat_bus hindex hlow
  · rw [← hnumber]
    exact (InterruptController.handler_setHandler _ _ _ _).trans (if_pos rfl)
  · intro hsource
    rw [hdevice, ← hnumber]
    exact InterruptController.word_enable (hnumber ▸ hsource) _

/-- With the device of the board and an engine that agrees to everything, the firmware is called
when all of it is in place. -/
theorem firmware_called_when_in_place_on_board :
    ∃ atCall range registers words,
      CallsFirmware Engine.obliging () boardDevice idleKernel 0xc1c80000 atCall ∧
      InPlace Engine.obliging () boardDevice idleKernel 0xc1c80000 range registers words
        atCall := by
  obtain ⟨atCall, hprepare, hbase⟩ : ∃ atCall,
      prepare Engine.obliging () boardDevice idleKernel =
        .ok (.ok (0x1c80000, 0xc1c80000)) atCall ∧
      atCall.interrupts.base = interruptRegisters := ⟨_, rfl, rfl⟩
  have hcalls : CallsFirmware Engine.obliging () boardDevice idleKernel 0xc1c80000 atCall :=
    callsFirmware_iff.2 ⟨0x1c80000, hprepare⟩
  have hwords : ∀ words, (Engine.obliging : Engine Unit Unit).Answers boardDevice words →
      words = 0x1c80000 := by
    rintro words ⟨range, asked, laid, hrange, hanswer⟩
    cases hrange
    cases hanswer
    rfl
  have hengine : (Engine.obliging : Engine Unit Unit).LeavesPrepared boardDevice := by
    constructor
    case fragments =>
      intro kernel status after h
      cases h
      rfl
    case words =>
      intro words hanswers kernel status after h
      cases h
      exact .refl _ _ _
  have hregisters : ∀ words, (Engine.obliging : Engine Unit Unit).Answers boardDevice words →
      atCall.interrupts.EnablesApart words := by
    intro words hanswers irq bank bit hbank
    rw [hwords words hanswers, hbase]
    unfold InterruptController.bank? at hbank
    split at hbank
    case isFalse => cases hbank
    case isTrue hsource =>
      cases hbank
      have hbanks : ∀ source : Fin 72, 0x1c80008 ≤ (interruptRegisters +
          InterruptController.enableOffset + 4 * UInt64.ofNat (source / 32)).toNat ∧
          (interruptRegisters + InterruptController.enableOffset +
            4 * UInt64.ofNat (source / 32)).toNat + 4 ≤ 2 ^ 64 := by decide
      exact .of_le (hbanks ⟨irq, hsource⟩).1 (hbanks ⟨irq, hsource⟩).2
  obtain ⟨range, registers, words, hplace⟩ :=
    firmware_called_when_in_place hcalls hengine hregisters
  exact ⟨atCall, range, registers, words, hcalls, hplace⟩

end Kernel

end DriverHost
