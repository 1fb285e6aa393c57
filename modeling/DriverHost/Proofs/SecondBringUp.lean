import DriverHost.Proofs.FirmwareCall
import DriverHost.Proofs.FragmentConservation

/-!
# Bringing a running platform up once more

The pool is filled before the later stages are tried.  If one of these fails on a platform that
is in use, the pool has forgotten which fragments are lent, and the transfers that have them can
no longer be completed.  A failure of the first two stages leaves everything as it was.

Main results:

- Theorem `Kernel.bringUp_reached`: how far bringing the platform up gets, and what it leaves of
  the pool and the doorbell.
- Theorem `Transfer.Books.stops_refilled`: completing a transfer whose fragment is in a pool that
  was filled meanwhile stops the system.
- Theorem `Transfer.failing_bringUp_harmless_unless_refilled`: which errors leave a running
  platform unharmed.
-/

namespace DriverHost

variable {σ α τ ε η κ : Type}

/-! ## How far it gets -/

/-- Wherever it comes to an end, the action has left a part of the state as it was. -/
def Action.Keeps (action : Action σ α) (part : σ → τ) : Prop :=
  ∀ before result after, action before = .ok result after → part after = part before

/-- What transfers and events use of the platform: its pool, and where the doorbell is. -/
def Kernel.inUse (kernel : Kernel η κ) : FragmentPool × UInt64 :=
  (kernel.platform.fragments, kernel.platform.doorbell)

/-- The engine and the firmware use neither the pool nor the doorbell while the platform comes
up. -/
structure Engine.LeavesPlatform (engine : Engine η κ) : Prop where
  initSlots : ∀ start size, (engine.initSlots start size).Keeps Kernel.inUse
  initState : engine.initState.Keeps Kernel.inUse
  callConnected : engine.callConnected.Keeps Kernel.inUse
  initFirmware : ∀ bus, (engine.initFirmware bus).Keeps Kernel.inUse

namespace PlatformError

/-- The pool had been filled when this error came up. -/
def poolFilled : PlatformError → Bool
  | noDmaMemory _ | slotInit => false
  | stateInit | noRegisters | noIrq | irqRequest _ _ | firmware _ | channelBase _ => true

/-- The doorbell had been found when this error came up. -/
def doorbellFound : PlatformError → Bool
  | noDmaMemory _ | slotInit | stateInit | noRegisters => false
  | noIrq | irqRequest _ _ | firmware _ | channelBase _ => true

end PlatformError

namespace Kernel

variable {engine : Engine η κ} {doorbell : η} {device : PlatformDevice} {slots : UInt64}
  {slotsBus : UInt32} {before after : Kernel η κ} {result : Except PlatformError Unit}

/-- The device had no memory to share, or the engine refused the memory for its slots. -/
def Refused (engine : Engine η κ) (before after : Kernel η κ) : Prop :=
  OnlyReported before after ∨ ∃ start reported, OnlyReported before reported ∧
    engine.initSlots start slotMemorySize reported = .ok none after

/-- How far bringing the platform up gets, with what it leaves of the pool and the doorbell. -/
inductive Reached (engine : Engine η κ) (device : PlatformDevice) (before : Kernel η κ) :
    Except PlatformError Unit → Kernel η κ → Prop
  | slots {e after} (hearly : e.poolFilled = false)
      (hrefused : Refused engine before after) :
      Reached engine device before (.error e) after
  | pool {e after slots slotsBus} (hlate : e.poolFilled = true) (hearly : e.doorbellFound = false)
      (hmemory : device.allocCoherent? sharedMemorySize = .ok (some (slots, slotsBus)))
      (hleft : after.inUse = (before.platform.fragments.refilled (slots + slotMemorySize),
        before.platform.doorbell)) :
      Reached engine device before (.error e) after
  | doorbell {result after slots slotsBus registers}
      (hlate : ∀ e, result = .error e → e.poolFilled = true ∧ e.doorbellFound = true)
      (hmemory : device.allocCoherent? sharedMemorySize = .ok (some (slots, slotsBus)))
      (hregisters : device.resource? ResourceFlags.registers 0 = some registers)
      (hleft : after.inUse = (before.platform.fragments.refilled (slots + slotMemorySize),
        registers.start)) :
      Reached engine device before result after

/-- A report on the console leaves the pool and the doorbell alone. -/
theorem OnlyReported.inUse_eq (h : OnlyReported before after) : after.inUse = before.inUse := by
  obtain ⟨console, rfl⟩ := h
  rfl

/-- A bring-up that is refused before the pool is filled leaves the pool and the doorbell alone. -/
theorem Refused.inUse_eq (hrefused : Refused engine before after)
    (hengine : engine.LeavesPlatform) : after.inUse = before.inUse := by
  rcases hrefused with hreported | ⟨start, reported, hreported, hasked⟩
  · exact hreported.inUse_eq
  · exact (hengine.initSlots _ _ _ _ _ hasked).trans hreported.inUse_eq

/-- Laying the slots out fills the pool and leaves the doorbell alone. -/
theorem inUse_withSlots {asked : Kernel η κ} (slots words : UInt64) (slotsBus : UInt32)
    (hsame : asked.inUse = before.inUse) :
    (asked.withSlots slots words slotsBus).inUse =
      (before.platform.fragments.refilled (slots + slotMemorySize), before.platform.doorbell) := by
  have hpool : asked.platform.fragments = before.platform.fragments := congrArg Prod.fst hsame
  have hdoorbell : asked.platform.doorbell = before.platform.doorbell := congrArg Prod.snd hsame
  simp only [inUse, withSlots, hpool, hdoorbell]

/-- Attaching the doorbell leaves the pool alone. -/
theorem attachDoorbell_inUse (h : attachDoorbell doorbell device before = .ok result after) :
    (result = .error .noRegisters ∧ after.inUse = before.inUse) ∨
      ∃ registers, device.resource? ResourceFlags.registers 0 = some registers ∧
        after.inUse = (before.platform.fragments, registers.start) ∧
        ∀ e, result = .error e → e.poolFilled = true ∧ e.doorbellFound = true := by
  obtain ⟨rfl, -, rfl⟩ | ⟨registers, hregisters, hdoorbell⟩ := attachDoorbell_cases h
  · exact Or.inl ⟨rfl, rfl⟩
  refine Or.inr ⟨registers, hregisters, ?_⟩
  rcases hdoorbell with ⟨rfl, -, hreported⟩ | ⟨-, source, rfl, hconnected⟩ | ⟨-, rfl, hconnected⟩
  · refine ⟨hreported.inUse_eq, ?_⟩
    rintro e ⟨⟩
    exact ⟨rfl, rfl⟩
  · obtain ⟨_, -, rfl, -⟩ | ⟨_, _, hnever, -⟩ := connectDoorbell_cases hconnected
    · refine ⟨rfl, ?_⟩
      rintro e ⟨⟩
      exact ⟨rfl, rfl⟩
    · cases hnever
  · obtain ⟨_, hnever, -⟩ | ⟨interrupts, board, -, rfl, -⟩ := connectDoorbell_cases hconnected
    · cases hnever
    · exact ⟨rfl, fun e hnever => nomatch hnever⟩

/-- So does the call of the firmware, which leaves the doorbell alone, too. -/
theorem announce_inUse (hengine : engine.LeavesPlatform)
    (h : announce engine slots slotsBus before = .ok result after) :
    after.inUse = before.inUse ∧
      ∀ e, result = .error e → e.poolFilled = true ∧ e.doorbellFound = true := by
  obtain ⟨source, rfl, htold⟩ | ⟨status, told, reported, htold, hreported, hrest⟩ :=
    announce_cases h
  · refine ⟨hengine.initFirmware slotsBus _ _ _ htold, ?_⟩
    rintro e ⟨⟩
    exact ⟨rfl, rfl⟩
  have hsame : reported.inUse = before.inUse :=
    hreported.inUse_eq.trans (hengine.initFirmware slotsBus _ _ _ htold)
  rcases hrest with ⟨-, rfl, rfl⟩ | ⟨-, rfl, hconnected⟩
  · refine ⟨hsame, ?_⟩
    rintro e ⟨⟩
    exact ⟨rfl, rfl⟩
  · exact ⟨(hengine.callConnected _ _ _ hconnected).trans hsame, fun e hnever => nomatch hnever⟩

/-- The pool is filled once the slots are laid out, whatever fails later, and the doorbell is
looked for after that. -/
theorem bringUp_reached (hengine : engine.LeavesPlatform)
    (h : bringUp engine doorbell device before = .ok result after) :
    Reached engine device before result after := by
  -- One stage after the other: where it fails, and what its success leaves for the next one.
  rw [bringUp_eq] at h
  rcases Action.andThen_eq_ok h with ⟨e, rfl, hshared⟩ | ⟨memory, reported, hshared, hrest⟩
  · obtain ⟨hreported, ⟨he, -⟩ | ⟨_, hnever, -⟩⟩ := shareMemory_cases hshared
    · cases he
      exact .slots rfl (Or.inl hreported)
    · cases hnever
  obtain ⟨hreported, hmemory⟩ := shareMemory_eq_ok hshared
  rcases Action.andThen_eq_ok hrest with ⟨e, rfl, hlaid⟩ | ⟨_, laid, hlaid, hrest⟩
  · obtain ⟨he, hrefused⟩ | ⟨_, _, hnever, -⟩ := laySlots_cases hlaid
    · cases he
      exact .slots rfl (Or.inr ⟨_, reported, hreported, hrefused⟩)
    · cases hnever
  obtain ⟨words, asked, hwords, -, rfl⟩ := laySlots_eq_ok hlaid
  have hlaidOut := inUse_withSlots memory.1 words memory.2
    ((hengine.initSlots _ _ _ _ _ hwords).trans hreported.inUse_eq)
  rcases Action.andThen_eq_ok hrest with ⟨e, rfl, hstarted⟩ | ⟨_, started, hstarted, hrest⟩
  · obtain ⟨he, _, -, hstate⟩ | ⟨hnever, -⟩ := startEngine_cases hstarted
    · cases he
      exact .pool rfl rfl hmemory ((hengine.initState _ _ _ hstate).trans hlaidOut)
    · cases hnever
  have hstartedUp := (hengine.initState _ _ _ (startEngine_eq_ok hstarted)).trans hlaidOut
  have hfilled : started.platform.fragments = _ := congrArg Prod.fst hstartedUp
  rcases Action.andThen_eq_ok hrest with ⟨e, rfl, hattached⟩ | ⟨_, attached, hattached, hrest⟩
  · obtain ⟨he, hsame⟩ | ⟨registers, hregisters, hattachedTo, hlate⟩ :=
      attachDoorbell_inUse hattached
    · cases he
      exact .pool rfl rfl hmemory (hsame.trans hstartedUp)
    · rw [hfilled] at hattachedTo
      exact .doorbell (fun _ he => Except.error.inj he ▸ hlate e rfl) hmemory hregisters
        hattachedTo
  obtain ⟨hnever, -⟩ | ⟨registers, hregisters, hattachedTo, -⟩ := attachDoorbell_inUse hattached
  · cases hnever
  rw [hfilled] at hattachedTo
  obtain ⟨hsame, hlate⟩ := announce_inUse hengine hrest
  exact .doorbell hlate hmemory hregisters (hsame.trans hattachedTo)

end Kernel

/-! ## Transfers in flight -/

/-- Asked to lay its slots out, the engine takes blocks of the heap at most and leaves the page
lists of all transfers alone. -/
structure Engine.Spares (engine : Engine η κ) (crew : Transfers ε η κ) : Prop where
  heap : ∀ start size kernel answer after, engine.initSlots start size kernel = .ok answer after →
    kernel.heap.next.toNat ≤ after.heap.next.toNat
  lists : ∀ task list, (crew.own task).bulk.pageList = some list →
    ∀ start size kernel answer after, engine.initSlots start size kernel = .ok answer after →
      Memory.AgreeOn kernel.board.device after.board.device list.descriptor (8 + 4 * list.pages)

namespace Transfer

/-- A transfer that nobody works on has a fragment and is over, with no more bytes reported than
it was to transfer. -/
structure Over (crew : Transfers ε η κ) (task : TaskId) (list : PageList) (index : Nat)
    (given : Bulk) : Prop where
  idle : ∃ own, crew.activity task = .idle own
  stored : (crew.own task).bulk.pageList = some list
  fragment : list.fragment = some index
  count : given.actual.toInt ≤ list.length.toNat
  reported : given.pageList = some list

/-- Completing a transfer that is over ends in its turn and gives its fragment back. -/
def GivesBack (host : Host ε (Kernel η κ)) (crew : Transfers ε η κ) : Prop :=
  ∀ task list index given machine, Over crew task list index given →
    machine.shared = crew.shared → machine.scheduler.mayLock = true →
    ∃ last, (Kernel.completeBulk given).turn host machine =
        .returned { given with pageList := none } last ∧
      last.shared.platform.fragments = crew.shared.platform.fragments.returned index

/-- Completing a transfer that is over stops the system. -/
def Stops (host : Host ε (Kernel η κ)) (crew : Transfers ε η κ) : Prop :=
  ∀ task list index given machine, Over crew task list index given →
    machine.shared = crew.shared → machine.scheduler.mayLock = true →
    ∃ last, (Kernel.completeBulk given).turn host machine = .failed (.bug none) last

/-- The platform goes on as if nothing had happened: the pool and the doorbell are as they were,
and whatever transfers do from now on, each that is over gives its fragment back. -/
structure Unharmed (host : Host ε (Kernel η κ)) (busOf : UInt64 → UInt32)
    (crew : Transfers ε η κ) (after : Kernel η κ) : Prop where
  pool : after.platform.fragments = crew.shared.platform.fragments
  doorbell : after.platform.doorbell = crew.shared.platform.doorbell
  givesBack : ∀ later, Run host busOf { crew with shared := after } later →
    Conserved later ∧ GivesBack host later

/-- All fragments are free in the memory of the new device, also those that transfers have, and
none of these transfers can be completed any more. -/
structure Harmed (host : Host ε (Kernel η κ)) (device : PlatformDevice) (e : PlatformError)
    (crew : Transfers ε η κ) (after : Kernel η κ) : Prop where
  pool : ∃ range, device.dmaMemory = some range ∧ FragmentsInPlace range after.platform.fragments
  /-- Those that transfers have are counted as free, too. -/
  counted : after.platform.fragments.freeCount.toNat =
    crew.shared.platform.fragments.freeCount.toNat + crew.total held
  doorbell : e.doorbellFound = false → after.platform.doorbell = crew.shared.platform.doorbell
  aimed : e.doorbellFound = true → ∃ registers,
    device.resource? ResourceFlags.registers 0 = some registers ∧
      after.platform.doorbell = registers.start
  stops : Stops host { crew with shared := after }

section Books

variable {host : Host ε (Kernel η κ)} {busOf : UInt64 → UInt32} {filled : FragmentPool}
  {headers : TaskId → Option UInt64} {crew : Transfers ε η κ} {engine : Engine η κ}
  {doorbell : η} {device : PlatformDevice} {e : PlatformError} {after : Kernel η κ}

/-- With the books in order, completing a transfer gives its fragment back. -/
theorem Books.givesBack (hbooks : Books busOf filled headers crew)
    (hfilled : IsPlatformPool filled) (hplaced : Placed crew) : GivesBack host crew := by
  intro task list index given machine hover hshared hmay
  have hdescribed := ((hbooks.tidy task).of_some hover.stored).1
  have hbare : ({ bulk := { given with pageList := none } } : Transfer).bulk.pageList = none := rfl
  obtain ⟨last, -, hturn, hpool, -⟩ := hbooks.turn_completes_lent hfilled hplaced host hshared hmay
    hover.stored hdescribed hover.fragment hover.reported hover.count hbare
  exact ⟨last, hturn, hpool⟩

/-- A refusal of memory or slots is something that other code did. -/
theorem elsewhere_of_refused (hengine : engine.LeavesPlatform) (hspares : engine.Spares crew)
    (hrefused : Kernel.Refused engine crew.shared after) :
    Elsewhere crew { crew with shared := after } := by
  rcases hrefused with ⟨console, rfl⟩ | ⟨start, reported, ⟨console, rfl⟩, hasked⟩
  · exact ⟨rfl, rfl, Nat.le_refl _, fun _ _ _ => .refl _ _ _⟩
  · have hheap := hspares.heap _ _ _ _ _ hasked
    refine ⟨rfl, congrArg Prod.fst (hengine.initSlots _ _ _ _ _ hasked), hheap, ?_⟩
    intro task list hlist
    have hkept := hspares.lists task list hlist _ _ _ _ _ hasked
    exact hkept

/-- Steps elsewhere in the kernel keep the buffers apart. -/
theorem Placed.elsewhere {next : Transfers ε η κ} (hplaced : Placed crew)
    (helsewhere : Elsewhere crew next) : Placed next := by
  have hown : next.own = crew.own := by
    funext task
    rw [Crew.own, Crew.own, helsewhere.activity]
  refine ⟨?_, ?_⟩
  · rw [hown, helsewhere.fragments]
    exact hplaced.fragments
  · rw [hown]
    exact hplaced.descriptors

/-- A refusal of memory or slots does no harm. -/
theorem Books.unharmed (hbooks : Books busOf filled headers crew) (hfilled : IsPlatformPool filled)
    (hplaced : Placed crew) (hengine : engine.LeavesPlatform) (hspares : engine.Spares crew)
    (hrefused : Kernel.Refused engine crew.shared after) : Unharmed host busOf crew after := by
  have helsewhere := elsewhere_of_refused hengine hspares hrefused
  have hsame := hrefused.inUse_eq hengine
  refine ⟨congrArg Prod.fst hsame, congrArg Prod.snd hsame, fun later hrun => ?_⟩
  obtain ⟨⟨_, hlater⟩, hstill⟩ :=
    hrun.books hfilled ⟨headers, hbooks.elsewhere helsewhere⟩ (hplaced.elsewhere helsewhere)
  exact ⟨hlater.conserved hfilled, hlater.givesBack hfilled hstill⟩

/-- Completing a transfer whose fragment is in a pool that was filled meanwhile stops the
system. -/
theorem Books.stops_refilled (hbooks : Books busOf filled headers crew)
    (hfilled : IsPlatformPool filled) {range : Resource}
    (hpool : FragmentsInPlace range after.platform.fragments)
    (hcount : after.platform.fragments.count = 64)
    (hguard : after.platform.fragments.guard.isLocked = false) :
    Stops host { crew with shared := after } := by
  intro task list index given machine hover hshared hmay
  have hstored : (crew.own task).bulk.pageList = some list := hover.stored
  have hdescribed := ((hbooks.tidy task).of_some hstored).1
  have hfits : list.buffer.toNat + list.length.toNat ≤ 2 ^ 64 := by
    rw [hdescribed.buffer, hdescribed.length]
    exact hdescribed.fits
  have hindex : index < 64 := by
    rw [← hfilled.count]
    apply hbooks.accounted.ledger.below task
    rw [own_pool, fragments_of_some hstored, hover.fragment]
    exact List.mem_singleton_self index
  obtain ⟨fragment, haddress, -⟩ := hpool.placed index hindex
  have hsize : after.platform.fragments.fragmentSize.toNat = 2 * (64 : UInt64).toNat := by
    rw [hpool.size]
    rfl
  obtain ⟨memory, hcopied⟩ : ∃ memory, PageList.copied list index given.actual
      (Kernel.transferView.get after) = .ok memory :=
    PageList.exists_copied hdescribed.offset hfits hindex (by decide) hsize haddress hover.count
  refine Kernel.turn_completeBulk_free (congrArg Kernel.transferView.get hshared) hmay hguard
    hover.reported hover.fragment ?_ ?_ hcopied
  · exact hcount ▸ hindex
  · intro hclear
    have hlent := (FragmentPool.and_bit_eq_zero_iff hindex).1 hclear
    exact Bool.false_ne_true (hlent.symm.trans (hpool.free index hindex))

/-- The platform begins with a pool in the memory that its device shares. -/
theorem isPlatformPool_of_shared {slots : UInt64} {slotsBus : UInt32} (pool : FragmentPool)
    (hguard : pool.guard.isLocked = false)
    (hmemory : device.allocCoherent? sharedMemorySize = .ok (some (slots, slotsBus))) :
    IsPlatformPool (pool.refilled (slots + slotMemorySize)) := by
  obtain ⟨range, -, hslots, hlarge⟩ := PlatformDevice.allocCoherent_eq_some hmemory
  obtain ⟨rfl, -⟩ := Prod.mk.inj hslots
  have hstop := range.stop.toNat_lt
  exact isPlatformPool_refilled pool hguard (toNat_behindSlots (by omega)).2

/-- A failure after the pool was filled harms all transfers that have a fragment. -/
theorem Books.harmed (hbooks : Books busOf filled headers crew) (hfilled : IsPlatformPool filled)
    {slots : UInt64} {slotsBus : UInt32} {address : UInt64}
    (hmemory : device.allocCoherent? sharedMemorySize = .ok (some (slots, slotsBus)))
    (hleft : after.inUse = (crew.shared.platform.fragments.refilled (slots + slotMemorySize),
      address))
    (hkept : e.doorbellFound = false → address = crew.shared.platform.doorbell)
    (hfound : e.doorbellFound = true → ∃ registers,
      device.resource? ResourceFlags.registers 0 = some registers ∧ address = registers.start) :
    Harmed host device e crew after := by
  have hpool : after.platform.fragments =
      crew.shared.platform.fragments.refilled (slots + slotMemorySize) := congrArg Prod.fst hleft
  have hdoorbell : after.platform.doorbell = address := congrArg Prod.snd hleft
  obtain ⟨range, hrange, hslots, hlarge⟩ := PlatformDevice.allocCoherent_eq_some hmemory
  obtain ⟨rfl, -⟩ := Prod.mk.inj hslots
  have hplace : FragmentsInPlace range after.platform.fragments := by
    rw [hpool]
    exact fragmentsInPlace_refilled _ hlarge
  have hcount : after.platform.fragments.count = 64 := by
    rw [hpool, FragmentPool.count_refilled]
  have hguard : after.platform.fragments.guard.isLocked = false := by
    rw [hpool, FragmentPool.guard_refilled]
    exact Bool.eq_false_iff.2 hbooks.accounted.ledger.guard
  rw [← hdoorbell] at hkept hfound
  refine ⟨⟨range, hrange, hplace⟩, ?_, hkept, hfound,
    hbooks.stops_refilled hfilled hplace hcount hguard⟩
  rw [hplace.counted]
  exact (hbooks.available_add_total hfilled).symm

/-- On a platform that came up and has been in use, bringing it up once more with any device may
fail.  If it fails for want of memory or of slots, nothing has changed for transfers and events.
If it fails later, all fragments count as free, and each transfer that has one stops the system
when it is completed. -/
theorem failing_bringUp_harmless_unless_refilled (host : Host ε (Kernel η κ))
    (busOf : UInt64 → UInt32) {start up : Kernel η κ} {first : Transfers ε η κ}
    {again : PlatformDevice} (hguard : start.platform.fragments.guard.isLocked = false)
    (hengine : engine.LeavesPlatform)
    (hup : Kernel.bringUp engine doorbell device start = .ok (.ok ()) up)
    (hshared : first.shared = up)
    (hidle : ∀ task, ∃ own, first.activity task = .idle own ∧ own.bulk.pageList = none)
    (hrun : Run host busOf first crew) (hspares : engine.Spares crew)
    (hagain : Kernel.bringUp engine doorbell again crew.shared = .ok (.error e) after) :
    (e.poolFilled = false → Unharmed host busOf crew after) ∧
      (e.poolFilled = true → Harmed host again e crew after) := by
  subst hshared
  -- It came up, so the pool of the first transfer was a full one, and the books begin with it.
  obtain ⟨pool, hpool, hfilled⟩ : ∃ pool, first.shared.platform.fragments = pool ∧
      IsPlatformPool pool := by
    cases Kernel.bringUp_reached hengine hup with
    | doorbell _ hmemory _ hleft =>
      exact ⟨_, congrArg Prod.fst hleft, isPlatformPool_of_shared _ hguard hmemory⟩
  obtain ⟨⟨headers, hbooks⟩, hplaced⟩ :=
    hrun.books hfilled ⟨_, books_begin busOf hfilled hpool hidle⟩ (placed_begin hidle)
  cases Kernel.bringUp_reached hengine hagain with
  | slots hearly hrefused =>
    refine ⟨fun _ => hbooks.unharmed hfilled hplaced hengine hspares hrefused, fun hlate => ?_⟩
    exact absurd (hearly.symm.trans hlate) Bool.false_ne_true
  | pool hlate hunfound hmemory hleft =>
    refine ⟨fun hearly => absurd (hearly.symm.trans hlate) Bool.false_ne_true, fun _ => ?_⟩
    exact hbooks.harmed hfilled hmemory hleft (fun _ => rfl)
      fun hfound => absurd (hunfound.symm.trans hfound) Bool.false_ne_true
  | doorbell hfound hmemory hregisters hleft =>
    obtain ⟨hlate, hdoorbell⟩ := hfound e rfl
    refine ⟨fun hearly => absurd (hearly.symm.trans hlate) Bool.false_ne_true, fun _ => ?_⟩
    exact hbooks.harmed hfilled hmemory hleft
      (fun hunfound => absurd (hunfound.symm.trans hdoorbell) Bool.false_ne_true)
      fun _ => ⟨_, hregisters, rfl⟩

end Books

/-- The example's engine touches neither the pool nor the doorbell. -/
theorem leavesPlatform_obliging : (Engine.obliging : Engine η κ).LeavesPlatform := by
  constructor
  case initSlots =>
    rintro start size kernel answer after ⟨⟩
    rfl
  case initState =>
    rintro kernel status after ⟨⟩
    rfl
  case callConnected =>
    rintro kernel _ after ⟨⟩
    rfl
  case initFirmware =>
    rintro bus kernel answer after ⟨⟩
    rfl

theorem spares_obliging (crew : Transfers ε η κ) : Engine.obliging.Spares crew := by
  constructor
  case heap =>
    rintro start size kernel answer after ⟨⟩
    exact Nat.le_refl _
  case lists =>
    rintro task list _ start size kernel answer after ⟨⟩
    exact .refl _ _ _

/-- On the board the doorbell's interrupt is taken when the platform comes up a second time.  A
receive that had a fragment is lost. -/
theorem failing_bringUp_harms_receiveNine :
    ∃ (up after : Kernel Unit Unit) (crew : Transfers Empty Unit Unit),
      Kernel.bringUp Engine.obliging () boardDevice idleKernel = .ok (.ok ()) up ∧
      Run (Host.still Empty (Kernel Unit Unit)) busOfPhysical
        (Crew.start up { bulk := receiveNine.bulk }) crew ∧
      (crew.own 0).fragments = [0] ∧
      Kernel.bringUp Engine.obliging () boardDevice crew.shared =
        .ok (.error (.irqRequest 66 (.alreadyRegistered 66))) after ∧
      Harmed (Host.still Empty (Kernel Unit Unit)) boardDevice
        (.irqRequest 66 (.alreadyRegistered 66)) crew after := by
  let host := Host.still Empty (Kernel Unit Unit)
  let left := receiveNine.prepared busOfPhysical 0x2000000 (some 0)
  obtain ⟨up, after, last, hup, hguard, hturn, hbase, hagain⟩ :
      ∃ (up after : Kernel Unit Unit) (last : Machine Empty (Kernel Unit Unit)),
        Kernel.bringUp Engine.obliging () boardDevice idleKernel = .ok (.ok ()) up ∧
        idleKernel.platform.fragments.guard.isLocked = false ∧
        (receiveNine.code busOfPhysical).turn host { shared := up } = .returned left last ∧
        last.shared.platform.fragments.base = 0x1cc1000 ∧
        Kernel.bringUp Engine.obliging () boardDevice last.shared =
          .ok (.error (.irqRequest 66 (.alreadyRegistered 66))) after :=
    ⟨_, _, _, rfl, rfl, rfl, rfl, rfl⟩
  let first : Transfers Empty Unit Unit := Crew.start up { bulk := receiveNine.bulk }
  have hidle : ∀ task, ∃ own, first.activity task = .idle own ∧ own.bulk.pageList = none :=
    fun task => ⟨_, rfl, rfl⟩
  have hstep : Crew.Step host (Call busOfPhysical) first (first.leave 0 last.shared (.idle left)) :=
    .returned (.begins (.prepares rfl rfl)) rfl rfl hturn
  have hstored : ∀ task list,
      ((first.leave 0 last.shared (.idle left)).own task).bulk.pageList = some list →
        list = receiveNine.describes busOfPhysical 0x2000000 (some 0) := by
    intro task list hlist
    rw [Crew.leave_own] at hlist
    by_cases htask : task = 0
    · rw [if_pos htask] at hlist
      exact (Option.some.inj hlist).symm
    · rw [if_neg htask] at hlist
      cases hlist
  have hplaced : Placed (first.leave 0 last.shared (.idle left)) := by
    refine ⟨fun task list hlist => ?_, fun task other list second hlist hsecond => ?_⟩
    · cases hstored task list hlist
      apply apart_receiveNine
      rw [Crew.leave_shared, hbase]
      decide
    · cases hstored task list hlist
      cases hstored other second hsecond
      exact apart_receiveNine (by decide)
  have hrun : Run host busOfPhysical first (first.leave 0 last.shared (.idle left)) :=
    .single ⟨Or.inl hstep, hplaced⟩
  have hharmed := (failing_bringUp_harmless_unless_refilled host busOfPhysical hguard
    leavesPlatform_obliging hup rfl hidle hrun (spares_obliging _) hagain).2 rfl
  exact ⟨up, after, _, hup, hrun, rfl, hagain, hharmed⟩

end Transfer

end DriverHost
