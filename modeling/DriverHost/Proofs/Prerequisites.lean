import DriverHost.Proofs.NotedCalls

/-!
# Prerequisites of bringing the platform up

Seven prerequisites are looked at in a fixed order.  Three of them are facts about the device and
one is about the interrupt controller; for the others the engine or the firmware is asked.  What was
asked, and what came back, says how far along that order a run has come.

Main results:

- Inductive type `PlatformDevice.Built` and structure `PlatformDevice.Shares`: devices and the
  memory that they share.
- Inductive type `Prerequisite` with definition `Prerequisite.Holds`: what is looked at, in order.
- Inductive relation `Prerequisite.Reports`: the error of a prerequisite that does not hold.
- Theorem `Kernel.StoppedAt.callsWhileHolding`: a call is made exactly if everything in front of it
  holds.
-/

namespace DriverHost

variable {η κ : Type}

/-! ## Devices -/

/-- A device as it is put together: resources and shared memory are added one by one. -/
inductive PlatformDevice.Built : PlatformDevice → Prop
  | bare : Built {}
  | addResource {device next : PlatformDevice} {start stop : UInt64} {flags : ResourceFlags}
      (hbuilt : Built device) (hadded : device.addResource start stop flags = .ok next) :
      Built next
  | setDmaMemory {device next : PlatformDevice} {start stop : UInt64} (hbuilt : Built device)
      (hset : device.setDmaMemory start stop = .ok next) : Built next

/-- The memory that a device shares does not end before it begins. -/
theorem PlatformDevice.Built.start_le_stop {device : PlatformDevice} {range : Resource}
    (hbuilt : device.Built) (hrange : device.dmaMemory = some range) :
    range.start ≤ range.stop := by
  induction hbuilt with
  | bare => cases hrange
  | addResource hbuilt hadded ih =>
    obtain ⟨_, -, hrest⟩ := bind_eq_ok_iff.1 hadded
    obtain ⟨_, -, hrest⟩ := bind_eq_ok_iff.1 hrest
    obtain ⟨_, -, hrest⟩ := bind_eq_ok_iff.1 hrest
    cases hrest
    exact ih hrange
  | @setDmaMemory device next start stop hbuilt hset ih =>
    obtain ⟨_, hordered, hrest⟩ := bind_eq_ok_iff.1 hset
    cases hrest
    cases hrange
    by_cases hinverted : stop < start
    · simp [bugIf, hinverted] at hordered
    · exact UInt64.not_lt.1 hinverted

/-- The device shares a range of memory that holds the slots and the fragments and does not begin
at address zero. -/
structure PlatformDevice.Shares (device : PlatformDevice) (range : Resource) : Prop where
  shared : device.dmaMemory = some range
  large : range.start.toNat + sharedMemorySize.toNat ≤ range.stop.toNat + 1
  nonzero : range.start ≠ 0

/-- A range that is not the whole address space has a size. -/
theorem Resource.size_eq_ok {range : Resource} (hordered : range.start ≤ range.stop)
    (hpart : ¬ (range.start = 0 ∧ range.stop = 0xffffffffffffffff)) :
    ∃ size, range.size = .ok size ∧ size.toNat + range.start.toNat = range.stop.toNat + 1 := by
  have hle := UInt64.le_iff_toNat_le.1 hordered
  have hstop := range.stop.toNat_lt
  have hone : (1 : UInt64).toNat = 1 := rfl
  have hdifference : subWords range.stop range.start = .ok (range.stop - range.start) :=
    if_pos hordered
  have hlength := toNat_of_subWords hdifference
  have hfits : (range.stop - range.start).toNat + 1 < 2 ^ 64 := by
    refine Nat.lt_of_not_le fun hwhole => hpart ⟨?_, ?_⟩
    · exact UInt64.toNat_inj.1 (by rw [UInt64.toNat_zero]; omega)
    · exact UInt64.toNat_inj.1 (by change _ = 2 ^ 64 - 1; omega)
  obtain ⟨size, hsize⟩ : ∃ size : UInt64, size.toNat = (range.stop - range.start).toNat + 1 :=
    ⟨_, UInt64.toNat_ofNat_of_lt' hfits⟩
  refine ⟨size, ?_, by omega⟩
  refine bind_eq_ok_iff.2 ⟨_, hdifference, ?_⟩
  rw [addWords, ensureWord_eq_ok_iff, hsize, hone]

/-- The device gives the range that it shares, or nothing if it shares none that will do. -/
theorem PlatformDevice.allocCoherent_cases {device : PlatformDevice} (hbuilt : device.Built)
    (hpart : ∀ range, device.dmaMemory = some range →
      ¬ (range.start = 0 ∧ range.stop = 0xffffffffffffffff)) :
    (∃ range, device.Shares range ∧ device.allocCoherent? sharedMemorySize =
        .ok (some (range.start, busOfPhysical range.start))) ∨
      (∀ range, ¬ device.Shares range) ∧ device.allocCoherent? sharedMemorySize = .ok none := by
  unfold allocCoherent?
  cases hrange : device.dmaMemory with
  | none =>
    refine Or.inr ⟨fun range hshares => ?_, rfl⟩
    cases hrange.symm.trans hshares.shared
  | some range =>
    obtain ⟨size, hsize, hend⟩ := range.size_eq_ok (hbuilt.start_le_stop hrange) (hpart _ hrange)
    by_cases hrefused : size < sharedMemorySize ∨ range.start = 0
    · refine Or.inr ⟨fun other hshares => ?_, bind_eq_ok_iff.2 ⟨size, hsize, if_pos hrefused⟩⟩
      cases hrange.symm.trans hshares.shared
      rcases hrefused with hsmall | hzero
      · have hlarge := hshares.large
        rw [UInt64.lt_iff_toNat_lt] at hsmall
        omega
      · exact hshares.nonzero hzero
    · refine Or.inl ⟨range, ⟨hrange, ?_, fun hzero => hrefused (Or.inr hzero)⟩,
        bind_eq_ok_iff.2 ⟨size, hsize, if_neg hrefused⟩⟩
      have hlarge : ¬ size < sharedMemorySize := fun hsmall => hrefused (Or.inl hsmall)
      rw [UInt64.lt_iff_toNat_lt] at hlarge
      omega

/-! ## Prerequisites -/

/-- What bringing the platform up looks at. -/
inductive Prerequisite where
  | memory
  | slots
  | state
  | registers
  | interrupt
  | connection
  | firmware

namespace Prerequisite

/-- The place in the order in which they are looked at. -/
def place : Prerequisite → Nat
  | memory => 0
  | slots => 1
  | state => 2
  | registers => 3
  | interrupt => 4
  | connection => 5
  | firmware => 6

/-- Each prerequisite has a place of its own. -/
theorem place_injective {first second : Prerequisite} (hplace : first.place = second.place) :
    first = second := by
  cases first <;> cases second <;> first | rfl | cases hplace

/-- Up to a place are those in front of it and the one that stands there. -/
theorem forall_lt_succ {property : Prerequisite → Prop} {place : Nat} (prerequisite : Prerequisite)
    (hplace : prerequisite.place = place)
    (hbefore : ∀ other : Prerequisite, other.place < place → property other)
    (hhere : property prerequisite) :
    ∀ other : Prerequisite, other.place < place + 1 → property other := by
  intro other hother
  rcases Nat.lt_succ_iff_lt_or_eq.1 hother with hearlier | hsame
  · exact hbefore other hearlier
  · exact place_injective (hsame.trans hplace.symm) ▸ hhere

theorem place_lt (prerequisite : Prerequisite) : prerequisite.place < 7 := by
  cases prerequisite <;> decide

/-- Each of the seven places has a prerequisite. -/
theorem exists_place {place : Nat} (hplace : place < 7) :
    ∃ prerequisite : Prerequisite, prerequisite.place = place :=
  match place, hplace with
  | 0, _ => ⟨memory, rfl⟩
  | 1, _ => ⟨slots, rfl⟩
  | 2, _ => ⟨state, rfl⟩
  | 3, _ => ⟨registers, rfl⟩
  | 4, _ => ⟨interrupt, rfl⟩
  | 5, _ => ⟨connection, rfl⟩
  | 6, _ => ⟨firmware, rfl⟩

/-- A prerequisite holds, going by the device, by the interrupt controller as it was at first, and
by what the calls were answered. -/
def Holds (device : PlatformDevice) (interrupts : InterruptController η)
    (calls : List PlatformCall) : Prerequisite → Prop
  | memory => ∃ range, device.Shares range
  | slots => ∃ range words, device.Shares range ∧
      .initSlots range.start slotMemorySize (.ok (some words)) ∈ calls
  | state => .initState (.ok .success) ∈ calls
  | registers => ∃ range, device.resource? ResourceFlags.registers 0 = some range
  | interrupt => ∃ number, device.irq? 0 = some number ∧ 0 < number
  | connection => ∃ number, device.irq? 0 = some number ∧ number.toNat < 128 ∧
      interrupts.handler number.toNat = none
  | firmware => ∃ range, device.Shares range ∧
      .initFirmware (busOfPhysical range.start) (.ok (.ok 0)) ∈ calls

/-- The error that is reported for a prerequisite, with its number. -/
inductive Reports (device : PlatformDevice) (interrupts : InterruptController η)
    (calls : List PlatformCall) : Prerequisite → PlatformError → Int → Prop
  | memory : Reports device interrupts calls .memory (.noDmaMemory sharedMemorySize) (-12)
  | slots {start} (hanswer : .initSlots start slotMemorySize (.ok none) ∈ calls) :
      Reports device interrupts calls .slots .slotInit (-22)
  | state {status} (hanswer : .initState (.ok status) ∈ calls) (hstatus : status ≠ .success) :
      Reports device interrupts calls .state .stateInit (-22)
  | registers : Reports device interrupts calls .registers .noRegisters (-19)
  | interrupt : Reports device interrupts calls .interrupt .noIrq (-6)
  | outOfRange {number} (hnumber : device.irq? 0 = some number) (hlarge : 128 ≤ number.toNat) :
      Reports device interrupts calls .connection
        (.irqRequest number.toNat (.outOfRange number.toNat)) (-16)
  | taken {number} (hnumber : device.irq? 0 = some number) (hsmall : number.toNat < 128)
      (htaken : interrupts.handler number.toNat ≠ none) :
      Reports device interrupts calls .connection
        (.irqRequest number.toNat (.alreadyRegistered number.toNat)) (-16)
  | firmware {bus source} (hanswer : .initFirmware bus (.ok (.error source)) ∈ calls) :
      Reports device interrupts calls .firmware (.firmware source) (-19)
  | refused {bus status} (hanswer : .initFirmware bus (.ok (.ok status)) ∈ calls)
      (hstatus : status ≠ 0) :
      Reports device interrupts calls .firmware (.channelBase status) (-6)

/-- Only the connection of the doorbell reports an error of the interrupt controller. -/
theorem Reports.eq_connection {device : PlatformDevice} {interrupts : InterruptController η}
    {calls : List PlatformCall} {prerequisite : Prerequisite} {irq : Nat} {source : IrqError}
    {number : Int}
    (hreports : prerequisite.Reports device interrupts calls (.irqRequest irq source) number) :
    prerequisite = .connection := by
  cases hreports <;> rfl

/-- What held goes on to hold when there is one more call. -/
theorem Holds.append {device : PlatformDevice} {interrupts : InterruptController η}
    {calls : List PlatformCall} {prerequisite : Prerequisite}
    (hholds : prerequisite.Holds device interrupts calls) (call : PlatformCall) :
    prerequisite.Holds device interrupts (calls ++ [call]) := by
  cases prerequisite with
  | memory => exact hholds
  | slots =>
    obtain ⟨range, words, hshares, hanswer⟩ := hholds
    exact ⟨range, words, hshares, List.mem_append_left _ hanswer⟩
  | state => exact List.mem_append_left _ hholds
  | registers => exact hholds
  | interrupt => exact hholds
  | connection => exact hholds
  | firmware =>
    obtain ⟨range, hshares, hanswer⟩ := hholds
    exact ⟨range, hshares, List.mem_append_left _ hanswer⟩

end Prerequisite

/-- The place of a call is that of the prerequisite that it decides.  The last call comes behind
all of them. -/
def PlatformCall.place : PlatformCall → Nat
  | initSlots _ _ _ => 1
  | initState _ => 2
  | connect _ _ => 5
  | initFirmware _ _ => 6
  | callConnected _ => 7

/-- The places of all calls. -/
def callPlaces : List Nat := [1, 2, 5, 6, 7]

/-- At a place without a call, none is made in addition to those in front of it. -/
theorem filter_lt_of_not_mem {place : Nat} (hplace : place ∉ callPlaces) :
    callPlaces.filter (· < place) = callPlaces.filter (· ≤ place) := by
  apply List.filter_congr
  intro other hother
  have hne : other ≠ place := fun hsame => hplace (hsame ▸ hother)
  rw [decide_eq_decide]
  omega

namespace Kernel

variable {device : PlatformDevice} {interrupts : InterruptController η} {place : Nat}
  {calls : List PlatformCall} {call : PlatformCall} {before after : Kernel η (Noted κ)}

/-! ## How far the calls have come -/

/-- Everything in front of a place holds, and exactly the calls in front of it were made. -/
structure Cleared (device : PlatformDevice) (interrupts : InterruptController η) (place : Nat)
    (kernel : Kernel η (Noted κ)) : Prop where
  holds : ∀ prerequisite : Prerequisite, prerequisite.place < place →
    prerequisite.Holds device interrupts kernel.calls
  made : kernel.calls.map PlatformCall.place = callPlaces.filter (· < place)
  /-- Before the connection the interrupt controller is as it was at first. -/
  untouched : place ≤ 5 → kernel.interrupts = interrupts

/-- Everything in front of a place holds and what is there does not, and the calls up to it were
made. -/
structure StoppedAt (device : PlatformDevice) (interrupts : InterruptController η) (place : Nat)
    (calls : List PlatformCall) : Prop where
  holds : ∀ prerequisite : Prerequisite, prerequisite.place < place →
    prerequisite.Holds device interrupts calls
  fails : ∀ prerequisite : Prerequisite, prerequisite.place = place →
    ¬ prerequisite.Holds device interrupts calls
  made : calls.map PlatformCall.place = callPlaces.filter (· ≤ place)

/-- The calls come in their order, each of them at most once, and one is made exactly if everything
in front of it holds. -/
structure CallsWhileHolding (device : PlatformDevice) (interrupts : InterruptController η)
    (calls : List PlatformCall) : Prop where
  ordered : (calls.map PlatformCall.place).Sublist callPlaces
  made : ∀ place ∈ callPlaces, place ∈ calls.map PlatformCall.place ↔
    ∀ prerequisite : Prerequisite, prerequisite.place < place →
      prerequisite.Holds device interrupts calls

/-- A bring-up that stops at a prerequisite has made its calls in order and while everything in
front of them held. -/
theorem StoppedAt.callsWhileHolding (hstopped : StoppedAt device interrupts place calls) :
    CallsWhileHolding device interrupts calls := by
  refine ⟨hstopped.made ▸ List.filter_sublist, fun other hother => ?_⟩
  simp only [hstopped.made, List.mem_filter, hother, true_and, decide_eq_true_eq]
  constructor
  · intro hle prerequisite hbefore
    exact hstopped.holds prerequisite (Nat.lt_of_lt_of_le hbefore hle)
  · intro hall
    -- Past the place, the prerequisite that stands there would have to hold.
    refine Nat.le_of_not_lt fun hpast => ?_
    have hlast : ∀ other ∈ callPlaces, other ≤ 7 := by decide
    obtain ⟨prerequisite, hthere⟩ :=
      Prerequisite.exists_place (Nat.lt_of_lt_of_le hpast (hlast other hother))
    exact hstopped.fails prerequisite hthere (hall prerequisite (hthere ▸ hpast))

namespace Cleared

/-- At the start nothing has been asked for and no call made. -/
theorem start (device : PlatformDevice) (kernel : Kernel η κ) :
    Cleared device kernel.interrupts 0 (kernel.noting []) :=
  ⟨fun _ hplace => absurd hplace (Nat.not_lt_zero _), rfl, fun _ => rfl⟩

/-- What only reports goes no further. -/
theorem reported (hcleared : Cleared device interrupts place before)
    (hreported : OnlyReported before after) : Cleared device interrupts place after := by
  obtain ⟨console, rfl⟩ := hreported
  exact ⟨hcleared.holds, hcleared.made, hcleared.untouched⟩

/-- A prerequisite that nobody is asked about holds. -/
theorem skip (hcleared : Cleared device interrupts place before) (prerequisite : Prerequisite)
    (hplace : prerequisite.place = place) (hnobody : place ∉ callPlaces)
    (hholds : prerequisite.Holds device interrupts before.calls) :
    Cleared device interrupts (place + 1) before := by
  refine ⟨prerequisite.forall_lt_succ hplace hcleared.holds hholds, ?_,
    fun hle => hcleared.untouched (by omega)⟩
  rw [hcleared.made, filter_lt_of_not_mem hnobody]
  simp only [Nat.lt_succ_iff]

/-- A prerequisite that nobody is asked about does not hold. -/
theorem stuck (hcleared : Cleared device interrupts place before) (prerequisite : Prerequisite)
    (hplace : prerequisite.place = place) (hnobody : place ∉ callPlaces)
    (hfails : ¬ prerequisite.Holds device interrupts before.calls) :
    StoppedAt device interrupts place before.calls := by
  refine ⟨hcleared.holds, fun other hhere => ?_, ?_⟩
  · exact Prerequisite.place_injective (hhere.trans hplace.symm) ▸ hfails
  · rw [hcleared.made, filter_lt_of_not_mem hnobody]

/-- Where everything in front of a place holds, its call is the next one. -/
theorem made_call (hcleared : Cleared device interrupts place before) (hcall : call.place = place) :
    (before.calls ++ [call]).map PlatformCall.place = callPlaces.filter (· ≤ place) := by
  have hplaces : ∀ call : PlatformCall, callPlaces.filter (· < call.place) ++ [call.place] =
      callPlaces.filter (· ≤ call.place) := by
    intro call
    cases call <;> rfl
  rw [List.map_append, hcleared.made, ← hcall]
  exact hplaces call

/-- The call that was just made is the only one at its place. -/
theorem eq_of_mem (hcleared : Cleared device interrupts place before) {other : PlatformCall}
    (hother : other.place = place) (hmem : other ∈ before.calls ++ [call]) : other = call := by
  rcases List.mem_append.1 hmem with hearlier | hlast
  · have hplace : other.place ∈ callPlaces.filter (· < place) := by
      rw [← hcleared.made]
      exact List.mem_map_of_mem hearlier
    simp [hother] at hplace
  · exact List.mem_singleton.1 hlast

/-- Somebody was asked, and the prerequisite holds. -/
theorem next (hcleared : Cleared device interrupts place before) (prerequisite : Prerequisite)
    (hplace : prerequisite.place = place) (hcall : call.place = place)
    (hcalls : after.calls = before.calls ++ [call])
    (hholds : prerequisite.Holds device interrupts after.calls)
    (huntouched : place + 1 ≤ 5 → after.interrupts = before.interrupts) :
    Cleared device interrupts (place + 1) after := by
  refine ⟨prerequisite.forall_lt_succ hplace (fun other hearlier => ?_) hholds, ?_, fun hle => ?_⟩
  · rw [hcalls]
    exact (hcleared.holds other hearlier).append call
  · rw [hcalls, hcleared.made_call hcall]
    simp only [Nat.lt_succ_iff]
  · exact (huntouched hle).trans (hcleared.untouched (by omega))

/-- Somebody was asked, and the prerequisite does not hold. -/
theorem stoppedAt (hcleared : Cleared device interrupts place before)
    (prerequisite : Prerequisite) (hplace : prerequisite.place = place)
    (hcall : call.place = place)
    (hfails : ¬ prerequisite.Holds device interrupts (before.calls ++ [call])) :
    StoppedAt device interrupts place (before.calls ++ [call]) := by
  refine ⟨fun other hbefore => ?_, fun other hhere => ?_, hcleared.made_call hcall⟩
  · exact (hcleared.holds other hbefore).append call
  · exact Prerequisite.place_injective (hhere.trans hplace.symm) ▸ hfails

/-- Behind the last call there is no prerequisite that could fail. -/
theorem stoppedAt_last (hcleared : Cleared device interrupts 8 before) :
    StoppedAt device interrupts 7 before.calls := by
  refine ⟨fun prerequisite hbefore => hcleared.holds prerequisite (by omega), ?_, hcleared.made⟩
  exact fun prerequisite hplace => absurd hplace prerequisite.place_lt.ne

end Cleared

end Kernel

end DriverHost
