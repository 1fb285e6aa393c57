import DriverHost.Proofs.Prerequisites
import DriverHost.Proofs.SecondBringUp

/-!
# The first failure of bringing the platform up

The stages look at the prerequisites in their order.  The first one that does not hold is reported,
and nobody is asked about those behind it.

Main results:

- Inductive relation `Engine.Stops`: a call from which the engine does not return.
- Definition `Kernel.Ends`: how a stage can end, with one lemma for each stage.
- Theorem `Kernel.reports_first_failure`: which result comes back, and which calls were made.
-/

namespace DriverHost

variable {α β η κ : Type}

/-- The engine does not return from a call. -/
inductive Engine.Stops (engine : Engine η κ) : PlatformCall → Fault → Prop
  | initSlots {start size cause before after}
      (hstops : engine.initSlots start size before = .error cause after) :
      engine.Stops (.initSlots start size (.error cause)) cause
  | initState {cause before after} (hstops : engine.initState before = .error cause after) :
      engine.Stops (.initState (.error cause)) cause
  | initFirmware {bus cause before after}
      (hstops : engine.initFirmware bus before = .error cause after) :
      engine.Stops (.initFirmware bus (.error cause)) cause
  | callConnected {cause before after}
      (hstops : engine.callConnected before = .error cause after) :
      engine.Stops (.callConnected (.error cause)) cause

/-- Laying out its slots and setting up its state, the engine leaves the interrupt controller
alone. -/
structure Engine.SparesInterrupts (engine : Engine η κ) : Prop where
  initSlots : ∀ start size, (engine.initSlots start size).Keeps Kernel.interrupts
  initState : engine.initState.Keeps Kernel.interrupts

namespace Kernel

variable {engine : Engine η κ} {doorbell : η} {device : PlatformDevice} {range : Resource}
  {interrupts : InterruptController η} {place : Nat} {calls : List PlatformCall}
  {call : PlatformCall} {before after : Kernel η (Noted κ)} {cause : Fault} {e : PlatformError}

/-! ## How the stages end -/

/-- A stage ends behind a place, with an error at the first prerequisite that does not hold, or in
a call from which the engine does not return. -/
def Ends (engine : Engine η κ) (device : PlatformDevice) (interrupts : InterruptController η)
    (place : Nat) (given : α → Prop) :
    EStateM.Result Fault (Kernel η (Noted κ)) (Except PlatformError α) → Prop
  | .ok (.ok value) after => given value ∧ Cleared device interrupts place after
  | .ok (.error e) after => ∃ prerequisite : Prerequisite,
      StoppedAt device interrupts prerequisite.place after.calls ∧
        prerequisite.Reports device interrupts after.calls e e.errno
  | .error cause after => ∃ made call, after.calls = made ++ [call] ∧ engine.Stops call cause ∧
      StoppedAt device interrupts call.place after.calls

/-- Two stages that each end at the first prerequisite that does not hold do so in sequence. -/
theorem Ends.andThen {first : Action (Kernel η (Noted κ)) (Except PlatformError α)}
    {next : α → Action (Kernel η (Noted κ)) (Except PlatformError β)} {given : α → Prop}
    {later : Nat} {result : β → Prop}
    (hfirst : Ends engine device interrupts place given (first before))
    (hnext : ∀ value after, given value → Cleared device interrupts place after →
      Ends engine device interrupts later result (next value after)) :
    Ends engine device interrupts later result (first.andThen next before) := by
  rw [Action.andThen_apply]
  cases hreached : first before with
  | error cause reached =>
    rw [hreached] at hfirst
    exact hfirst
  | ok answer reached =>
    rw [hreached] at hfirst
    cases answer with
    | error e => exact hfirst
    | ok value => exact hnext value reached hfirst.1 hfirst.2

/-- The first step always comes to an end: with the memory that the device has, or with the error
for having none. -/
theorem exists_shareMemory {memory : Option (UInt64 × UInt32)}
    (hmemory : device.allocCoherent? sharedMemorySize = .ok memory) (before : Kernel η κ) :
    ∃ after, OnlyReported before after ∧ shareMemory device before =
      .ok (memory.elim (.error (.noDmaMemory sharedMemorySize)) .ok) after := by
  have hasked : (liftM (device.allocCoherent? sharedMemorySize) :
      Action (Kernel η κ) _) before = .ok memory before := Action.lift_eq_ok_iff.2 ⟨hmemory, rfl⟩
  rw [shareMemory, Action.bind_of_ok hasked]
  rcases memory with _ | ⟨slots, slotsBus⟩
  · exact ⟨_, onlyReported_log _ _ _ _, rfl⟩
  · obtain ⟨aligned, haligned⟩ : ∃ aligned, isAligned slots pageSize = .ok aligned := ⟨_, rfl⟩
    have hlooked : (liftM (isAligned slots pageSize) : Action (Kernel η κ) _) before =
        .ok aligned before := Action.lift_eq_ok_iff.2 ⟨haligned, rfl⟩
    cases aligned with
    | false => exact ⟨_, onlyReported_log _ _ _ _, Action.bind_of_ok hlooked _⟩
    | true => exact ⟨_, .refl _, Action.bind_of_ok hlooked _⟩

/-- The shared memory is the first prerequisite. -/
theorem ends_shareMemory (engine : Engine η κ) (hbuilt : device.Built)
    (hpart : ∀ range, device.dmaMemory = some range →
      ¬ (range.start = 0 ∧ range.stop = 0xffffffffffffffff))
    (hcleared : Cleared device interrupts 0 before) :
    Ends engine device interrupts 1
      (fun memory => ∃ range, device.Shares range ∧
        memory = (range.start, busOfPhysical range.start)) (shareMemory device before) := by
  have hnobody : 0 ∉ callPlaces := by decide
  rcases PlatformDevice.allocCoherent_cases hbuilt hpart with ⟨range, hshares, hmemory⟩ |
    ⟨hnever, hmemory⟩
  · obtain ⟨after, hreported, hshared⟩ := exists_shareMemory hmemory before
    rw [hshared]
    exact ⟨⟨range, hshares, rfl⟩,
      (hcleared.reported hreported).skip .memory rfl hnobody ⟨range, hshares⟩⟩
  · obtain ⟨after, hreported, hshared⟩ := exists_shareMemory hmemory before
    rw [hshared]
    exact ⟨.memory, (hcleared.reported hreported).stuck .memory rfl hnobody
      fun ⟨range, hshares⟩ => hnever range hshares, .memory⟩

/-- Laying out slots that the engine accepts succeeds if the shared memory ends within the address
space. -/
theorem laySlots_of_some {engine : Engine η κ} {slots words : UInt64} {slotsBus : UInt32}
    {before asked : Kernel η κ}
    (hasked : engine.initSlots slots slotMemorySize before = .ok (some words) asked)
    (hfits : slots.toNat + sharedMemorySize.toNat ≤ 2 ^ 64) :
    laySlots engine slots slotsBus before =
      .ok (.ok ()) (asked.withSlots slots words slotsBus) := by
  obtain ⟨hsum, -⟩ := toNat_behindSlots hfits
  have hbase : addWords slots slotMemorySize = .ok (slots + slotMemorySize) := by
    rw [addWords, ensureWord_eq_ok_iff, hsum]
  have hstored : ∃ stored, storePlatformWords words (slotsBus + slotMemorySize.toUInt32) asked =
      .ok () stored ∧ refillFragments slots stored =
        .ok () (asked.withSlots slots words slotsBus) := by
    refine ⟨_, rfl, ?_⟩
    rw [refillFragments_apply, hbase]
    rfl
  obtain ⟨stored, hstored, hrefilled⟩ := hstored
  rw [laySlots, Action.bind_of_ok hasked]
  exact (Action.bind_of_ok hstored _).trans (Action.bind_of_ok hrefilled _)

/-- Laying the slots out decides whether the engine takes the memory. -/
theorem ends_laySlots (hinterrupts : engine.SparesInterrupts) (hshares : device.Shares range)
    (hcleared : Cleared device interrupts 1 before) (slotsBus : UInt32) :
    Ends engine device interrupts 2 (fun _ : Unit => True)
      (laySlots engine.noting range.start slotsBus before) := by
  have hrefused : ∀ answer, (∀ words, answer ≠ .ok (some words)) →
      ¬ Prerequisite.slots.Holds device interrupts
        (before.calls ++ [.initSlots range.start slotMemorySize answer]) := by
    rintro answer hnever ⟨granted, words, -, hgranted⟩
    have hanswer := hcleared.eq_of_mem rfl hgranted
    simp only [PlatformCall.initSlots.injEq] at hanswer
    exact hnever words hanswer.2.2.symm
  cases hanswer : engine.initSlots range.start slotMemorySize before.forget with
  | error cause after =>
    have hasked : engine.noting.initSlots range.start slotMemorySize before = .error cause _ :=
      noted_of_error hanswer
    rw [laySlots, Action.bind_of_error hasked]
    exact ⟨_, _, rfl, .initSlots hanswer,
      hcleared.stoppedAt .slots rfl rfl (hrefused _ (by simp))⟩
  | ok answer after =>
    have hasked : engine.noting.initSlots range.start slotMemorySize before = .ok answer _ :=
      noted_of_ok hanswer
    cases answer with
    | none =>
      rw [laySlots, Action.bind_of_ok hasked]
      exact ⟨.slots,
        hcleared.stoppedAt .slots rfl rfl (hrefused _ (by simp)),
        .slots List.mem_concat_self⟩
    | some words =>
      rw [laySlots_of_some hasked (hshares.large.trans range.stop.toNat_lt)]
      refine ⟨trivial, hcleared.next .slots rfl rfl rfl ?_ fun _ => ?_⟩
      · exact ⟨range, words, hshares, List.mem_concat_self⟩
      · exact hinterrupts.initSlots _ _ _ _ _ hanswer

/-- Starting the engine decides whether its state can be set up. -/
theorem ends_startEngine (hinterrupts : engine.SparesInterrupts)
    (hcleared : Cleared device interrupts 2 before) :
    Ends engine device interrupts 3 (fun _ : Unit => True) (startEngine engine.noting before) := by
  have hrefused : ∀ answer, answer ≠ .ok .success →
      ¬ Prerequisite.state.Holds device interrupts (before.calls ++ [.initState answer]) := by
    intro answer hnever hgranted
    have hanswer := hcleared.eq_of_mem rfl hgranted
    simp only [PlatformCall.initState.injEq] at hanswer
    exact hnever hanswer.symm
  cases hanswer : engine.initState before.forget with
  | error cause after =>
    have hasked : engine.noting.initState before = .error cause _ := noted_of_error hanswer
    rw [startEngine, Action.bind_of_error hasked]
    exact ⟨_, _, rfl, .initState hanswer,
      hcleared.stoppedAt .state rfl rfl (hrefused _ (by simp))⟩
  | ok status after =>
    have hasked : engine.noting.initState before = .ok status _ := noted_of_ok hanswer
    rw [startEngine, Action.bind_of_ok hasked]
    by_cases hsuccess : status = .success
    · subst hsuccess
      refine ⟨trivial, hcleared.next .state rfl rfl rfl List.mem_concat_self fun _ => ?_⟩
      exact hinterrupts.initState _ _ _ hanswer
    · rw [if_pos hsuccess]
      exact ⟨.state, hcleared.stoppedAt .state rfl rfl (hrefused _ (by simpa using hsuccess)),
        .state List.mem_concat_self hsuccess⟩

/-- The answer to connecting a number. -/
theorem connectDoorbell_answer (irq : Nat) (doorbell : η) (kernel : Kernel η κ) :
    ∃ after, connectDoorbell irq doorbell kernel =
      .ok (if 128 ≤ irq then .error (.outOfRange irq)
        else if (kernel.interrupts.handler irq).isSome then .error (.alreadyRegistered irq)
        else .ok ()) after := by
  have hsize : InterruptController.tableSize = 128 := rfl
  rw [connectDoorbell, InterruptController.connect, hsize]
  by_cases houtside : 128 ≤ irq
  · simp [houtside]
  · by_cases htaken : (kernel.interrupts.handler irq).isSome = true
    · simp [houtside, htaken]
    · simp [houtside, htaken]

/-- Connecting a number decides whether the connection comes about. -/
theorem ends_connect {irq : UInt64} (engine : Engine η κ) (doorbell : η)
    (hirq : device.irq? 0 = some irq) (hcleared : Cleared device interrupts 5 before) :
    ∃ answer after, noted (.connect irq.toNat) (connectDoorbell irq.toNat doorbell) before =
        .ok answer after ∧
      Ends engine device interrupts 6 (fun _ : Unit => True)
        (.ok (answer.mapError (.irqRequest irq.toNat)) after) := by
  obtain ⟨connected, hconnected⟩ := connectDoorbell_answer irq.toNat doorbell before.forget
  rw [interrupts_forget, hcleared.untouched (Nat.le_refl 5)] at hconnected
  refine ⟨_, _, noted_of_ok hconnected, ?_⟩
  have hnever : ∀ calls, (128 ≤ irq.toNat ∨ interrupts.handler irq.toNat ≠ none) →
      ¬ Prerequisite.connection.Holds device interrupts calls := by
    rintro calls hrefused ⟨number, hnumber, hsmall, hfree⟩
    cases hirq.symm.trans hnumber
    rcases hrefused with hlarge | htaken
    · omega
    · exact htaken hfree
  by_cases hlarge : 128 ≤ irq.toNat
  · simp only [if_pos hlarge]
    exact ⟨.connection, hcleared.stoppedAt .connection rfl rfl (hnever _ (Or.inl hlarge)),
      .outOfRange hirq hlarge⟩
  have hsmall : irq.toNat < 128 := Nat.lt_of_not_le hlarge
  cases hhandler : interrupts.handler irq.toNat with
  | some handler =>
    have htaken : interrupts.handler irq.toNat ≠ none := by simp [hhandler]
    simp only [if_neg hlarge, Option.isSome_some, if_true]
    exact ⟨.connection, hcleared.stoppedAt .connection rfl rfl (hnever _ (Or.inr htaken)),
      .taken hirq hsmall htaken⟩
  | none =>
    simp only [if_neg hlarge, Option.isSome_none, Bool.false_eq_true, if_false]
    exact ⟨trivial, hcleared.next .connection rfl rfl rfl ⟨irq, hirq, hsmall, hhandler⟩
      fun hearly => absurd hearly (by decide)⟩

/-- Attaching the doorbell decides about its registers, its interrupt and the connection. -/
theorem ends_attachDoorbell (engine : Engine η κ) (doorbell : η)
    (hcleared : Cleared device interrupts 3 before) :
    Ends engine device interrupts 6 (fun _ : Unit => True)
      (attachDoorbellBy (fun irq => noted (.connect irq) (connectDoorbell irq doorbell)) device
        before) := by
  have hwindow : 3 ∉ callPlaces := by decide
  have hnumber : 4 ∉ callPlaces := by decide
  unfold attachDoorbellBy
  cases hregisters : device.resource? ResourceFlags.registers 0 with
  | none =>
    refine ⟨.registers, hcleared.stuck .registers rfl hwindow ?_, .registers⟩
    rintro ⟨registers, hfound⟩
    cases hregisters.symm.trans hfound
  | some registers =>
    have hstored : Cleared device interrupts 4 (before.withDoorbell registers.start) := by
      have hpassed := hcleared.skip .registers rfl hwindow ⟨registers, hregisters⟩
      exact ⟨hpassed.holds, hpassed.made, hpassed.untouched⟩
    have hupdated : updatePlatform (fun platform =>
        { platform with doorbell := registers.start }) before =
          .ok () (before.withDoorbell registers.start) := rfl
    simp only
    rw [Action.bind_of_ok hupdated]
    by_cases hzero : ((device.irq? 0).getD 0).toNat = 0
    · rw [if_pos hzero]
      refine ⟨.interrupt, (hstored.reported (onlyReported_log _ _ _ _)).stuck .interrupt rfl hnumber
        ?_, .interrupt⟩
      rintro ⟨number, hfound, hpositive⟩
      rw [hfound, Option.getD_some] at hzero
      rw [UInt64.lt_iff_toNat_lt, hzero] at hpositive
      exact absurd hpositive (Nat.lt_irrefl 0)
    · rw [if_neg hzero]
      obtain ⟨irq, hirq, hsame⟩ : ∃ irq, device.irq? 0 = some irq ∧
          ((device.irq? 0).getD 0).toNat = irq.toNat := irq_of_irqNumber_ne_zero hzero
      have hpositive : 0 < irq := by
        rw [UInt64.lt_iff_toNat_lt, ← hsame]
        exact Nat.pos_of_ne_zero hzero
      obtain ⟨answer, after, hasked, hends⟩ := ends_connect engine doorbell hirq
        (hstored.skip .interrupt rfl hnumber ⟨irq, hirq, hpositive⟩)
      rw [hirq, Option.getD_some, Action.bind_of_ok hasked]
      cases answer <;> exact hends

/-- Once the firmware agreed, whoever waits is told, and that is the last call. -/
theorem ends_conclude (slots : UInt64) (slotsBus : UInt32)
    (hcleared : Cleared device interrupts 7 before) :
    Ends engine device interrupts 8 (fun _ : Unit => True)
      (conclude engine.noting slots slotsBus (.ok 0) before) := by
  obtain ⟨ready, hready, hreport⟩ : ∃ ready : Kernel η (Noted κ), OnlyReported before ready ∧
      report .notice ("vchiq_init - done (slots " ++ hexText slots.toNat ++ ", phys " ++
        hexTextWide 10 slotsBus.toNat ++ ")") before = .ok () ready :=
    ⟨_, onlyReported_log _ _ _ _, rfl⟩
  have hcleared := hcleared.reported hready
  rw [conclude, if_neg (by decide), Action.bind_of_ok hreport]
  cases hanswer : engine.callConnected ready.forget with
  | error cause after =>
    have hasked : engine.noting.callConnected ready = .error cause _ := noted_of_error hanswer
    rw [Action.bind_of_error hasked]
    refine ⟨_, _, rfl, .callConnected hanswer, ?_, ?_, hcleared.made_call rfl⟩
    · exact fun prerequisite hbefore => (hcleared.holds prerequisite hbefore).append _
    · exact fun prerequisite hplace => absurd hplace prerequisite.place_lt.ne
  | ok told after =>
    have hasked : engine.noting.callConnected ready = .ok told _ := noted_of_ok hanswer
    rw [Action.bind_of_ok hasked]
    refine ⟨trivial, fun prerequisite _ => ?_, ?_, fun hearly => absurd hearly (by decide)⟩
    · exact (hcleared.holds prerequisite prerequisite.place_lt).append _
    · exact hcleared.made_call rfl

/-- The call of the firmware decides whether it agrees. -/
theorem ends_announce (hshares : device.Shares range)
    (hcleared : Cleared device interrupts 6 before) :
    Ends engine device interrupts 8 (fun _ : Unit => True)
      (announce engine.noting range.start (busOfPhysical range.start) before) := by
  have hrefused : ∀ bus answer, answer ≠ .ok (.ok 0) →
      ¬ Prerequisite.firmware.Holds device interrupts
        (before.calls ++ [.initFirmware bus answer]) := by
    rintro bus answer hnever ⟨other, -, hagreed⟩
    have hanswer := hcleared.eq_of_mem rfl hagreed
    simp only [PlatformCall.initFirmware.injEq] at hanswer
    exact hnever hanswer.2.symm
  cases hanswer : engine.initFirmware (busOfPhysical range.start) before.forget with
  | error cause after =>
    have hasked : engine.noting.initFirmware (busOfPhysical range.start) before =
        .error cause _ := noted_of_error hanswer
    rw [announce, Action.bind_of_error hasked]
    exact ⟨_, _, rfl, .initFirmware hanswer,
      hcleared.stoppedAt .firmware rfl rfl (hrefused _ _ fun hagreed => nomatch hagreed)⟩
  | ok answer after =>
    have hasked : engine.noting.initFirmware (busOfPhysical range.start) before =
        .ok answer _ := noted_of_ok hanswer
    rw [announce, Action.bind_of_ok hasked]
    cases answer with
    | error source =>
      exact ⟨.firmware,
        hcleared.stoppedAt .firmware rfl rfl (hrefused _ _ fun hagreed => nomatch hagreed),
        .firmware List.mem_concat_self⟩
    | ok status =>
      by_cases hzero : status = 0
      · subst hzero
        refine ends_conclude _ _ (hcleared.next .firmware rfl rfl rfl ?_
          fun hearly => absurd hearly (by decide))
        exact ⟨range, hshares, List.mem_concat_self⟩
      · have hnever : (.ok (.ok status) : Except Fault (Except MailboxError UInt32)) ≠
            .ok (.ok 0) := by simpa using hzero
        rw [conclude, if_pos hzero]
        exact ⟨.firmware, hcleared.stoppedAt .firmware rfl rfl (hrefused _ _ hnever),
          .refused List.mem_concat_self hzero⟩

/-- All stages together. -/
theorem ends_bringUpNoted (engine : Engine η κ) (doorbell : η) (kernel : Kernel η κ)
    (hbuilt : device.Built)
    (hpart : ∀ range, device.dmaMemory = some range →
      ¬ (range.start = 0 ∧ range.stop = 0xffffffffffffffff))
    (hinterrupts : engine.SparesInterrupts) :
    Ends engine device kernel.interrupts 8 (fun _ => True)
      (bringUpNoted engine doorbell device (kernel.noting [])) := by
  refine (ends_shareMemory engine hbuilt hpart (.start device kernel)).andThen ?_
  rintro _ shared ⟨range, hshares, rfl⟩ hshared
  refine (ends_laySlots hinterrupts hshares hshared _).andThen fun _ laid _ hlaid => ?_
  refine (ends_startEngine hinterrupts hlaid).andThen fun _ started _ hstarted => ?_
  refine (ends_attachDoorbell engine doorbell hstarted).andThen fun _ attached _ hattached => ?_
  exact ends_announce hshares hattached

/-! ## The first failure -/

/-- A prerequisite is the first one that does not hold. -/
structure FailsFirst (device : PlatformDevice) (interrupts : InterruptController η)
    (calls : List PlatformCall) (prerequisite : Prerequisite) : Prop where
  fails : ¬ prerequisite.Holds device interrupts calls
  before : ∀ other : Prerequisite, other.place < prerequisite.place →
    other.Holds device interrupts calls

/-- The platform came up if everything holds, and otherwise the first failure was reported; or the
engine did not return from the last call. -/
def ReportsFirst (engine : Engine η κ) (device : PlatformDevice)
    (interrupts : InterruptController η) :
    EStateM.Result Fault (Kernel η (Noted κ)) (Except PlatformError Unit) → Prop
  | .ok result after =>
      (result = .ok () ↔ ∀ prerequisite : Prerequisite,
        prerequisite.Holds device interrupts after.calls) ∧
      (∀ e, result = .error e → ∃ prerequisite : Prerequisite,
        FailsFirst device interrupts after.calls prerequisite ∧
          prerequisite.Reports device interrupts after.calls e e.errno) ∧
      ((∃ answer, .callConnected answer ∈ after.calls) ↔ result = .ok ()) ∧
      CallsWhileHolding device interrupts after.calls
  | .error cause after =>
      (∃ made call, after.calls = made ++ [call] ∧ engine.Stops call cause) ∧
        CallsWhileHolding device interrupts after.calls

/-- Whoever waits for the connection is called exactly if everything holds. -/
theorem CallsWhileHolding.callConnected_iff
    (hcalls : CallsWhileHolding device interrupts calls) :
    (∃ answer, .callConnected answer ∈ calls) ↔
      ∀ prerequisite : Prerequisite, prerequisite.Holds device interrupts calls := by
  have hmade := hcalls.made 7 (by decide)
  constructor
  · rintro ⟨answer, hmem⟩ prerequisite
    exact hmade.1 (List.mem_map_of_mem hmem) prerequisite prerequisite.place_lt
  · intro hall
    obtain ⟨call, hmem, hplace⟩ := List.mem_map.1 (hmade.2 fun prerequisite _ => hall prerequisite)
    cases call <;> first | exact ⟨_, hmem⟩ | cases hplace

/-- A bring-up that ends behind its last prerequisite, or else at the first that does not hold,
reports that one. -/
theorem Ends.reportsFirst {run : EStateM.Result Fault (Kernel η (Noted κ))
      (Except PlatformError Unit)}
    (hends : Ends engine device interrupts 8 (fun _ => True) run) :
    ReportsFirst engine device interrupts run := by
  match run, hends with
  | .ok (.ok ()) after, ⟨_, hcleared⟩ =>
    have hall : ∀ prerequisite : Prerequisite, prerequisite.Holds device interrupts after.calls :=
      fun prerequisite => hcleared.holds prerequisite (Nat.lt_succ_of_lt prerequisite.place_lt)
    have hcalls := hcleared.stoppedAt_last.callsWhileHolding
    exact ⟨iff_of_true rfl hall, fun e hnever => (nomatch hnever),
      iff_of_true (hcalls.callConnected_iff.2 hall) rfl, hcalls⟩
  | .ok (.error e) after, ⟨prerequisite, hstopped, hreports⟩ =>
    have hfails := hstopped.fails prerequisite rfl
    have hcalls := hstopped.callsWhileHolding
    have hnever : (.error e : Except PlatformError Unit) ≠ .ok () := nofun
    refine ⟨iff_of_false hnever fun hall => hfails (hall prerequisite), ?_,
      iff_of_false ?_ hnever, hcalls⟩
    · rintro _ ⟨⟩
      exact ⟨prerequisite, ⟨hfails, hstopped.holds⟩, hreports⟩
    · exact fun hcalled => hfails (hcalls.callConnected_iff.1 hcalled prerequisite)
  | .error cause after, ⟨made, call, hlast, hstops, hstopped⟩ =>
    exact ⟨⟨made, call, hlast, hstops⟩, hstopped.callsWhileHolding⟩

/-- Bringing the platform up succeeds exactly if all prerequisites hold.  Otherwise it reports the
first one that does not, with its number, and makes no call behind it.  Whoever waits for the
connection is told exactly if it succeeds, and only an engine that does not return from one of its
calls keeps it from coming to an end. -/
theorem reports_first_failure (engine : Engine η κ) (doorbell : η) (kernel : Kernel η κ)
    (hbuilt : device.Built)
    (hpart : ∀ range, device.dmaMemory = some range →
      ¬ (range.start = 0 ∧ range.stop = 0xffffffffffffffff))
    (hinterrupts : engine.SparesInterrupts) :
    forgetEnd (bringUpNoted engine doorbell device (kernel.noting [])) =
        bringUp engine doorbell device kernel ∧
      ReportsFirst engine device kernel.interrupts
        (bringUpNoted engine doorbell device (kernel.noting [])) ∧
      ((∀ call cause, ¬ engine.Stops call cause) →
        ∃ result after, bringUp engine doorbell device kernel = .ok result after) := by
  have hsame := forgets_bringUpNoted engine doorbell device (kernel.noting [])
  have hends := ends_bringUpNoted engine doorbell kernel hbuilt hpart hinterrupts
  refine ⟨hsame, hends.reportsFirst, fun hreturns => ?_⟩
  rw [← forget_noting kernel [], ← hsame]
  cases hrun : bringUpNoted engine doorbell device (kernel.noting []) with
  | ok result after => exact ⟨result, after.forget, rfl⟩
  | error cause after =>
    rw [hrun] at hends
    obtain ⟨_, call, -, hstops, -⟩ := hends
    exact absurd hstops (hreturns call cause)

/-- The device of the board is put together like any other. -/
theorem built_boardDevice : boardDevice.Built := by
  obtain ⟨registers, interrupt⟩ :
      PlatformDevice.addResource {} 0x3f00b840 0x3f00b84f ResourceFlags.registers =
          .ok ⟨[⟨0x3f00b840, 0x3f00b84f, ResourceFlags.registers⟩], none⟩ ∧
        PlatformDevice.addResource
            ⟨[⟨0x3f00b840, 0x3f00b84f, ResourceFlags.registers⟩], none⟩ 66 66
            ResourceFlags.interrupt =
          .ok ⟨boardDevice.resources, none⟩ := ⟨rfl, rfl⟩
  have hset : PlatformDevice.setDmaMemory ⟨boardDevice.resources, none⟩ 0x1c80000 0x1cfffff =
      .ok boardDevice := rfl
  exact .setDmaMemory (.addResource (.addResource .bare registers) interrupt) hset

/-- With the doorbell's number taken and a firmware that does not answer, the connection is the
first failure, and the firmware is not called. -/
theorem reports_taken_doorbell :
    ∃ (engine : Engine Unit Unit) (kernel : Kernel Unit Unit) (after : Kernel Unit (Noted Unit)),
      engine.initFirmware = (fun _ => return .error .timeout) ∧
      kernel.interrupts.handler 66 ≠ none ∧
      bringUpNoted engine () boardDevice (kernel.noting []) =
        .ok (.error (.irqRequest 66 (.alreadyRegistered 66))) after ∧
      after.calls.map PlatformCall.place = [1, 2, 5] ∧
      FailsFirst boardDevice kernel.interrupts after.calls .connection := by
  let engine : Engine Unit Unit :=
    { Engine.obliging with initFirmware := fun _ => return .error .timeout }
  let kernel : Kernel Unit Unit :=
    { idleKernel with interrupts := idleKernel.interrupts.setHandler 66 (some ⟨"doorbell", ()⟩) }
  have hpart : ∀ range, boardDevice.dmaMemory = some range →
      ¬ (range.start = 0 ∧ range.stop = 0xffffffffffffffff) := by
    rintro range ⟨⟩ ⟨hzero, -⟩
    exact absurd hzero (by decide)
  have hspares : engine.SparesInterrupts := by
    constructor
    case initSlots =>
      rintro start size before answer after ⟨⟩
      rfl
    case initState =>
      rintro before status after ⟨⟩
      rfl
  obtain ⟨after, hrun, hcalls⟩ : ∃ after : Kernel Unit (Noted Unit),
      bringUpNoted engine () boardDevice (kernel.noting []) =
        .ok (.error (.irqRequest 66 (.alreadyRegistered 66))) after ∧
      after.calls.map PlatformCall.place = [1, 2, 5] := ⟨_, rfl, rfl⟩
  have hreports := (reports_first_failure engine () kernel built_boardDevice hpart hspares).2.1
  rw [hrun] at hreports
  obtain ⟨first, hfirst, hreported⟩ := hreports.2.1 _ rfl
  cases hreported.eq_connection
  exact ⟨engine, kernel, after, rfl, nofun, hrun, hcalls, hfirst⟩

end Kernel

end DriverHost
