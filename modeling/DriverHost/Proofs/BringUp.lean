import DriverHost.TransferPlatform
import DriverHost.Proofs.FragmentTurns

/-!
# Stages of bringing the platform up

Bringing the platform up is one sequence of five stages, and the first one that fails ends it:
the memory that is shared with the VideoCore, the slots and the fragments in it, the engine's
state, the doorbell with its interrupt, and the call of the firmware.  For each stage this module
says how it can end and what it leaves of the kernel, so that later modules never open the code.

Main results:

- Theorem `PlatformDevice.allocCoherent_eq_some`: the memory that a device shares.
- Theorem `Kernel.bringUp_eq`: the code is the sequence of the stages.
- Theorems `Kernel.shareMemory_cases`, `laySlots_cases`, `startEngine_cases`,
  `attachDoorbell_cases` and `announce_cases`: what each stage can do.
- Theorem `Kernel.callsFirmware_iff`: the firmware is called exactly if all stages in front of the
  call succeed, and then once.
-/

namespace DriverHost

variable {σ ε α β γ η κ : Type}

/-! ## Sequences of actions -/

namespace Action

/-- A sequence of two steps comes to an end exactly if both of them do. -/
theorem bind_eq_ok_iff {first : Action σ α} {next : α → Action σ β} {before after : σ}
    {result : β} :
    (first >>= next) before = .ok result after ↔
      ∃ value between, first before = .ok value between ∧
        next value between = .ok result after := by
  have hbind : (first >>= next) before = EStateM.bind first next before := rfl
  rw [hbind, EStateM.bind]
  cases first before with
  | ok value between =>
    constructor
    · intro h
      exact ⟨value, between, rfl, h⟩
    · rintro ⟨other, later, hother, h⟩
      cases hother
      exact h
  | error cause between =>
    constructor
    · intro h
      cases h
    · rintro ⟨other, later, hother, _⟩
      cases hother

/-- After a step that comes to an end, the next one goes on from there. -/
theorem bind_of_ok {first : Action σ α} {before between : σ} {value : α}
    (hfirst : first before = .ok value between) (next : α → Action σ β) :
    (first >>= next) before = next value between := by
  have hbind : (first >>= next) before = EStateM.bind first next before := rfl
  rw [hbind, EStateM.bind, hfirst]

/-- A fault in the first step is one of the sequence. -/
theorem bind_of_error {first : Action σ α} {before between : σ} {cause : Fault}
    (hfirst : first before = .error cause between) (next : α → Action σ β) :
    (first >>= next) before = .error cause between := by
  have hbind : (first >>= next) before = EStateM.bind first next before := rfl
  rw [hbind, EStateM.bind, hfirst]

/-- Returning a value leaves the state alone. -/
theorem pure_eq_ok_iff {value result : α} {before after : σ} :
    (pure value : Action σ α) before = .ok result after ↔ result = value ∧ after = before := by
  constructor
  · intro h
    cases h
    exact ⟨rfl, rfl⟩
  · rintro ⟨rfl, rfl⟩
    rfl

/-- So does a computation without a state. -/
theorem lift_eq_ok_iff {value : Except Fault α} {result : α} {before after : σ} :
    (liftM value : Action σ α) before = .ok result after ↔ value = .ok result ∧ after = before := by
  cases value with
  | ok value =>
    constructor
    · intro h
      cases h
      exact ⟨rfl, rfl⟩
    · rintro ⟨h, rfl⟩
      cases h
      rfl
  | error cause =>
    constructor
    · intro h
      cases h
    · rintro ⟨h, -⟩
      cases h

/-- Go on with what a stage gave, unless it failed. -/
def andThen (first : Action σ (Except ε α)) (next : α → Action σ (Except ε β)) :
    Action σ (Except ε β) := do
  match ← first with
  | .ok value => next value
  | .error e => return .error e

/-- A report that is only made sometimes comes before the rest either way. -/
theorem sometimes_then (condition : Prop) [Decidable condition] (report : Action σ Unit)
    (rest : Action σ α) :
    (if condition then report >>= fun _ => rest else rest) =
      (if condition then report else pure ()) >>= fun _ => rest := by
  split
  · rfl
  · rw [pure_bind]

/-- A step that may be refused runs the next one only when it is not refused. -/
theorem andThen_apply (first : Action σ (Except ε α)) (next : α → Action σ (Except ε β))
    (before : σ) :
    first.andThen next before =
      match first before with
      | .ok (.ok value) between => next value between
      | .ok (.error e) after => .ok (.error e) after
      | .error cause after => .error cause after := by
  have hbind : first.andThen next before = EStateM.bind first (fun
    | .ok value => next value
    | .error e => return .error e) before := rfl
  rw [hbind, EStateM.bind]
  cases first before with
  | error cause after => rfl
  | ok answer between => cases answer <;> rfl

/-- A sequence of two stages ends with the first one's error, or as the second one does. -/
theorem andThen_eq_ok {first : Action σ (Except ε α)} {next : α → Action σ (Except ε β)}
    {before after : σ} {result : Except ε β} (h : first.andThen next before = .ok result after) :
    (∃ e, result = .error e ∧ first before = .ok (.error e) after) ∨
      ∃ value between, first before = .ok (.ok value) between ∧
        next value between = .ok result after := by
  obtain ⟨answer, between, hfirst, hnext⟩ := bind_eq_ok_iff.1 h
  cases answer with
  | error e =>
    obtain ⟨rfl, rfl⟩ := pure_eq_ok_iff.1 hnext
    exact Or.inl ⟨e, rfl, hfirst⟩
  | ok value => exact Or.inr ⟨value, between, hfirst, hnext⟩

/-- A sequence of two stages succeeds only if both of them do. -/
theorem andThen_eq_ok_ok {first : Action σ (Except ε α)} {next : α → Action σ (Except ε β)}
    {before after : σ} {value : β} (h : first.andThen next before = .ok (.ok value) after) :
    ∃ given between, first before = .ok (.ok given) between ∧
      next given between = .ok (.ok value) after := by
  rcases andThen_eq_ok h with ⟨e, hnever, -⟩ | hboth
  · cases hnever
  · exact hboth

/-- It does not matter how a sequence of steps that may be refused is bracketed. -/
theorem andThen_assoc (first : Action σ (Except ε α)) (second : α → Action σ (Except ε β))
    (third : β → Action σ (Except ε γ)) :
    (first.andThen second).andThen third = first.andThen fun value =>
      (second value).andThen third := by
  rw [andThen, andThen, andThen, bind_assoc]
  refine bind_congr fun result => ?_
  cases result with
  | ok value => rfl
  | error e => rw [pure_bind]

end Action

/-! ## Memory that a device shares -/

theorem toNat_of_subWords {a b difference : UInt64} (h : subWords a b = .ok difference) :
    difference.toNat + b.toNat = a.toNat := by
  unfold subWords at h
  by_cases hle : b ≤ a
  · rw [if_pos hle] at h
    cases h
    rw [UInt64.toNat_sub_of_le _ _ hle]
    exact Nat.sub_add_cancel (UInt64.le_iff_toNat_le.1 hle)
  · rw [if_neg hle] at h
    cases h

/-- A device shares memory that holds what was asked for and begins where it says. -/
theorem PlatformDevice.allocCoherent_eq_some {device : PlatformDevice} {size : UInt64}
    {memory : UInt64 × UInt32} (h : device.allocCoherent? size = .ok (some memory)) :
    ∃ range, device.dmaMemory = some range ∧ memory = (range.start, busOfPhysical range.start) ∧
      range.start.toNat + size.toNat ≤ range.stop.toNat + 1 := by
  unfold allocCoherent? at h
  cases hrange : device.dmaMemory with
  | none =>
    rw [hrange] at h
    cases h
  | some range =>
    rw [hrange] at h
    obtain ⟨total, htotal, hrest⟩ := bind_eq_ok_iff.1 h
    obtain ⟨length, hlength, hsum⟩ := bind_eq_ok_iff.1 htotal
    by_cases hrefused : total < size ∨ range.start = 0
    · rw [if_pos hrefused] at hrest
      cases hrest
    · rw [if_neg hrefused] at hrest
      cases hrest
      have hlarge : size.toNat ≤ total.toNat := by
        rw [← UInt64.le_iff_toNat_le, ← UInt64.not_lt]
        exact fun hsmall => hrefused (Or.inl hsmall)
      rw [addWords, ensureWord_eq_ok_iff] at hsum
      have hone : (1 : UInt64).toNat = 1 := rfl
      have hdifference := toNat_of_subWords hlength
      exact ⟨range, rfl, rfl, by omega⟩

/-- Behind the slots there is room for the fragments. -/
theorem toNat_behindSlots {slots : UInt64}
    (hfits : slots.toNat + sharedMemorySize.toNat ≤ 2 ^ 64) :
    (slots + slotMemorySize).toNat = slots.toNat + slotMemorySize.toNat ∧
      (slots + slotMemorySize).toNat + fragmentMemorySize.toNat ≤ 2 ^ 64 := by
  have hslots : slotMemorySize.toNat = 266240 := rfl
  have hfragments : fragmentMemorySize.toNat = 8192 := rfl
  have hshared : sharedMemorySize.toNat = 274432 := rfl
  rw [UInt64.toNat_add]
  omega

/-! ## Filling the pool -/

/-- The pool when all fragments of the platform from an address on were handed to it. -/
def FragmentPool.refilled (pool : FragmentPool) (base : UInt64) : FragmentPool :=
  { pool with
    base
    fragmentSize := 2 * cacheLineSize
    count := maxFragments
    free := allFree maxFragments
    available := { count := UInt32.ofNat maxFragments } }

@[simp] theorem FragmentPool.count_refilled (pool : FragmentPool) (base : UInt64) :
    (pool.refilled base).count = 64 :=
  rfl

@[simp] theorem FragmentPool.guard_refilled (pool : FragmentPool) (base : UInt64) :
    (pool.refilled base).guard = pool.guard :=
  rfl

/-- Handing them to the pool succeeds wherever they are. -/
theorem FragmentPool.refill_platform (pool : FragmentPool) (base : UInt64) :
    pool.refill base maxFragments cacheLineSize = .ok (pool.refilled base) :=
  rfl

/-- In a pool that has just been filled, every fragment is free. -/
theorem FragmentPool.isFree_refilled (pool : FragmentPool) (base : UInt64) {index : Nat}
    (hindex : index < 64) : (pool.refilled base).isFree index = true := by
  have hbits : (allFree 64).toNat.testBit index = decide (index < 64) :=
    testBit_allFree (Nat.le_refl 64) index
  exact hbits.trans (decide_eq_true hindex)

namespace Kernel

/-- The pool is filled with what lies behind the slots, if that is an address. -/
theorem refillFragments_apply (slots : UInt64) (kernel : Kernel η κ) :
    refillFragments slots kernel =
      match addWords slots slotMemorySize with
      | .error cause => .error cause kernel
      | .ok base => .ok () { kernel with platform := { kernel.platform with
          fragments := kernel.platform.fragments.refilled base } } := by
  -- Opened as a function: on a kernel, the sum with the size of the slots would be counted out.
  obtain ⟨refills, hrefills⟩ : ∃ refills : Action (Kernel η κ) Unit,
    refills = refillFragments slots := ⟨_, rfl⟩
  rw [← hrefills]
  delta refillFragments at hrefills
  generalize slotMemorySize = size at hrefills ⊢
  subst hrefills
  cases addWords slots size <;> rfl

/-- The fragments are laid out behind the slots, and this succeeds only if they end below the top
of the address space. -/
theorem refillFragments_cases {slots : UInt64} {before after : Kernel η κ}
    (h : refillFragments slots before = .ok () after) :
    slots.toNat + slotMemorySize.toNat < 2 ^ 64 ∧
      after = { before with platform := { before.platform with
        fragments := before.platform.fragments.refilled (slots + slotMemorySize) } } := by
  rw [refillFragments_apply] at h
  cases hbase : addWords slots slotMemorySize with
  | error cause =>
    rw [hbase] at h
    cases h
  | ok base =>
    rw [hbase] at h
    cases h
    rw [addWords, ensureWord_eq_ok_iff] at hbase
    have hword := base.toNat_lt
    have hsum : base = slots + slotMemorySize := by
      rw [← UInt64.toNat_inj, UInt64.toNat_add, hbase, Nat.mod_eq_of_lt (hbase ▸ hword)]
    exact ⟨hbase ▸ hword, by rw [hsum]⟩

/-! ## The stages -/

/-- Ask the device for the memory of slots and fragments. -/
def shareMemory (device : PlatformDevice) :
    Action (Kernel η κ) (Except PlatformError (UInt64 × UInt32)) := do
  let some (slots, slotsBus) ← device.allocCoherent? sharedMemorySize
    | report .error "could not allocate DMA memory"
      return .error (.noDmaMemory sharedMemorySize)
  if !(← isAligned slots pageSize) then
    report .warning ("slot memory at " ++ hexText slots.toNat ++ " is not page aligned")
  return .ok (slots, slotsBus)

/-- Let the engine lay out its slots, tell the VideoCore about the fragments behind them, and
hand these to the pool. -/
def laySlots (engine : Engine η κ) (slots : UInt64) (slotsBus : UInt32) :
    Action (Kernel η κ) (Except PlatformError Unit) := do
  let some words ← engine.initSlots slots slotMemorySize
    | return .error .slotInit
  storePlatformWords words (slotsBus + slotMemorySize.toUInt32)
  refillFragments slots
  return .ok ()

/-- Let the engine set its state up. -/
def startEngine (engine : Engine η κ) : Action (Kernel η κ) (Except PlatformError Unit) := do
  if (← engine.initState) ≠ .success then
    return .error .stateInit
  return .ok ()

/-- Find the doorbell's registers and connect its interrupt. -/
def attachDoorbell (doorbell : η) (device : PlatformDevice) :
    Action (Kernel η κ) (Except PlatformError Unit) := do
  let some registers := device.resource? ResourceFlags.registers 0
    | return .error .noRegisters
  updatePlatform fun platform => { platform with doorbell := registers.start }
  let irq := ((device.irq? 0).getD 0).toNat
  if irq = 0 then
    report .error "failed to get IRQ"
    return .error .noIrq
  let connected ← connectDoorbell irq doorbell
  if let .error source := connected then
    return .error (.irqRequest irq source)
  return .ok ()

/-- Go on with the firmware's answer: tell whoever waits that the connection is up, unless the
firmware refused. -/
def conclude (engine : Engine η κ) (slots : UInt64) (slotsBus : UInt32) :
    Except MailboxError UInt32 → Action (Kernel η κ) (Except PlatformError Unit)
  | .error source => return .error (.firmware source)
  | .ok status => do
    if status ≠ 0 then
      report .error "failed to set channelbase"
      return .error (.channelBase status)
    report .notice ("vchiq_init - done (slots " ++ hexText slots.toNat ++ ", phys " ++
      hexTextWide 10 slotsBus.toNat ++ ")")
    engine.callConnected
    return .ok ()

/-- Tell the firmware where the slots are. -/
def announce (engine : Engine η κ) (slots : UInt64) (slotsBus : UInt32) :
    Action (Kernel η κ) (Except PlatformError Unit) :=
  engine.initFirmware slotsBus >>= conclude engine slots slotsBus

/-- Bringing the platform up is the sequence of its stages. -/
theorem bringUp_eq (engine : Engine η κ) (doorbell : η) (device : PlatformDevice) :
    bringUp engine doorbell device =
      (shareMemory device).andThen fun memory =>
        (laySlots engine memory.1 memory.2).andThen fun _ =>
          (startEngine engine).andThen fun _ =>
            (attachDoorbell doorbell device).andThen fun _ =>
              announce engine memory.1 memory.2 := by
  simp only [bringUp, shareMemory, Action.andThen, bind_assoc]
  refine bind_congr fun memory => ?_
  rcases memory with _ | ⟨slots, slotsBus⟩
  · rfl
  simp only [bind_assoc]
  refine bind_congr fun aligned => ?_
  rw [Action.sometimes_then, Action.sometimes_then, bind_assoc]
  refine bind_congr fun _ => ?_
  simp only [laySlots, bind_assoc, pure_bind]
  refine bind_congr fun words => ?_
  cases words with
  | none => rfl
  | some words =>
    simp only [bind_assoc, pure_bind, startEngine]
    refine bind_congr fun _ => ?_
    refine bind_congr fun _ => ?_
    refine bind_congr fun status => ?_
    split
    · rfl
    simp only [pure_bind, attachDoorbell]
    cases device.resource? ResourceFlags.registers 0 with
    | none => rfl
    | some registers =>
      simp only [bind_assoc]
      refine bind_congr fun _ => ?_
      split
      · rfl
      simp only [bind_assoc]
      refine bind_congr fun connected => ?_
      cases connected <;> rfl

/-! ## What each stage does -/

/-- Nothing but the console has changed. -/
def OnlyReported (before after : Kernel η κ) : Prop :=
  ∃ console, after = { before with board := { before.board with console } }

theorem OnlyReported.refl (kernel : Kernel η κ) : OnlyReported kernel kernel :=
  ⟨kernel.board.console, rfl⟩

/-- Reports on the console may follow one another. -/
theorem OnlyReported.trans {before between after : Kernel η κ}
    (hfirst : OnlyReported before between) (hsecond : OnlyReported between after) :
    OnlyReported before after := by
  obtain ⟨console, rfl⟩ := hfirst
  obtain ⟨later, rfl⟩ := hsecond
  exact ⟨later, rfl⟩

/-- A line on the console is only a report. -/
theorem onlyReported_log (kernel : Kernel η κ) (severity : Severity) (source message : String) :
    OnlyReported kernel (kernel.log severity source message) :=
  ⟨kernel.board.console.log severity source message, rfl⟩

/-- A report changes nothing but the console. -/
theorem report_eq_ok {severity : Severity} {message : String} {before after : Kernel η κ}
    (h : report severity message before = .ok () after) : OnlyReported before after := by
  cases h
  exact onlyReported_log _ _ _ _

variable {engine : Engine η κ} {doorbell : η} {device : PlatformDevice} {slots : UInt64}
  {slotsBus : UInt32} {before after : Kernel η κ}

/-- The first step reports what it does and asks the device for the shared memory: it is refused
exactly if the device has none. -/
theorem shareMemory_cases {result : Except PlatformError (UInt64 × UInt32)}
    (h : shareMemory device before = .ok result after) :
    OnlyReported before after ∧
      ((result = .error (.noDmaMemory sharedMemorySize) ∧
          device.allocCoherent? sharedMemorySize = .ok none) ∨
        ∃ memory, result = .ok memory ∧
          device.allocCoherent? sharedMemorySize = .ok (some memory)) := by
  obtain ⟨answer, between, hanswer, hrest⟩ := Action.bind_eq_ok_iff.1 h
  obtain ⟨hmemory, rfl⟩ := Action.lift_eq_ok_iff.1 hanswer
  rcases answer with _ | ⟨slots, slotsBus⟩
  · obtain ⟨_, reported, hreport, hresult⟩ := Action.bind_eq_ok_iff.1 hrest
    obtain ⟨rfl, rfl⟩ := Action.pure_eq_ok_iff.1 hresult
    exact ⟨report_eq_ok hreport, Or.inl ⟨rfl, hmemory⟩⟩
  · obtain ⟨aligned, same, haligned, hrest⟩ := Action.bind_eq_ok_iff.1 hrest
    obtain ⟨-, rfl⟩ := Action.lift_eq_ok_iff.1 haligned
    cases aligned with
    | false =>
      obtain ⟨_, reported, hreport, hresult⟩ := Action.bind_eq_ok_iff.1 hrest
      obtain ⟨rfl, rfl⟩ := Action.pure_eq_ok_iff.1 hresult
      exact ⟨report_eq_ok hreport, Or.inr ⟨_, rfl, hmemory⟩⟩
    | true =>
      obtain ⟨rfl, rfl⟩ := Action.pure_eq_ok_iff.1 hrest
      exact ⟨.refl _, Or.inr ⟨_, rfl, hmemory⟩⟩

theorem shareMemory_eq_ok {memory : UInt64 × UInt32}
    (h : shareMemory device before = .ok (.ok memory) after) :
    OnlyReported before after ∧ device.allocCoherent? sharedMemorySize = .ok (some memory) := by
  obtain ⟨hreported, ⟨hnever, -⟩ | ⟨_, hfound, hmemory⟩⟩ := shareMemory_cases h
  · cases hnever
  · cases hfound
    exact ⟨hreported, hmemory⟩

/-- The kernel when the platform's words are written and its pool is filled. -/
def withSlots (kernel : Kernel η κ) (slots words : UInt64) (slotsBus : UInt32) : Kernel η κ :=
  { kernel with
    board := { kernel.board with
      device := (kernel.board.device.setWord words (slotsBus + slotMemorySize.toUInt32)).setWord
        (words + 4) (UInt32.ofNat FragmentPool.maxFragments) }
    platform := { kernel.platform with
      fragments := kernel.platform.fragments.refilled (slots + slotMemorySize) } }

/-- Laying out the slots is refused exactly if the engine refuses them; otherwise the platform's
words are stored where the engine says and the pool is filled. -/
theorem laySlots_cases {result : Except PlatformError Unit}
    (h : laySlots engine slots slotsBus before = .ok result after) :
    (result = .error .slotInit ∧ engine.initSlots slots slotMemorySize before = .ok none after) ∨
      ∃ words asked, result = .ok () ∧
        engine.initSlots slots slotMemorySize before = .ok (some words) asked ∧
        slots.toNat + slotMemorySize.toNat < 2 ^ 64 ∧
        after = asked.withSlots slots words slotsBus := by
  obtain ⟨answer, asked, hanswer, hrest⟩ := Action.bind_eq_ok_iff.1 h
  cases answer with
  | none =>
    obtain ⟨rfl, rfl⟩ := Action.pure_eq_ok_iff.1 hrest
    exact Or.inl ⟨rfl, hanswer⟩
  | some words =>
    obtain ⟨_, stored, hstored, hrest⟩ := Action.bind_eq_ok_iff.1 hrest
    obtain ⟨_, filled, hfilled, hresult⟩ := Action.bind_eq_ok_iff.1 hrest
    obtain ⟨rfl, rfl⟩ := Action.pure_eq_ok_iff.1 hresult
    obtain ⟨hfits, rfl⟩ := refillFragments_cases hfilled
    cases hstored
    exact Or.inr ⟨words, asked, rfl, hanswer, hfits, rfl⟩

theorem laySlots_eq_ok (h : laySlots engine slots slotsBus before = .ok (.ok ()) after) :
    ∃ words asked, engine.initSlots slots slotMemorySize before = .ok (some words) asked ∧
      slots.toNat + slotMemorySize.toNat < 2 ^ 64 ∧
      after = asked.withSlots slots words slotsBus := by
  obtain ⟨hnever, -⟩ | ⟨words, asked, -, hwords, hfits, hafter⟩ := laySlots_cases h
  · cases hnever
  · exact ⟨words, asked, hwords, hfits, hafter⟩

/-- Starting the engine's state is refused exactly if the engine answers anything but success. -/
theorem startEngine_cases {result : Except PlatformError Unit}
    (h : startEngine engine before = .ok result after) :
    (result = .error .stateInit ∧
        ∃ status, status ≠ .success ∧ engine.initState before = .ok status after) ∨
      (result = .ok () ∧ engine.initState before = .ok .success after) := by
  obtain ⟨status, started, hstatus, hrest⟩ := Action.bind_eq_ok_iff.1 h
  by_cases hsuccess : status = .success
  · subst hsuccess
    obtain ⟨rfl, rfl⟩ := Action.pure_eq_ok_iff.1 hrest
    exact Or.inr ⟨rfl, hstatus⟩
  · rw [if_pos hsuccess] at hrest
    obtain ⟨rfl, rfl⟩ := Action.pure_eq_ok_iff.1 hrest
    exact Or.inl ⟨rfl, status, hsuccess, hstatus⟩

theorem startEngine_eq_ok (h : startEngine engine before = .ok (.ok ()) after) :
    engine.initState before = .ok .success after := by
  obtain ⟨hnever, -⟩ | ⟨-, hstate⟩ := startEngine_cases h
  · cases hnever
  · exact hstate

/-- The kernel when the place of the doorbell's registers is known. -/
def withDoorbell (kernel : Kernel η κ) (address : UInt64) : Kernel η κ :=
  { kernel with platform := { kernel.platform with doorbell := address } }

/-- The number of a device's interrupt, zero if it has none. -/
def irqNumber (device : PlatformDevice) : Nat :=
  ((device.irq? 0).getD 0).toNat

/-- Connecting the doorbell's handler changes the machine only if the interrupt controller accepts
it. -/
theorem connectDoorbell_cases {irq : Nat} {result : Except IrqError Unit}
    (h : connectDoorbell irq doorbell before = .ok result after) :
    (∃ source, result = .error source ∧ after = before ∧
        before.interrupts.connect irq ⟨"VCHIQ doorbell", doorbell⟩ before.board =
          .error source) ∨
      ∃ interrupts board, result = .ok () ∧ after = { before with interrupts, board } ∧
        before.interrupts.connect irq ⟨"VCHIQ doorbell", doorbell⟩ before.board =
          .ok (interrupts, board) := by
  unfold connectDoorbell at h
  cases hconnect : before.interrupts.connect irq ⟨"VCHIQ doorbell", doorbell⟩ before.board with
  | error source =>
    rw [hconnect] at h
    cases h
    exact Or.inl ⟨source, rfl, rfl, rfl⟩
  | ok connected =>
    rw [hconnect] at h
    cases h
    exact Or.inr ⟨connected.1, connected.2, rfl, rfl, rfl⟩

/-- Attaching the doorbell needs its registers, its interrupt number and a free handler in this
order, and the first one that is missing is the error. -/
theorem attachDoorbell_cases {result : Except PlatformError Unit}
    (h : attachDoorbell doorbell device before = .ok result after) :
    (result = .error .noRegisters ∧ device.resource? ResourceFlags.registers 0 = none ∧
        after = before) ∨
      ∃ registers, device.resource? ResourceFlags.registers 0 = some registers ∧
        ((result = .error .noIrq ∧ irqNumber device = 0 ∧
            OnlyReported (before.withDoorbell registers.start) after) ∨
          (irqNumber device ≠ 0 ∧ ∃ source,
            result = .error (.irqRequest (irqNumber device) source) ∧
            connectDoorbell (irqNumber device) doorbell (before.withDoorbell registers.start) =
              .ok (.error source) after) ∨
          (irqNumber device ≠ 0 ∧ result = .ok () ∧
            connectDoorbell (irqNumber device) doorbell (before.withDoorbell registers.start) =
              .ok (.ok ()) after)) := by
  unfold attachDoorbell at h
  cases hregisters : device.resource? ResourceFlags.registers 0 with
  | none =>
    rw [hregisters] at h
    obtain ⟨rfl, rfl⟩ := Action.pure_eq_ok_iff.1 h
    exact Or.inl ⟨rfl, rfl, rfl⟩
  | some registers =>
    rw [hregisters] at h
    refine Or.inr ⟨registers, rfl, ?_⟩
    obtain ⟨_, aimed, haimed, hrest⟩ := Action.bind_eq_ok_iff.1 h
    cases haimed
    by_cases hirq : irqNumber device = 0
    · have hzero : ((device.irq? 0).getD 0).toNat = 0 := hirq
      rw [if_pos hzero] at hrest
      obtain ⟨_, reported, hreport, hresult⟩ := Action.bind_eq_ok_iff.1 hrest
      obtain ⟨rfl, rfl⟩ := Action.pure_eq_ok_iff.1 hresult
      exact Or.inl ⟨rfl, hirq, report_eq_ok hreport⟩
    · have hzero : ¬ ((device.irq? 0).getD 0).toNat = 0 := hirq
      rw [if_neg hzero] at hrest
      obtain ⟨answer, connected, hconnected, hresult⟩ := Action.bind_eq_ok_iff.1 hrest
      cases answer with
      | error source =>
        obtain ⟨rfl, rfl⟩ := Action.pure_eq_ok_iff.1 hresult
        exact Or.inr (Or.inl ⟨hirq, source, rfl, hconnected⟩)
      | ok nothing =>
        obtain ⟨rfl, rfl⟩ := Action.pure_eq_ok_iff.1 hresult
        exact Or.inr (Or.inr ⟨hirq, rfl, hconnected⟩)

theorem attachDoorbell_eq_ok (h : attachDoorbell doorbell device before = .ok (.ok ()) after) :
    ∃ registers, device.resource? ResourceFlags.registers 0 = some registers ∧
      irqNumber device ≠ 0 ∧
      connectDoorbell (irqNumber device) doorbell (before.withDoorbell registers.start) =
        .ok (.ok ()) after := by
  obtain ⟨hnever, -⟩ | ⟨registers, hregisters, ⟨hnever, -⟩ | ⟨-, _, hnever, -⟩ |
    ⟨hirq, -, hconnected⟩⟩ := attachDoorbell_cases h
  · cases hnever
  · cases hnever
  · cases hnever
  · exact ⟨registers, hregisters, hirq, hconnected⟩

/-- The slots are announced to the firmware last: its mailbox error or its nonzero answer refuses
the bring-up, and only an answer of zero makes the engine call back. -/
theorem announce_cases {result : Except PlatformError Unit}
    (h : announce engine slots slotsBus before = .ok result after) :
    (∃ source, result = .error (.firmware source) ∧
        engine.initFirmware slotsBus before = .ok (.error source) after) ∨
      ∃ status told reported, engine.initFirmware slotsBus before = .ok (.ok status) told ∧
        OnlyReported told reported ∧
        ((status ≠ 0 ∧ result = .error (.channelBase status) ∧ after = reported) ∨
          (status = 0 ∧ result = .ok () ∧ engine.callConnected reported = .ok () after)) := by
  obtain ⟨answer, told, htold, hrest⟩ := Action.bind_eq_ok_iff.1 h
  cases answer with
  | error source =>
    obtain ⟨rfl, rfl⟩ := Action.pure_eq_ok_iff.1 hrest
    exact Or.inl ⟨source, rfl, htold⟩
  | ok status =>
    refine Or.inr ⟨status, told, ?_⟩
    by_cases hzero : status = 0
    · subst hzero
      obtain ⟨_, reported, hreport, hrest⟩ := Action.bind_eq_ok_iff.1 hrest
      obtain ⟨_, connected, hconnected, hresult⟩ := Action.bind_eq_ok_iff.1 hrest
      obtain ⟨rfl, rfl⟩ := Action.pure_eq_ok_iff.1 hresult
      exact ⟨reported, htold, report_eq_ok hreport, Or.inr ⟨rfl, rfl, hconnected⟩⟩
    · rw [conclude, if_pos hzero] at hrest
      obtain ⟨_, reported, hreport, hresult⟩ := Action.bind_eq_ok_iff.1 hrest
      obtain ⟨rfl, rfl⟩ := Action.pure_eq_ok_iff.1 hresult
      exact ⟨_, htold, report_eq_ok hreport, Or.inl ⟨hzero, rfl, rfl⟩⟩

/-! ## The call of the firmware -/

/-- Everything that comes before the firmware is called: the answer is where the slots are. -/
def prepare (engine : Engine η κ) (doorbell : η) (device : PlatformDevice) :
    Action (Kernel η κ) (Except PlatformError (UInt64 × UInt32)) :=
  (shareMemory device).andThen fun memory =>
    (laySlots engine memory.1 memory.2).andThen fun _ =>
      (startEngine engine).andThen fun _ =>
        (attachDoorbell doorbell device).andThen fun _ => return .ok memory

/-- The bring-up prepares everything and then announces the slots. -/
theorem bringUp_eq_prepare (engine : Engine η κ) (doorbell : η) (device : PlatformDevice) :
    bringUp engine doorbell device =
      (prepare engine doorbell device).andThen fun memory =>
        announce engine memory.1 memory.2 := by
  rw [bringUp_eq, prepare]
  simp only [Action.andThen_assoc]
  rfl

/-- What was done when everything before the call of the firmware has succeeded. -/
theorem prepare_eq_ok {memory : UInt64 × UInt32}
    (h : prepare engine doorbell device before = .ok (.ok memory) after) :
    ∃ reported words asked started registers, OnlyReported before reported ∧
      device.allocCoherent? sharedMemorySize = .ok (some memory) ∧
      engine.initSlots memory.1 slotMemorySize reported = .ok (some words) asked ∧
      memory.1.toNat + slotMemorySize.toNat < 2 ^ 64 ∧
      engine.initState (asked.withSlots memory.1 words memory.2) = .ok .success started ∧
      device.resource? ResourceFlags.registers 0 = some registers ∧ irqNumber device ≠ 0 ∧
      connectDoorbell (irqNumber device) doorbell (started.withDoorbell registers.start) =
        .ok (.ok ()) after := by
  obtain ⟨found, reported, hshared, hrest⟩ := Action.andThen_eq_ok_ok h
  obtain ⟨_, laid, hlaid, hrest⟩ := Action.andThen_eq_ok_ok hrest
  obtain ⟨_, started, hstarted, hrest⟩ := Action.andThen_eq_ok_ok hrest
  obtain ⟨_, attached, hattached, hrest⟩ := Action.andThen_eq_ok_ok hrest
  obtain ⟨hfound, rfl⟩ := Action.pure_eq_ok_iff.1 hrest
  cases hfound
  obtain ⟨hreported, hmemory⟩ := shareMemory_eq_ok hshared
  obtain ⟨words, asked, hwords, hfits, rfl⟩ := laySlots_eq_ok hlaid
  obtain ⟨registers, hregisters, hirq, hconnected⟩ := attachDoorbell_eq_ok hattached
  exact ⟨reported, words, asked, started, registers, hreported, hmemory, hwords, hfits,
    startEngine_eq_ok hstarted, hregisters, hirq, hconnected⟩

/-- Whatever the firmware does, bringing the platform up comes to calling it with an address in
a state, and to something that depends on its answer alone. -/
def CallsFirmware (engine : Engine η κ) (doorbell : η) (device : PlatformDevice)
    (before : Kernel η κ) (bus : UInt32) (atCall : Kernel η κ) : Prop :=
  ∃ goesOn : Except MailboxError UInt32 → Action (Kernel η κ) (Except PlatformError Unit),
    ∀ initFirmware, bringUp { engine with initFirmware } doorbell device before =
      (initFirmware bus >>= goesOn) atCall

/-- With another firmware call, the bring-up differs only from the moment of that call on. -/
theorem bringUp_apply (engine : Engine η κ) (doorbell : η) (device : PlatformDevice)
    (before : Kernel η κ)
    (initFirmware : UInt32 → Action (Kernel η κ) (Except MailboxError UInt32)) :
    bringUp { engine with initFirmware } doorbell device before =
      match prepare engine doorbell device before with
      | .ok (.ok memory) atCall =>
          (initFirmware memory.2 >>= conclude engine memory.1 memory.2) atCall
      | .ok (.error e) after => .ok (.error e) after
      | .error cause after => .error cause after := by
  have hsame : prepare { engine with initFirmware } doorbell device =
      prepare engine doorbell device := rfl
  rw [bringUp_eq_prepare, Action.andThen_apply, hsame]
  cases prepare engine doorbell device before with
  | error cause after => rfl
  | ok answer between =>
    cases answer with
    | error e => rfl
    | ok memory => rfl

/-- The firmware is called exactly if everything before the call succeeds. -/
theorem callsFirmware_iff {bus : UInt32} {atCall : Kernel η κ} :
    CallsFirmware engine doorbell device before bus atCall ↔
      ∃ slots, prepare engine doorbell device before = .ok (.ok (slots, bus)) atCall := by
  constructor
  · rintro ⟨goesOn, hcalls⟩
    -- A firmware that stops the system shows that it was called, and with which address.
    have hstops : ∀ stop : UInt32 → Fault,
        bringUp { engine with initFirmware := fun asked => throw (stop asked) } doorbell device
          before = .error (stop bus) atCall := fun stop => hcalls _
    simp only [bringUp_apply] at hstops
    cases hprepare : prepare engine doorbell device before with
    | error cause after =>
      rw [hprepare] at hstops
      cases hstops fun _ => .blocked
      cases hstops fun _ => .overflow
    | ok answer after =>
      rw [hprepare] at hstops
      cases answer with
      | error e => cases hstops fun _ => .blocked
      | ok memory =>
        obtain ⟨slots, slotsBus⟩ := memory
        have hcalled := hstops fun asked => if asked = bus then .blocked else .overflow
        obtain ⟨hcause, rfl⟩ : (if slotsBus = bus then Fault.blocked else .overflow) =
            (if bus = bus then .blocked else .overflow) ∧ after = atCall :=
          EStateM.Result.error.inj hcalled
        by_cases hbus : slotsBus = bus
        · rw [hbus]
          exact ⟨slots, rfl⟩
        · rw [if_neg hbus, if_pos rfl] at hcause
          cases hcause
  · rintro ⟨slots, hprepare⟩
    refine ⟨conclude engine slots bus, fun initFirmware => ?_⟩
    rw [bringUp_apply, hprepare]

/-- Where the firmware is not called, it makes no difference. -/
theorem callsFirmware_or_same (engine : Engine η κ) (doorbell : η) (device : PlatformDevice)
    (before : Kernel η κ) :
    (∃ bus atCall, CallsFirmware engine doorbell device before bus atCall) ∨
      ∀ initFirmware, bringUp { engine with initFirmware } doorbell device before =
        bringUp engine doorbell device before := by
  by_cases hcalled : ∃ memory atCall,
      prepare engine doorbell device before = .ok (.ok memory) atCall
  · obtain ⟨⟨slots, slotsBus⟩, atCall, hprepare⟩ := hcalled
    exact Or.inl ⟨slotsBus, atCall, callsFirmware_iff.2 ⟨slots, hprepare⟩⟩
  · right
    intro initFirmware
    have hsame : bringUp engine doorbell device before =
        bringUp { engine with initFirmware := engine.initFirmware } doorbell device before := rfl
    rw [hsame, bringUp_apply, bringUp_apply]
    cases hprepare : prepare engine doorbell device before with
    | error cause after => rfl
    | ok answer after =>
      cases answer with
      | error e => rfl
      | ok memory => exact absurd ⟨memory, after, hprepare⟩ hcalled

end Kernel

/-! ## The board's own device -/

/-- An engine that takes any memory, keeps the platform's words in front of its slots, and
agrees to everything. -/
def Engine.obliging : Engine η κ where
  initSlots start _ := return some start
  initState := return .success
  callConnected := return ()
  initFirmware _ := return .ok 0

/-- The device as it is wired on the board, written out. -/
def boardDevice : PlatformDevice where
  resources := [⟨0x3f00b840, 0x3f00b84f, ResourceFlags.registers⟩,
    ⟨66, 66, ResourceFlags.interrupt⟩]
  dmaMemory := some ⟨0x1c80000, 0x1cfffff, ResourceFlags.dma⟩

theorem transferDevice_eq : transferDevice {} = .ok boardDevice :=
  rfl

/-- A kernel before anything was set up. -/
def idleKernel : Kernel Unit Unit where
  board := { device := Memory.zeroed }
  heap := Heap.ofRange 0x2000000 0x2100000
  interrupts := { base := interruptRegisters }
  outside := ()

end DriverHost
