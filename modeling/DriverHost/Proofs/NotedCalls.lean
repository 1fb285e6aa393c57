import DriverHost.Proofs.BringUp

/-!
# The calls that bringing the platform up makes

Bringing the platform up calls the engine, the interrupt controller and the firmware.  Here each
of these calls is noted where it is made, with what was asked and what came back.  Forgetting the
notes leaves the run as it is without them, so what the notes tell is true of it.

Main results:

- Inductive type `PlatformCall`: a call with its answer.
- Definition `Kernel.bringUpNoted`: bringing the platform up, with the calls noted.
- Theorem `Kernel.forgets_bringUpNoted`: without the notes it is `Kernel.bringUp`.
-/

namespace DriverHost

variable {ε α β η κ : Type}

/-- A call of the engine, the interrupt controller or the firmware, with the answer or the fault
that it came to. -/
inductive PlatformCall where
  | initSlots (start size : UInt64) (answer : Except Fault (Option UInt64))
  | initState (answer : Except Fault TransferStatus)
  | connect (irq : Nat) (answer : Except Fault (Except IrqError Unit))
  | initFirmware (bus : UInt32) (answer : Except Fault (Except MailboxError UInt32))
  | callConnected (answer : Except Fault Unit)

/-- What surrounds a kernel, with the calls that were made. -/
structure Noted (κ : Type) where
  calls : List PlatformCall := []
  outside : κ

namespace Kernel

/-! ## Taking notes -/

/-- The calls noted so far. -/
def calls (kernel : Kernel η (Noted κ)) : List PlatformCall :=
  kernel.outside.calls

/-- A kernel with the calls noted so far. -/
def noting (kernel : Kernel η κ) (calls : List PlatformCall) : Kernel η (Noted κ) :=
  { kernel with outside := ⟨calls, kernel.outside⟩ }

/-- The kernel without the notes. -/
def forget (kernel : Kernel η (Noted κ)) : Kernel η κ :=
  { kernel with outside := kernel.outside.outside }

@[simp] theorem forget_noting (kernel : Kernel η κ) (calls : List PlatformCall) :
    (kernel.noting calls).forget = kernel :=
  rfl

@[simp] theorem interrupts_forget (kernel : Kernel η (Noted κ)) :
    kernel.forget.interrupts = kernel.interrupts :=
  rfl

/-- An action whose answer is noted as that of a call. -/
def noted (call : Except Fault α → PlatformCall) (action : Action (Kernel η κ) α) :
    Action (Kernel η (Noted κ)) α := fun kernel =>
  match action kernel.forget with
  | .ok answer after => .ok answer (after.noting (kernel.calls ++ [call (.ok answer)]))
  | .error cause after => .error cause (after.noting (kernel.calls ++ [call (.error cause)]))

/-- A call that returns adds itself and its answer to the notes. -/
theorem noted_of_ok {call : Except Fault α → PlatformCall} {action : Action (Kernel η κ) α}
    {before : Kernel η (Noted κ)} {after : Kernel η κ} {answer : α}
    (haction : action before.forget = .ok answer after) :
    noted call action before =
      .ok answer (after.noting (before.calls ++ [call (.ok answer)])) := by
  rw [noted, haction]

/-- A call that does not return adds itself and its cause to the notes. -/
theorem noted_of_error {call : Except Fault α → PlatformCall} {action : Action (Kernel η κ) α}
    {before : Kernel η (Noted κ)} {after : Kernel η κ} {cause : Fault}
    (haction : action before.forget = .error cause after) :
    noted call action before =
      .error cause (after.noting (before.calls ++ [call (.error cause)])) := by
  rw [noted, haction]

end Kernel

/-- The engine and the firmware, with each call noted. -/
def Engine.noting (engine : Engine η κ) : Engine η (Noted κ) where
  initSlots start size := Kernel.noted (.initSlots start size) (engine.initSlots start size)
  initState := Kernel.noted .initState engine.initState
  callConnected := Kernel.noted .callConnected engine.callConnected
  initFirmware bus := Kernel.noted (.initFirmware bus) (engine.initFirmware bus)

namespace Kernel

/-- Find the doorbell's registers and have its interrupt connected by a given action. -/
def attachDoorbellBy (connect : Nat → Action (Kernel η κ) (Except IrqError Unit))
    (device : PlatformDevice) : Action (Kernel η κ) (Except PlatformError Unit) := do
  let some registers := device.resource? ResourceFlags.registers 0
    | return .error .noRegisters
  updatePlatform fun platform => { platform with doorbell := registers.start }
  let irq := ((device.irq? 0).getD 0).toNat
  if irq = 0 then
    report .error "failed to get IRQ"
    return .error .noIrq
  let connected ← connect irq
  if let .error source := connected then
    return .error (.irqRequest irq source)
  return .ok ()

/-- The stages of bringing the platform up, with a given action that connects the interrupt. -/
def bringUpBy (connect : Nat → Action (Kernel η κ) (Except IrqError Unit)) (engine : Engine η κ)
    (device : PlatformDevice) : Action (Kernel η κ) (Except PlatformError Unit) :=
  (shareMemory device).andThen fun memory =>
    (laySlots engine memory.1 memory.2).andThen fun _ =>
      (startEngine engine).andThen fun _ =>
        (attachDoorbellBy connect device).andThen fun _ =>
          announce engine memory.1 memory.2

/-- The bring-up is the one that connects the doorbell itself. -/
theorem bringUp_eq_bringUpBy (engine : Engine η κ) (doorbell : η) (device : PlatformDevice) :
    bringUp engine doorbell device =
      bringUpBy (fun irq => connectDoorbell irq doorbell) engine device :=
  bringUp_eq engine doorbell device

/-- Bring the platform up and note each call where it is made. -/
def bringUpNoted (engine : Engine η κ) (doorbell : η) (device : PlatformDevice) :
    Action (Kernel η (Noted κ)) (Except PlatformError Unit) :=
  bringUpBy (fun irq => noted (.connect irq) (connectDoorbell irq doorbell)) engine.noting device

/-! ## Forgetting the notes -/

/-- The end of a run without the notes. -/
def forgetEnd : EStateM.Result Fault (Kernel η (Noted κ)) α → EStateM.Result Fault (Kernel η κ) α
  | .ok value kernel => .ok value kernel.forget
  | .error cause kernel => .error cause kernel.forget

/-- Without the notes, an action is the same as another one. -/
def Forgets (annotated : Action (Kernel η (Noted κ)) α) (plain : Action (Kernel η κ) α) : Prop :=
  ∀ kernel, forgetEnd (annotated kernel) = plain kernel.forget

namespace Forgets

/-- Taking a note of a call changes nothing but the notes. -/
theorem noted (call : Except Fault α → PlatformCall) (action : Action (Kernel η κ) α) :
    Forgets (Kernel.noted call action) action := by
  intro kernel
  rw [Kernel.noted]
  cases action kernel.forget <;> rfl

theorem pure (value : α) :
    Forgets (Pure.pure value : Action (Kernel η (Noted κ)) α) (Pure.pure value) :=
  fun _ => rfl

/-- Notes taken by two parts of a sequence can be forgotten in each of them. -/
theorem bind {first : Action (Kernel η (Noted κ)) α} {plain : Action (Kernel η κ) α}
    {next : α → Action (Kernel η (Noted κ)) β} {rest : α → Action (Kernel η κ) β}
    (hfirst : Forgets first plain) (hnext : ∀ value, Forgets (next value) (rest value)) :
    Forgets (first >>= next) (plain >>= rest) := by
  intro kernel
  have hstart := hfirst kernel
  cases hreached : first kernel with
  | ok value reached =>
    rw [hreached] at hstart
    rw [Action.bind_of_ok hreached, Action.bind_of_ok hstart.symm]
    exact hnext value reached
  | error cause reached =>
    rw [hreached] at hstart
    rw [Action.bind_of_error hreached, Action.bind_of_error hstart.symm]
    rfl

theorem lift (value : Except Fault α) :
    Forgets (liftM value : Action (Kernel η (Noted κ)) α) (liftM value) := by
  intro kernel
  cases value <;> rfl

theorem report (severity : Severity) (message : String) :
    Forgets (Kernel.report severity message : Action (Kernel η (Noted κ)) Unit)
      (Kernel.report severity message) :=
  fun _ => rfl

theorem updatePlatform (change : TransferPlatform → TransferPlatform) :
    Forgets (Kernel.updatePlatform change : Action (Kernel η (Noted κ)) Unit)
      (Kernel.updatePlatform change) :=
  fun _ => rfl

theorem storePlatformWords (words : UInt64) (fragments : UInt32) :
    Forgets (Kernel.storePlatformWords words fragments : Action (Kernel η (Noted κ)) Unit)
      (Kernel.storePlatformWords words fragments) :=
  fun _ => rfl

theorem refillFragments (slots : UInt64) :
    Forgets (Kernel.refillFragments slots : Action (Kernel η (Noted κ)) Unit)
      (Kernel.refillFragments slots) := by
  intro kernel
  rw [refillFragments_apply, refillFragments_apply]
  cases addWords slots slotMemorySize <;> rfl

/-- Notes taken by two stages can be forgotten in each of them. -/
theorem andThen {first : Action (Kernel η (Noted κ)) (Except ε α)}
    {plain : Action (Kernel η κ) (Except ε α)}
    {next : α → Action (Kernel η (Noted κ)) (Except ε β)}
    {rest : α → Action (Kernel η κ) (Except ε β)} (hfirst : Forgets first plain)
    (hnext : ∀ value, Forgets (next value) (rest value)) :
    Forgets (first.andThen next) (plain.andThen rest) := by
  refine hfirst.bind fun answer => ?_
  cases answer with
  | ok value => exact hnext value
  | error e => exact pure _

end Forgets

section Stages

variable (engine : Engine η κ) (doorbell : η) (device : PlatformDevice)

theorem forgets_shareMemory :
    Forgets (shareMemory device : Action (Kernel η (Noted κ)) _) (shareMemory device) := by
  refine (Forgets.lift _).bind fun memory => ?_
  rcases memory with _ | ⟨slots, slotsBus⟩
  · exact (Forgets.report _ _).bind fun _ => .pure _
  · refine (Forgets.lift _).bind fun aligned => ?_
    cases aligned with
    | false => exact (Forgets.report _ _).bind fun _ => .pure _
    | true => exact .pure _

theorem forgets_laySlots (slots : UInt64) (slotsBus : UInt32) :
    Forgets (laySlots engine.noting slots slotsBus) (laySlots engine slots slotsBus) := by
  refine (Forgets.noted _ _).bind fun words => ?_
  cases words with
  | none => exact .pure _
  | some words =>
    exact (Forgets.storePlatformWords _ _).bind fun _ =>
      (Forgets.refillFragments _).bind fun _ => .pure _

theorem forgets_startEngine : Forgets (startEngine engine.noting) (startEngine engine) := by
  refine (Forgets.noted _ _).bind fun status => ?_
  split <;> exact .pure _

/-- Attaching the doorbell is the same whether its connection is noted or not. -/
theorem forgets_attachDoorbell :
    Forgets (attachDoorbellBy (fun irq => noted (.connect irq) (connectDoorbell irq doorbell))
        device)
      (attachDoorbellBy (fun irq => connectDoorbell (η := η) (κ := κ) irq doorbell) device) := by
  unfold attachDoorbellBy
  cases device.resource? ResourceFlags.registers 0 with
  | none => exact .pure _
  | some registers =>
    refine (Forgets.updatePlatform _).bind fun _ => ?_
    dsimp only
    split
    · exact (Forgets.report _ _).bind fun _ => .pure _
    · refine (Forgets.noted _ _).bind fun connected => ?_
      cases connected <;> exact .pure _

theorem forgets_announce (slots : UInt64) (slotsBus : UInt32) :
    Forgets (announce engine.noting slots slotsBus) (announce engine slots slotsBus) := by
  refine (Forgets.noted _ _).bind fun answer => ?_
  cases answer with
  | error source => exact .pure _
  | ok status =>
    rw [conclude, conclude]
    by_cases hzero : status ≠ 0
    · rw [if_pos hzero, if_pos hzero]
      exact (Forgets.report _ _).bind fun _ => .pure _
    · rw [if_neg hzero, if_neg hzero]
      exact (Forgets.report _ _).bind fun _ => (Forgets.noted _ _).bind fun _ => .pure _

/-- Without the notes, the run that takes them is the run that does not. -/
theorem forgets_bringUpNoted :
    Forgets (bringUpNoted engine doorbell device) (bringUp engine doorbell device) := by
  rw [bringUp_eq_bringUpBy]
  exact (forgets_shareMemory device).andThen fun memory =>
    (forgets_laySlots engine memory.1 memory.2).andThen fun _ =>
      (forgets_startEngine engine).andThen fun _ =>
        (forgets_attachDoorbell doorbell device).andThen fun _ =>
          forgets_announce engine memory.1 memory.2

end Stages

end Kernel

end DriverHost
