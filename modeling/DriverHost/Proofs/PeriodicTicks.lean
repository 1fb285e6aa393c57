import DriverHost.Proofs.BringUp
import DriverHost.Proofs.PartOfState
import DriverHost.SystemTimer

/-!
# Periodic ticks

The timer's channel is armed once, and from then on each service of its interrupt arms it again.
Between the services anything may happen that leaves the channel alone.  However late a service is,
within half the counter's range, it leaves a deadline that is still to come and at most one interval
away.  While no service is a whole interval late, the deadlines stay on the grid that the first one
began.

Main results:

- Theorem `SystemTimer.nextDeadline_of_late`: the next deadline, at any place of the counter.
- Structure `TickHardware`: a counter that shows the true time, beside a compare channel.
- Inductive relation `Ticking`: starting the ticks and servicing them, with all that lies between.
- Theorem `Ticking.neither_drift_nor_stall`: where the deadline is, and who was called.
-/

namespace DriverHost

variable {η σ δ : Type}

/-! ## The next deadline -/

theorem tickInterval_eq : tickInterval = 10000 := by
  decide

namespace SystemTimer

/-- A time is not after another if it is equal or up to half the counter's range behind. -/
theorem notAfter_iff (time now : UInt32) :
    notAfter time now = true ↔ (time - now).toNat = 0 ∨ 2 ^ 31 ≤ (time - now).toNat := by
  have hhalf : 1 <<< 31 = 2 ^ 31 := Nat.one_shiftLeft 31
  rw [notAfter, hhalf, Bool.or_eq_true, decide_eq_true_eq, decide_eq_true_eq, ← UInt32.toNat_inj,
    UInt32.toNat_zero]

/-- A service that is less than an interval late goes on to the next deadline, a later one to a
whole interval from now.  Either way the deadline is still to come. -/
theorem nextDeadline_of_late {previous now : UInt32} (hlate : (now - previous).toNat < 2 ^ 31) :
    (1 ≤ (nextDeadline previous now - now).toNat ∧
      (nextDeadline previous now - now).toNat ≤ 10000) ∧
    ((now - previous).toNat < 10000 → nextDeadline previous now = previous + 10000) := by
  have hinterval : (10000 : UInt32).toNat = 10000 := rfl
  have hahead : (previous + 10000 - now).toNat =
      (2 ^ 32 + 10000 - (now - previous).toNat) % 2 ^ 32 := by
    have hprevious := previous.toNat_lt
    have hnow := now.toNat_lt
    rw [UInt32.toNat_sub, UInt32.toNat_add, UInt32.toNat_sub, hinterval]
    omega
  by_cases hearly : (now - previous).toNat < 10000
  · have hnext : nextDeadline previous now = previous + 10000 := by
      rw [nextDeadline, tickInterval_eq]
      refine if_neg fun hpassed => ?_
      rw [notAfter_iff, hahead] at hpassed
      omega
    rw [hnext, hahead]
    exact ⟨by omega, fun _ => rfl⟩
  · have hnext : nextDeadline previous now = now + 10000 := by
      rw [nextDeadline, tickInterval_eq]
      refine if_pos ((notAfter_iff _ _).2 ?_)
      rw [hahead]
      omega
    have hwhole : now + 10000 - now = 10000 := by
      rw [UInt32.add_comm, UInt32.add_sub_cancel]
    rw [hnext, hwhole, hinterval]
    exact ⟨by omega, fun hnever => absurd hnever hearly⟩

end SystemTimer

/-! ## Hardware -/

/-- A timer whose counter shows the true time in microseconds, and whose compare channel holds what
was last written to it. -/
structure TickHardware (δ : Type) [Bus δ] (base : UInt64) where
  /-- The true time. -/
  time : δ → Nat
  /-- What the compare channel holds. -/
  compare : δ → UInt32
  load_counter : ∀ device,
    (Bus.load (base + SystemTimer.counterOffset) device).1 = UInt32.ofNat (time device)
  load_compare : ∀ device,
    (Bus.load (base + SystemTimer.compareOffset) device).1 = compare device
  compare_load : ∀ address device, compare (Bus.load address device).2 = compare device
  compare_save : ∀ value device,
    compare (Bus.save (base + SystemTimer.compareOffset) value device) = value
  compare_acknowledge : ∀ flags device,
    compare (Bus.save (base + SystemTimer.statusOffset) flags device) = compare device

namespace TickHardware

variable [Bus δ] {base : UInt64} (hardware : TickHardware δ base) (periodic : Option η)

/-- When a service that begins with this device reads the counter. -/
def serviceTime (device : δ) : Nat :=
  hardware.time (Bus.load (base + SystemTimer.compareOffset)
    (Bus.load (base + SystemTimer.statusOffset) device).2).2

/-- The device says that the channel matched. -/
def matched (base : UInt64) (device : δ) : Prop :=
  (Bus.load (base + SystemTimer.statusOffset) device).1 &&& SystemTimer.matchFlag ≠ 0

/-- The first deadline is an interval behind the counter. -/
theorem compare_startTicks (device : δ) :
    hardware.compare (SystemTimer.startTicks ⟨base, periodic⟩ device) =
      UInt32.ofNat (hardware.time device) + 10000 := by
  have hstart : SystemTimer.startTicks ⟨base, periodic⟩ device =
      Bus.save (base + SystemTimer.compareOffset)
        ((Bus.load (base + SystemTimer.counterOffset) device).1 + tickInterval)
        (Bus.load (base + SystemTimer.counterOffset) device).2 := rfl
  rw [hstart, hardware.compare_save, hardware.load_counter, tickInterval_eq]

/-- Arming the channel again writes the deadline that follows the one it held. -/
theorem compare_rearm (device : δ) :
    hardware.compare (SystemTimer.rearm ⟨base, periodic⟩ device) =
      SystemTimer.nextDeadline (hardware.compare device) (UInt32.ofNat
        (hardware.time (Bus.load (base + SystemTimer.compareOffset) device).2)) := by
  have hrearm : SystemTimer.rearm ⟨base, periodic⟩ device =
      Bus.save (base + SystemTimer.statusOffset) SystemTimer.matchFlag
        (Bus.save (base + SystemTimer.compareOffset)
          (SystemTimer.nextDeadline (Bus.load (base + SystemTimer.compareOffset) device).1
            (Bus.load (base + SystemTimer.counterOffset)
              (Bus.load (base + SystemTimer.compareOffset) device).2).1)
          (Bus.load (base + SystemTimer.counterOffset)
            (Bus.load (base + SystemTimer.compareOffset) device).2).2) := rfl
  rw [hrearm, hardware.compare_acknowledge, hardware.compare_save, hardware.load_compare,
    hardware.load_counter]

end TickHardware

/-! ## Services -/

namespace SystemTimer

variable [Bus δ]

/-- Call whoever asked to be called. -/
def callPeriodic (call : η → Action σ Unit) : Option η → Action σ Unit
  | some handler => call handler
  | none => pure ()

/-- Without a match, the interrupt is not the timer's. -/
theorem handle_of_clear (timer : SystemTimer η) (view : Coroutine.View σ δ)
    (call : η → Action σ Unit) {state : σ}
    (hclear : ¬ TickHardware.matched timer.base (view.get state)) :
    timer.handle view call state =
      .ok .unclaimed
        (view.set (Bus.load (timer.base + statusOffset) (view.get state)).2 state) := by
  have hread : view.lift (fun device => .ok (Bus.load (timer.base + statusOffset) device).1
      (Bus.load (timer.base + statusOffset) device).2) state =
        .ok (Bus.load (timer.base + statusOffset) (view.get state)).1
          (view.set (Bus.load (timer.base + statusOffset) (view.get state)).2 state) := rfl
  exact (Action.bind_of_ok hread _).trans (by rw [if_pos (not_not.1 hclear)]; rfl)

/-- After a match, the channel is armed again before anyone is called. -/
theorem handle_of_matched (timer : SystemTimer η) {view : Coroutine.View σ δ} (hview : view.Lawful)
    (call : η → Action σ Unit) {state : σ}
    (hmatched : TickHardware.matched timer.base (view.get state)) :
    timer.handle view call state =
      (callPeriodic call timer.periodic >>= fun _ => pure .handled)
        (view.set (timer.rearm (Bus.load (timer.base + statusOffset) (view.get state)).2)
          state) := by
  have hread : view.lift (fun device => .ok (Bus.load (timer.base + statusOffset) device).1
      (Bus.load (timer.base + statusOffset) device).2) state =
        .ok (Bus.load (timer.base + statusOffset) (view.get state)).1
          (view.set (Bus.load (timer.base + statusOffset) (view.get state)).2 state) := rfl
  have harmed : ∀ device, view.lift (fun device => .ok () (timer.rearm device))
      (view.set device state) = .ok () (view.set (timer.rearm device) state) := by
    intro device
    have hlift : view.lift (fun device => .ok () (timer.rearm device)) (view.set device state) =
        .ok () (view.set (timer.rearm (view.get (view.set device state)))
          (view.set device state)) := rfl
    rw [hlift, hview.get_set, hview.set_set]
  refine (Action.bind_of_ok hread _).trans ?_
  rw [if_neg hmatched]
  refine (Action.bind_of_ok (harmed _) _).trans ?_
  cases timer.periodic <;> rfl

end SystemTimer

/-- A state with the handlers that were called. -/
structure Counted (σ η : Type) where
  state : σ
  called : List η := []

namespace Counted

/-- The part of the state that the timer is on. -/
def view (view : Coroutine.View σ δ) : Coroutine.View (Counted σ η) δ where
  get counted := view.get counted.state
  set part counted := { counted with state := view.set part counted.state }

/-- A part of the state is as well a part of the state with the count. -/
theorem lawful_view {view : Coroutine.View σ δ} (hview : view.Lawful) :
    (Counted.view view : Coroutine.View (Counted σ η) δ).Lawful where
  set_get counted := by simp only [Counted.view, hview.set_get]
  get_set part counted := hview.get_set part counted.state
  set_set first second counted := by simp only [Counted.view, hview.set_set]

/-- Call a handler and count the call, also if it does not return. -/
def counting (call : η → Action σ Unit) (handler : η) : Action (Counted σ η) Unit :=
  fun counted =>
    match call handler counted.state with
    | .ok () state => .ok () ⟨state, counted.called ++ [handler]⟩
    | .error cause state => .error cause ⟨state, counted.called ++ [handler]⟩

/-- The end of a run without the count. -/
def uncounted {α : Type} :
    EStateM.Result Fault (Counted σ η) α → EStateM.Result Fault σ α
  | .ok value counted => .ok value counted.state
  | .error cause counted => .error cause counted.state

/-- The count changes nothing of a call to the handler. -/
theorem uncounted_callPeriodic (call : η → Action σ Unit) (periodic : Option η)
    (counted : Counted σ η) :
    uncounted (SystemTimer.callPeriodic (counting call) periodic counted) =
      SystemTimer.callPeriodic call periodic counted.state := by
  cases periodic with
  | none => rfl
  | some handler =>
    rw [SystemTimer.callPeriodic, SystemTimer.callPeriodic, counting]
    cases call handler counted.state <;> rfl

/-- The count changes nothing of a sequence if it changes nothing of its first part. -/
theorem uncounted_then {α β : Type} {action : Action (Counted σ η) α} {plain : Action σ α}
    {counted : Counted σ η} (hsame : uncounted (action counted) = plain counted.state) (value : β) :
    uncounted ((action >>= fun _ => pure value) counted) =
      (plain >>= fun _ => pure value) counted.state := by
  cases haction : action counted with
  | ok answer after =>
    rw [haction] at hsame
    rw [Action.bind_of_ok haction, Action.bind_of_ok hsame.symm]
    rfl
  | error cause after =>
    rw [haction] at hsame
    rw [Action.bind_of_error haction, Action.bind_of_error hsame.symm]
    rfl

/-- Counting the calls changes nothing about a service. -/
theorem uncounted_handle [Bus δ] (timer : SystemTimer η) {view : Coroutine.View σ δ}
    (hview : view.Lawful) (call : η → Action σ Unit) (counted : Counted σ η) :
    uncounted (timer.handle (Counted.view view) (counting call) counted) =
      timer.handle view call counted.state := by
  by_cases hmatched : TickHardware.matched timer.base (view.get counted.state)
  · rw [timer.handle_of_matched (lawful_view hview) (counting call) hmatched,
      timer.handle_of_matched hview call hmatched]
    exact uncounted_then (uncounted_callPeriodic call timer.periodic _) _
  · rw [timer.handle_of_clear (Counted.view view) (counting call) hmatched,
      timer.handle_of_clear view call hmatched]
    rfl

end Counted

/-! ## Runs of the ticks -/

/-- A service: when it was, how late it was, and who was to be called. -/
structure Service (η : Type) where
  time : Nat
  lateness : Nat
  periodic : Option η

section Ticking

variable [Bus δ] {base : UInt64}

/-- The ticks were started and serviced, last at some time.  In between anything may happen that
leaves the compare channel alone, also interrupts that are not the timer's. -/
inductive Ticking (hardware : TickHardware δ base) (view : Coroutine.View σ δ)
    (call : η → Action σ Unit) (start : Nat) :
    List (Service η) → Nat → Counted σ η → Prop
  | started {periodic : Option η} {before} (htime : hardware.time (view.get before) = start) :
      Ticking hardware view call start [] start
        ⟨view.set (SystemTimer.startTicks ⟨base, periodic⟩ (view.get before)) before, []⟩
  | elapsed {services last before after}
      (hticking : Ticking hardware view call start services last before)
      (hcompare : hardware.compare (view.get after) = hardware.compare (view.get before.state)) :
      Ticking hardware view call start services last ⟨after, before.called⟩
  | unclaimed {services last periodic answer before after}
      (hticking : Ticking hardware view call start services last before)
      (hclear : ¬ TickHardware.matched base (view.get before.state))
      (hhandle : SystemTimer.handle ⟨base, periodic⟩ (Counted.view view) (Counted.counting call)
        before = .ok answer after) :
      Ticking hardware view call start services last after
  | serviced {services last periodic answer before after deadline}
      (hticking : Ticking hardware view call start services last before)
      (hmatched : TickHardware.matched base (view.get before.state))
      (hdeadline : UInt32.ofNat deadline = hardware.compare (view.get before.state))
      (hdue : deadline ≤ hardware.serviceTime (view.get before.state))
      (hlate : hardware.serviceTime (view.get before.state) < deadline + 2 ^ 31)
      (hhandle : SystemTimer.handle ⟨base, periodic⟩ (Counted.view view) (Counted.counting call)
        before = .ok answer after) :
      Ticking hardware view call start
        (services ++ [⟨hardware.serviceTime (view.get before.state),
          hardware.serviceTime (view.get before.state) - deadline, periodic⟩])
        (hardware.serviceTime (view.get before.state)) after

/-- The handlers leave the compare channel alone. -/
def TickHardware.SparedBy (hardware : TickHardware δ base) (view : Coroutine.View σ δ)
    (call : η → Action σ Unit) : Prop :=
  ∀ handler before after, call handler before = .ok () after →
    hardware.compare (view.get after) = hardware.compare (view.get before)

/-- Where the deadline is, and who was called. -/
structure KeepsTime (hardware : TickHardware δ base) (view : Coroutine.View σ δ) (start : Nat)
    (services : List (Service η)) (last : Nat) (counted : Counted σ η) : Prop where
  /-- The deadline is still to come. -/
  coming : 1 ≤ (hardware.compare (view.get counted.state) - UInt32.ofNat last).toNat
  /-- It is at most one interval away. -/
  near : (hardware.compare (view.get counted.state) - UInt32.ofNat last).toNat ≤ 10000
  /-- Without a late service, it is on the grid of the first one. -/
  onGrid : (∀ service ∈ services, service.lateness < 10000) →
    hardware.compare (view.get counted.state) =
      UInt32.ofNat (start + (services.length + 1) * 10000)
  /-- Each service called whoever asked for it, once. -/
  called : counted.called = services.filterMap Service.periodic

variable {hardware : TickHardware δ base} {view : Coroutine.View σ δ} {call : η → Action σ Unit}
  {start last : Nat} {services : List (Service η)} {periodic : Option η} {answer : IrqReturn}
  {before after counted : Counted σ η}

/-- Whoever asked is called once, and the channel stays as it is. -/
theorem callPeriodic_counting (hspared : hardware.SparedBy view call)
    (hcall : SystemTimer.callPeriodic (Counted.counting call) periodic before = .ok () after) :
    after.called = before.called ++ periodic.toList ∧
      hardware.compare (view.get after.state) = hardware.compare (view.get before.state) := by
  cases periodic with
  | none =>
    cases hcall
    exact ⟨(List.append_nil _).symm, rfl⟩
  | some handler =>
    rw [SystemTimer.callPeriodic, Counted.counting] at hcall
    cases hreturns : call handler before.state with
    | error cause state =>
      rw [hreturns] at hcall
      cases hcall
    | ok _ state =>
      rw [hreturns] at hcall
      cases hcall
      exact ⟨rfl, hspared handler _ _ hreturns⟩

/-- The grid goes on by one interval at a time. -/
theorem ofNat_add_interval (start count : Nat) :
    UInt32.ofNat (start + count * 10000) + 10000 = UInt32.ofNat (start + (count + 1) * 10000) := by
  have hinterval : (10000 : UInt32).toNat = 10000 := rfl
  rw [← UInt32.toNat_inj, UInt32.toNat_add, UInt32.toNat_ofNat', UInt32.toNat_ofNat', hinterval]
  omega

/-- What one service does. -/
theorem serviced_cases (hview : view.Lawful) (hspared : hardware.SparedBy view call)
    (hmatched : TickHardware.matched base (view.get before.state))
    (hhandle : SystemTimer.handle ⟨base, periodic⟩ (Counted.view view) (Counted.counting call)
      before = .ok answer after) :
    after.called = before.called ++ periodic.toList ∧
      hardware.compare (view.get after.state) =
        SystemTimer.nextDeadline (hardware.compare (view.get before.state))
          (UInt32.ofNat (hardware.serviceTime (view.get before.state))) := by
  have hmatch : TickHardware.matched base ((Counted.view view).get before) := hmatched
  rw [SystemTimer.handle_of_matched ⟨base, periodic⟩ (Counted.lawful_view hview) _ hmatch]
    at hhandle
  obtain ⟨_, called, hcall, hreturn⟩ := Action.bind_eq_ok_iff.1 hhandle
  obtain ⟨-, rfl⟩ := Action.pure_eq_ok_iff.1 hreturn
  obtain ⟨hcalled, hcompare⟩ := callPeriodic_counting hspared hcall
  refine ⟨hcalled, hcompare.trans ?_⟩
  rw [Counted.view, hview.get_set, hardware.compare_rearm, hardware.compare_load]
  rfl

/-- An interrupt that is not the timer's changes nothing about its channel. -/
theorem unclaimed_cases (hview : view.Lawful)
    (hclear : ¬ TickHardware.matched base (view.get before.state))
    (hhandle : SystemTimer.handle ⟨base, periodic⟩ (Counted.view view) (Counted.counting call)
      before = .ok answer after) :
    after.called = before.called ∧
      hardware.compare (view.get after.state) = hardware.compare (view.get before.state) := by
  have hnone : ¬ TickHardware.matched base ((Counted.view view).get before) := hclear
  rw [SystemTimer.handle_of_clear ⟨base, periodic⟩ _ _ hnone] at hhandle
  cases hhandle
  refine ⟨rfl, ?_⟩
  rw [Counted.view, hview.get_set, hardware.compare_load]

/-- Armed for the first time, the channel is one interval ahead. -/
theorem KeepsTime.started (hview : view.Lawful) {first : σ}
    (htime : hardware.time (view.get first) = start) (periodic : Option η) :
    KeepsTime (η := η) hardware view start [] start
      ⟨view.set (SystemTimer.startTicks ⟨base, periodic⟩ (view.get first)) first, []⟩ := by
  have hcompare : hardware.compare (view.get
      (view.set (SystemTimer.startTicks ⟨base, periodic⟩ (view.get first)) first)) =
        UInt32.ofNat start + 10000 := by
    rw [hview.get_set, hardware.compare_startTicks, htime]
  have hahead : UInt32.ofNat start + 10000 - UInt32.ofNat start = 10000 := by
    rw [UInt32.add_comm, UInt32.add_sub_cancel]
  constructor
  case coming =>
    rw [hcompare, hahead]
    decide
  case near =>
    rw [hcompare, hahead]
    decide
  case onGrid =>
    intro _
    have hgrid := ofNat_add_interval start 0
    rw [Nat.zero_mul, Nat.add_zero] at hgrid
    exact hcompare.trans hgrid
  case called => rfl

/-- A service within half the counter's range keeps the time. -/
theorem KeepsTime.serviced {time deadline : Nat}
    (hkeeps : KeepsTime hardware view start services last before)
    (hdeadline : UInt32.ofNat deadline = hardware.compare (view.get before.state))
    (hdue : deadline ≤ time) (hlate : time < deadline + 2 ^ 31)
    (hcalled : after.called = before.called ++ periodic.toList)
    (hcompare : hardware.compare (view.get after.state) =
      SystemTimer.nextDeadline (hardware.compare (view.get before.state)) (UInt32.ofNat time)) :
    KeepsTime hardware view start (services ++ [⟨time, time - deadline, periodic⟩]) time after := by
  have hlateness : (UInt32.ofNat time - UInt32.ofNat deadline).toNat = time - deadline := by
    rw [UInt32.toNat_sub, UInt32.toNat_ofNat', UInt32.toNat_ofNat']
    omega
  have hsmall : (UInt32.ofNat time - UInt32.ofNat deadline).toNat < 2 ^ 31 := by omega
  obtain ⟨⟨hcoming, hnear⟩, hnext⟩ := SystemTimer.nextDeadline_of_late hsmall
  rw [← hdeadline] at hcompare
  constructor
  case coming => simpa only [hcompare] using hcoming
  case near => simpa only [hcompare] using hnear
  case onGrid =>
    intro hpunctual
    have hbefore := hkeeps.onGrid fun service hservice =>
      hpunctual service (List.mem_append_left _ hservice)
    have hnow : time - deadline < 10000 := hpunctual _ List.mem_concat_self
    rw [hcompare, hnext (hlateness ▸ hnow), hdeadline, hbefore, ofNat_add_interval,
      List.length_append, List.length_singleton]
  case called =>
    rw [hcalled, hkeeps.called, List.filterMap_append]
    cases periodic <;> rfl

/-- Every step of a run keeps the time. -/
theorem Ticking.keepsTime (hview : view.Lawful) (hspared : hardware.SparedBy view call)
    (hticking : Ticking hardware view call start services last counted) :
    KeepsTime hardware view start services last counted := by
  induction hticking with
  | started htime => exact .started hview htime _
  | elapsed _ hcompare ih =>
    obtain ⟨hcoming, hnear, honGrid, hcalled⟩ := ih
    rw [← hcompare] at hcoming hnear honGrid
    exact ⟨hcoming, hnear, honGrid, hcalled⟩
  | unclaimed _ hclear hhandle ih =>
    obtain ⟨hsame, hcompare⟩ := unclaimed_cases hview hclear hhandle
    obtain ⟨hcoming, hnear, honGrid, hcalled⟩ := ih
    rw [← hcompare] at hcoming hnear honGrid
    exact ⟨hcoming, hnear, honGrid, hsame.trans hcalled⟩
  | serviced _ hmatched hdeadline hdue hlate hhandle ih =>
    obtain ⟨hcalled, hcompare⟩ := serviced_cases hview hspared hmatched hhandle
    exact ih.serviced hdeadline hdue hlate hcalled hcompare

/-- The timer answers every interrupt if the handlers return, and claims it exactly after a
match. -/
theorem handle_returns (hview : view.Lawful)
    (hreturns : ∀ handler before, ∃ after, call handler before = .ok () after)
    (periodic : Option η) (state : σ) :
    ∃ answer after, SystemTimer.handle ⟨base, periodic⟩ view call state = .ok answer after ∧
      (answer = .handled ↔ TickHardware.matched base (view.get state)) := by
  by_cases hmatched : TickHardware.matched base (view.get state)
  · rw [SystemTimer.handle_of_matched ⟨base, periodic⟩ hview call hmatched]
    cases periodic with
    | none => exact ⟨.handled, _, rfl, iff_of_true rfl hmatched⟩
    | some handler =>
      obtain ⟨after, hcall⟩ := hreturns handler (view.set (SystemTimer.rearm
        ⟨base, some handler⟩ (Bus.load (base + SystemTimer.statusOffset) (view.get state)).2) state)
      exact ⟨.handled, after, Action.bind_of_ok hcall _, iff_of_true rfl hmatched⟩
  · rw [SystemTimer.handle_of_clear ⟨base, periodic⟩ view call hmatched]
    exact ⟨.unclaimed, _, rfl, iff_of_false (fun hnever => nomatch hnever) hmatched⟩

/-- The ticks neither drift nor stall.  After each service the deadline is at least one and at most
`10000` microseconds away; as long as every service was less than that late, it is on the grid that
began with the first deadline; and each service called whoever asked to be called, once, while other
interrupts called nobody.  Counting changes nothing, and every interrupt is answered. -/
theorem Ticking.neither_drift_nor_stall (hview : view.Lawful)
    (hspared : hardware.SparedBy view call)
    (hticking : Ticking hardware view call start services last counted) :
    KeepsTime hardware view start services last counted ∧
      (∀ periodic, Counted.uncounted (SystemTimer.handle ⟨base, periodic⟩ (Counted.view view)
        (Counted.counting call) counted) =
          SystemTimer.handle ⟨base, periodic⟩ view call counted.state) ∧
      ((∀ handler before, ∃ after, call handler before = .ok () after) → ∀ periodic,
        ∃ answer after,
          SystemTimer.handle ⟨base, periodic⟩ view call counted.state = .ok answer after ∧
            (answer = .handled ↔ TickHardware.matched base (view.get counted.state))) :=
  ⟨hticking.keepsTime hview hspared,
    fun _ => Counted.uncounted_handle _ hview call counted,
    fun hreturns periodic => handle_returns hview hreturns periodic counted.state⟩

end Ticking

/-! ## A timer that runs -/

/-- A timer whose counter goes on by one with each reading. -/
structure RunningTimer where
  time : Nat
  matched : Bool := false
  compare : UInt32 := 0

instance : Bus RunningTimer where
  load address timer :=
    if address = SystemTimer.statusOffset then
      (if timer.matched then SystemTimer.matchFlag else 0, timer)
    else if address = SystemTimer.counterOffset then
      (UInt32.ofNat timer.time, { timer with time := timer.time + 1 })
    else if address = SystemTimer.compareOffset then (timer.compare, timer)
    else (0, timer)
  save address value timer :=
    if address = SystemTimer.compareOffset then { timer with compare := value }
    else if address = SystemTimer.statusOffset then
      { timer with matched := timer.matched && value &&& SystemTimer.matchFlag == 0 }
    else timer

namespace RunningTimer

theorem load_status (timer : RunningTimer) :
    Bus.load (0 + SystemTimer.statusOffset) timer =
      (if timer.matched then SystemTimer.matchFlag else 0, timer) :=
  rfl

theorem load_counter (timer : RunningTimer) :
    Bus.load (0 + SystemTimer.counterOffset) timer =
      (UInt32.ofNat timer.time, { timer with time := timer.time + 1 }) :=
  rfl

theorem load_compare (timer : RunningTimer) :
    Bus.load (0 + SystemTimer.compareOffset) timer = (timer.compare, timer) :=
  rfl

/-- Writing the match flag to the status register clears it. -/
theorem save_status (flags : UInt32) (timer : RunningTimer) :
    Bus.save (0 + SystemTimer.statusOffset) flags timer =
      { timer with matched := timer.matched && flags &&& SystemTimer.matchFlag == 0 } :=
  rfl

theorem save_compare (value : UInt32) (timer : RunningTimer) :
    Bus.save (0 + SystemTimer.compareOffset) value timer = { timer with compare := value } :=
  rfl

/-- It is a timer as the ticks need one. -/
def hardware : TickHardware RunningTimer 0 where
  time := time
  compare := compare
  load_counter timer := by rw [RunningTimer.load_counter]
  load_compare timer := by rw [RunningTimer.load_compare]
  compare_load address timer := by
    simp only [Bus.load]
    split_ifs <;> rfl
  compare_save value timer := by rw [save_compare]
  compare_acknowledge flags timer := by rw [save_status]

/-- The timer alone. -/
def alone : Coroutine.View RunningTimer RunningTimer where
  get timer := timer
  set timer _ := timer

theorem lawful_alone : alone.Lawful :=
  ⟨fun _ => rfl, fun _ _ => rfl, fun _ _ _ => rfl⟩

/-- Handlers that return at once. -/
def returning : Unit → Action RunningTimer Unit :=
  fun _ timer => .ok () timer

variable {start last time : Nat} {services : List (Service Unit)} {compare : UInt32}
  {called : List Unit}

/-- Arming the channel again takes one reading of the counter, and clears the match. -/
theorem rearm_eq (periodic : Option Unit) (time : Nat) (compare : UInt32) :
    SystemTimer.rearm ⟨0, periodic⟩ (⟨time, true, compare⟩ : RunningTimer) =
      ⟨time + 1, false, SystemTimer.nextDeadline compare (UInt32.ofNat time)⟩ := by
  have hcleared : (SystemTimer.matchFlag &&& SystemTimer.matchFlag == 0) = false := by decide
  simp only [SystemTimer.rearm, SystemTimer.now, load_compare, load_counter, save_compare,
    save_status, hcleared, Bool.and_false]

/-- The example's timer shows a match in its status register. -/
theorem matched_of_flag (time : Nat) (compare : UInt32) :
    TickHardware.matched 0 (⟨time, true, compare⟩ : RunningTimer) := by
  have hflag : SystemTimer.matchFlag &&& SystemTimer.matchFlag ≠ 0 := by decide
  rw [TickHardware.matched, load_status]
  exact hflag

/-- A service after a match. -/
theorem handle_eq (periodic : Option Unit) (time : Nat) (compare : UInt32) (called : List Unit) :
    SystemTimer.handle ⟨0, periodic⟩ (Counted.view alone) (Counted.counting returning)
      ⟨⟨time, true, compare⟩, called⟩ = .ok .handled
        ⟨⟨time + 1, false, SystemTimer.nextDeadline compare (UInt32.ofNat time)⟩,
          called ++ periodic.toList⟩ := by
  have harmed : (Counted.view alone).set (SystemTimer.rearm ⟨0, periodic⟩
      (Bus.load (0 + SystemTimer.statusOffset) (⟨time, true, compare⟩ : RunningTimer)).2)
        ⟨⟨time, true, compare⟩, called⟩ =
      ⟨⟨time + 1, false, SystemTimer.nextDeadline compare (UInt32.ofNat time)⟩, called⟩ := by
    rw [load_status, rearm_eq]
    rfl
  have hmatched : TickHardware.matched 0 ((Counted.view alone).get
      (⟨⟨time, true, compare⟩, called⟩ : Counted RunningTimer Unit)) :=
    matched_of_flag time compare
  refine (SystemTimer.handle_of_matched ⟨0, periodic⟩ (Counted.lawful_view lawful_alone) _
    hmatched).trans ((congrArg _ harmed).trans ?_)
  cases periodic with
  | none =>
    rw [Option.toList_none, List.append_nil]
    rfl
  | some handler => rfl

/-- A service that comes after its deadline, less than half the counter's range late, is one of the
run's. -/
theorem serviced (periodic : Option Unit) (deadline : Nat)
    (hticking : Ticking hardware alone returning start services last
      ⟨⟨time, true, compare⟩, called⟩)
    (hdeadline : UInt32.ofNat deadline = compare) (hdue : deadline ≤ time)
    (hlate : time < deadline + 2 ^ 31) :
    Ticking hardware alone returning start (services ++ [⟨time, time - deadline, periodic⟩]) time
      ⟨⟨time + 1, false, SystemTimer.nextDeadline compare (UInt32.ofNat time)⟩,
        called ++ periodic.toList⟩ :=
  hticking.serviced (matched_of_flag time compare) hdeadline hdue hlate
    (handle_eq periodic time compare called)

end RunningTimer

/-- Ticks that begin `7296` microseconds before the counter wraps: a service that is `20`
microseconds late leaves the next deadline where it belongs, and one that is `25000` late and calls
nobody leaves one that is still to come. -/
theorem ticks_keep_time_across_wrap :
    ∃ punctual late : Counted RunningTimer Unit,
      Ticking RunningTimer.hardware RunningTimer.alone RunningTimer.returning 4294960000
        [⟨4294970020, 20, some ()⟩] 4294970020 punctual ∧
      Ticking RunningTimer.hardware RunningTimer.alone RunningTimer.returning 4294960000
        [⟨4294970020, 20, some ()⟩, ⟨4295005000, 25000, none⟩] 4295005000 late ∧
      punctual.state.compare = 12704 ∧ punctual.called = [()] ∧
      1 ≤ (late.state.compare - UInt32.ofNat 4295005000).toNat ∧
      (late.state.compare - UInt32.ofNat 4295005000).toNat ≤ 10000 ∧ late.called = [()] := by
  have hview := RunningTimer.lawful_alone
  have hspared : RunningTimer.hardware.SparedBy RunningTimer.alone RunningTimer.returning := by
    rintro handler before after ⟨⟩
    rfl
  have hstarted : Ticking RunningTimer.hardware RunningTimer.alone RunningTimer.returning
      4294960000 [] 4294960000
      ⟨SystemTimer.startTicks ⟨0, some ()⟩ (⟨4294960000, false, 0⟩ : RunningTimer), []⟩ :=
    .started rfl
  have hdue : Ticking RunningTimer.hardware RunningTimer.alone RunningTimer.returning
      4294960000 [] 4294960000 ⟨⟨4294970020, true, 2704⟩, []⟩ := hstarted.elapsed (by decide)
  have hpunctual := RunningTimer.serviced (some ()) 4294970000 hdue (by decide) (by decide)
    (by decide)
  have hoverdue : Ticking RunningTimer.hardware RunningTimer.alone RunningTimer.returning
      4294960000 _ _ ⟨⟨4295005000, true, 12704⟩, [()]⟩ := hpunctual.elapsed (by decide)
  have hlate := RunningTimer.serviced none 4294980000 hoverdue (by decide) (by decide) (by decide)
  have hgrid := (hpunctual.neither_drift_nor_stall hview hspared).1
  have hcoming := (hlate.neither_drift_nor_stall hview hspared).1
  refine ⟨_, _, hpunctual, hlate, ?_, hgrid.called, hcoming.coming, hcoming.near, hcoming.called⟩
  refine (hgrid.onGrid fun service hservice => ?_).trans (by decide)
  rw [List.mem_singleton.1 hservice]
  decide

end DriverHost
