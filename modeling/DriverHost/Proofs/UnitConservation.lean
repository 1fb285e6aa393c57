import DriverHost.Proofs.Crew
import DriverHost.Proofs.LockTurns

/-!
# Units of a semaphore are conserved

A task looks at the count of a semaphore and changes it in one turn.  So however many tasks give
units, wait for them and try to take them, and in whatever order they switch, the count is at
every switch the number of units that there are: those it began with and those that were given,
without those that were taken.

Main results:

- Inductive type `Semaphore.Change`: what a turn that ends a call does to the count.
- Structure `Semaphore.Balance`: the invariant, with the place of each waiting task.
- Theorem `Semaphore.Balance.leave`: every change of the count by a turn keeps it.
- Theorem `Semaphore.units_conserved`: what all tasks may rely on at every switch.
-/

namespace DriverHost

namespace Semaphore

variable {ε : Type}

/-! ## Calls -/

/-- How many operations of each kind a task has completed; of its attempts to take a unit without
waiting, only those that got one. -/
structure Dealings where
  ups : Nat := 0
  downs : Nat := 0
  tries : Nat := 0
deriving DecidableEq, Repr

/-- The dealings of a task that has waited for a unit and taken it. -/
def Dealings.withDown (own : Dealings) : Dealings :=
  { own with downs := own.downs + 1 }

/-- The dealings of a task that has tried to take a unit. -/
def Dealings.withTry (own : Dealings) (taken : Bool) : Dealings :=
  if taken then { own with tries := own.tries + 1 } else own

/-- A task that begins to take a unit, with its dealings. -/
def taking (own : Dealings) : Coroutine ε Semaphore Dealings :=
  down.bind fun _ => .done own.withDown

/-- A task that waits for a unit, with its dealings. -/
def waitingFor (own : Dealings) : Coroutine ε Semaphore Dealings :=
  waitUnit.bind fun _ => .done own.withDown

/-- The calls of a task: every operation, at any time. -/
inductive Call (own : Dealings) : Coroutine ε Semaphore Dealings → Prop
  | gives : Call own (up.bind fun _ => .done { own with ups := own.ups + 1 })
  | takes : Call own (taking own)
  | tries : Call own (tryDown.bind fun taken => .done (own.withTry taken))

/-- What a turn that ends a call does to the semaphore and to the dealings of its task. -/
inductive Change (semaphore : Semaphore) (own : Dealings) : Semaphore → Dealings → Prop
  | given : Change semaphore own semaphore.give { own with ups := own.ups + 1 }
  | taken (hsome : semaphore.count ≠ 0) :
      Change semaphore own { count := semaphore.count - 1 } own.withDown
  | tried (hsome : semaphore.count ≠ 0) :
      Change semaphore own { count := semaphore.count - 1 } (own.withTry true)
  | refused (hnone : semaphore.count = 0) : Change semaphore own semaphore (own.withTry false)

section Turns

variable (host : Host ε Semaphore) {machine : Machine ε Semaphore} {own : Dealings}
  {code : Coroutine ε Semaphore Dealings}

/-- A task that takes a unit, whether it begins to or has waited, takes one that there is and
waits on otherwise. -/
theorem turn_taking (hmay : machine.scheduler.mayLock = true)
    (hcode : code = taking own ∨ code = waitingFor own) :
    code.turn host machine =
      if machine.shared.count = 0 then .yielded (waitingFor own) machine
      else .returned own.withDown (machine.withShared { count := machine.shared.count - 1 }) := by
  rcases hcode with rfl | rfl
  · rw [taking, Coroutine.turn_bind, turn_down hmay]
    split <;> rfl
  · rw [waitingFor, Coroutine.turn_bind, turn_waitUnit]
    split <;> rfl

/-- A turn of a wait takes a unit, or leaves the semaphore alone and goes on waiting. -/
theorem turn_waitingFor (hmay : machine.scheduler.mayLock = true)
    (hcode : code = taking own ∨ code = waitingFor own) :
    (∃ semaphore next, Change machine.shared own semaphore next ∧
      code.turn host machine = .returned next (machine.withShared semaphore)) ∨
    code.turn host machine = .yielded (waitingFor own) machine := by
  rw [turn_taking host hmay hcode]
  by_cases hempty : machine.shared.count = 0
  · right
    rw [if_pos hempty]
  · left
    rw [if_neg hempty]
    exact ⟨_, _, .taken hempty, rfl⟩

/-- A turn of a new call changes the semaphore, or leaves it alone and its task waiting. -/
theorem turn_call (hmay : machine.scheduler.mayLock = true) (hcall : Call own code) :
    (∃ semaphore next, Change machine.shared own semaphore next ∧
      code.turn host machine = .returned next (machine.withShared semaphore)) ∨
    code.turn host machine = .yielded (waitingFor own) machine := by
  cases hcall with
  | takes => exact turn_waitingFor host hmay (Or.inl rfl)
  | gives =>
    left
    refine ⟨_, _, .given, ?_⟩
    rw [Coroutine.turn_bind, turn_up hmay]
    rfl
  | tries =>
    left
    rw [Coroutine.turn_bind, turn_tryDown hmay]
    by_cases hempty : machine.shared.count = 0
    · rw [if_pos hempty]
      exact ⟨_, _, .refused hempty, rfl⟩
    · rw [if_neg hempty]
      exact ⟨_, _, .tried hempty, rfl⟩

end Turns

/-! ## The invariant -/

/-- The units that a semaphore began with and those that tasks have given it. -/
noncomputable def unitsGiven (initial : UInt32) (crew : Crew ε Semaphore Dealings) : Nat :=
  initial.toNat + crew.total Dealings.ups

/-- At a switch the units that are counted and those that were taken are those that there were
at first and those that were given; every call in progress waits for a unit. -/
structure Balance (initial : UInt32) (crew : Crew ε Semaphore Dealings) : Prop where
  fewUps : crew.FewCount Dealings.ups
  fewDowns : crew.FewCount Dealings.downs
  fewTries : crew.FewCount Dealings.tries
  units : crew.shared.count.toNat + crew.total Dealings.downs + crew.total Dealings.tries =
    unitsGiven initial crew
  waits : ∀ task own rest, crew.activity task = .calling own rest → rest = waitingFor own

namespace Balance

variable {host : Host ε Semaphore} {initial : UInt32} {crew next : Crew ε Semaphore Dealings}
  {task : TaskId}

/-- A change of the count keeps the balance, one case for each kind of operation. -/
theorem leave (hbalance : Balance initial crew) {semaphore : Semaphore} {own : Dealings}
    (hchange : Change crew.shared (crew.own task) semaphore own)
    (hbelow : unitsGiven initial (crew.leave task semaphore (.idle own)) < 2 ^ 32) :
    Balance initial (crew.leave task semaphore (.idle own)) := by
  have hups := Crew.total_leave hbalance.fewUps task semaphore (.idle own)
  have hdowns := Crew.total_leave hbalance.fewDowns task semaphore (.idle own)
  have htries := Crew.total_leave hbalance.fewTries task semaphore (.idle own)
  have hunits := hbalance.units
  refine ⟨hbalance.fewUps.leave _ _ _, hbalance.fewDowns.leave _ _ _,
    hbalance.fewTries.leave _ _ _, ?_, Crew.calling_leave hbalance.waits _ Activity.calling_of_idle⟩
  simp only [unitsGiven, Activity.own, Crew.leave_shared] at *
  cases hchange with
  | given =>
    -- With the unit that is given, too, the units stay within a word.
    simp only at hups hdowns htries
    have hgiven : crew.shared.give.count.toNat = crew.shared.count.toNat + 1 := by
      rw [give, UInt32.toNat_add, UInt32.toNat_one]
      omega
    omega
  | taken hsome =>
    simp only [Dealings.withDown] at hups hdowns htries ⊢
    have hless := toNat_pred_add_one hsome
    omega
  | tried hsome =>
    simp only [Dealings.withTry, if_true] at hups hdowns htries ⊢
    have hless := toNat_pred_add_one hsome
    omega
  | refused hnone =>
    simp only [Dealings.withTry, Bool.false_eq_true, if_false] at hups hdowns htries ⊢
    omega

/-- A task that waits keeps the balance. -/
theorem leave_waiting (hbalance : Balance initial crew) :
    Balance initial (crew.leave task crew.shared
      (.calling (crew.own task) (waitingFor (crew.own task)))) := by
  have hsame : ∀ count : Dealings → Nat, (crew.leave task crew.shared
      (.calling (crew.own task) (waitingFor (crew.own task)))).total count = crew.total count := by
    intro count
    apply Crew.total_congr
    intro other
    rw [Crew.own_leave_same (by rfl)]
  refine ⟨hbalance.fewUps.leave _ _ _, hbalance.fewDowns.leave _ _ _,
    hbalance.fewTries.leave _ _ _, ?_, Crew.calling_leave hbalance.waits _ ?_⟩
  · rw [unitsGiven, hsame, hsame, hsame]
    exact hbalance.units
  · rintro own rest hcalling
    cases hcalling
    rfl

/-- A turn changes the semaphore or leaves it alone and its task waiting; it meets no fault. -/
theorem turn_cases (host : Host ε Semaphore) (hbalance : Balance initial crew)
    {code : Coroutine ε Semaphore Dealings} {machine : Machine ε Semaphore}
    (hoffers : (crew.activity task).Offers Call code) (hshared : machine.shared = crew.shared)
    (hmay : machine.scheduler.mayLock = true) :
    (∃ semaphore own, Change crew.shared (crew.own task) semaphore own ∧
      code.turn host machine = .returned own (machine.withShared semaphore)) ∨
    code.turn host machine = .yielded (waitingFor (crew.own task)) machine := by
  rw [← hshared]
  cases hactivity : crew.activity task with
  | calling own rest =>
    have hown : crew.own task = own := by rw [Crew.own, hactivity, Activity.own]
    have hwaits := hbalance.waits task own rest hactivity
    rw [hactivity] at hoffers
    cases hoffers
    rw [hown]
    exact turn_waitingFor host hmay (Or.inr hwaits)
  | idle own =>
    have hown : crew.own task = own := by rw [Crew.own, hactivity, Activity.own]
    rw [hactivity] at hoffers
    rw [hown]
    cases hoffers with
    | begins hcall => exact turn_call host hmay hcall

/-- Nothing that is done with a semaphore meets a fault. -/
theorem not_mayFail (hbalance : Balance initial crew) : ¬ crew.MayFail host Call := by
  rintro ⟨task, code, machine, cause, last, hoffers, hshared, hmay, hturn⟩
  rcases hbalance.turn_cases host hoffers hshared hmay with ⟨semaphore, own, -, hreturns⟩ | hyields
  · rw [hreturns] at hturn
    cases hturn
  · rw [hyields] at hturn
    cases hturn

/-- Every turn that keeps the units within a word keeps the balance. -/
theorem step (hbalance : Balance initial crew) (hstep : Crew.Step host Call crew next)
    (hbelow : unitsGiven initial next < 2 ^ 32) : Balance initial next := by
  cases hstep with
  | returned hoffers hshared hmay hturn =>
    rcases hbalance.turn_cases host hoffers hshared hmay with
      ⟨semaphore, own, hchange, hreturns⟩ | hyields
    · rw [hreturns] at hturn
      cases hturn
      exact hbalance.leave hchange hbelow
    · rw [hyields] at hturn
      cases hturn
  | yielded hoffers hshared hmay hturn =>
    rcases hbalance.turn_cases host hoffers hshared hmay with
      ⟨semaphore, own, -, hreturns⟩ | hyields
    · rw [hreturns] at hturn
      cases hturn
    · rw [hyields] at hturn
      cases hturn
      rw [hshared]
      exact hbalance.leave_waiting

end Balance

theorem unitsGiven_start (initial : UInt32) :
    unitsGiven initial (Crew.start { count := initial } {} : Crew ε Semaphore Dealings) =
      initial.toNat := by
  rw [unitsGiven, Crew.total_start Dealings.ups _ rfl, Nat.add_zero]

/-- A semaphore that nobody has touched is balanced. -/
theorem balance_start (initial : UInt32) :
    Balance initial (Crew.start { count := initial } {} : Crew ε Semaphore Dealings) := by
  refine ⟨Crew.fewCount_start _ rfl, Crew.fewCount_start _ rfl, Crew.fewCount_start _ rfl, ?_,
    ?_⟩
  · rw [unitsGiven_start, Crew.total_start Dealings.downs _ rfl,
      Crew.total_start Dealings.tries _ rfl]
    rfl
  · intro task own rest hcalling
    cases hcalling

/-! ## What tasks may rely on -/

/-- The count is what the operations that are complete leave of the units, as an exact number. -/
structure CountExact (initial : UInt32) (crew : Crew ε Semaphore Dealings) : Prop where
  /-- Only finitely many tasks have completed an operation, so their sums are ones. -/
  few : {task | crew.own task ≠ {}}.Finite
  count : (crew.shared.count.toNat : Int) =
    initial.toNat + (∑ᶠ task, (crew.own task).ups : Nat) - (∑ᶠ task, (crew.own task).downs : Nat) -
      (∑ᶠ task, (crew.own task).tries : Nat)

/-- What the next turn of each operation does. -/
structure TurnsExact (host : Host ε Semaphore) (crew : Crew ε Semaphore Dealings) : Prop where
  /-- A call that was interrupted waits for a unit. -/
  waits : ∀ task own rest, crew.activity task = .calling own rest → rest = waitingFor own
  /-- Who waits for a unit, or begins to, takes nothing while there is none. -/
  waitsOn : ∀ own code machine, code = taking own ∨ code = waitingFor own →
    machine.shared = crew.shared → machine.scheduler.mayLock = true → crew.shared.count = 0 →
    code.turn host machine = .yielded (waitingFor own) machine
  /-- It returns with one unit of those that there were. -/
  takesOne : ∀ own code machine, code = taking own ∨ code = waitingFor own →
    machine.shared = crew.shared → machine.scheduler.mayLock = true → crew.shared.count ≠ 0 →
    ∃ left : Semaphore, left.count.toNat + 1 = crew.shared.count.toNat ∧
      code.turn host machine = .returned own.withDown (machine.withShared left)
  /-- Trying to take a unit returns at once without one if there is none. -/
  refused : ∀ machine, machine.shared = crew.shared → machine.scheduler.mayLock = true →
    crew.shared.count = 0 → tryDown.turn host machine = .returned false machine
  /-- It returns at once with one of the units that there were. -/
  tried : ∀ machine, machine.shared = crew.shared → machine.scheduler.mayLock = true →
    crew.shared.count ≠ 0 →
    ∃ left : Semaphore, left.count.toNat + 1 = crew.shared.count.toNat ∧
      tryDown.turn host machine = .returned true (machine.withShared left)

/-- From the balance the count of the semaphore can be read off. -/
theorem Balance.countExact {initial : UInt32} {crew : Crew ε Semaphore Dealings}
    (hbalance : Balance initial crew) : CountExact initial crew := by
  constructor
  · refine ((hbalance.fewUps.union hbalance.fewDowns).union hbalance.fewTries).subset ?_
    intro task hsome
    by_contra hnone
    simp only [Set.mem_union, Function.mem_support, not_or, not_not] at hnone
    obtain ⟨⟨hups, hdowns⟩, htries⟩ := hnone
    apply hsome
    cases hown : crew.own task
    simp only [hown] at hups hdowns htries
    rw [hups, hdowns, htries]
  · have hunits := hbalance.units
    simp only [unitsGiven, Crew.total] at hunits
    omega

/-- From the balance it follows what a turn of a waiting or trying task comes to. -/
theorem Balance.turnsExact {initial : UInt32} {crew : Crew ε Semaphore Dealings}
    (hbalance : Balance initial crew) (host : Host ε Semaphore) : TurnsExact host crew := by
  refine ⟨hbalance.waits, ?waitsOn, ?takesOne, ?refused, ?tried⟩
  case waitsOn =>
    intro own code machine hcode hshared hmay hempty
    rw [turn_taking host hmay hcode, hshared, if_pos hempty]
  case takesOne =>
    intro own code machine hcode hshared hmay hsome
    refine ⟨_, toNat_pred_add_one hsome, ?_⟩
    rw [turn_taking host hmay hcode, hshared, if_neg hsome]
  case refused =>
    intro machine hshared hmay hempty
    rw [turn_tryDown hmay, hshared, if_pos hempty]
  case tried =>
    intro machine hshared hmay hsome
    refine ⟨_, toNat_pred_add_one hsome, ?_⟩
    rw [turn_tryDown hmay, hshared, if_neg hsome]

/-- When any number of tasks give units, wait for them and try to take them, switching in any
order, and the units that the semaphore began with and those that were given fit a word, the
count is at every switch exactly the units that are left, a unit is taken only where there is
one, and no turn meets a fault. -/
theorem units_conserved (host : Host ε Semaphore) (initial : UInt32)
    {crew : Crew ε Semaphore Dealings}
    (hreach : Crew.ReachesWithin host Call
      (fun crew => initial.toNat + ∑ᶠ task, (crew.own task).ups < 2 ^ 32)
      (Crew.start { count := initial } {}) crew) :
    CountExact initial crew ∧ TurnsExact host crew ∧ ¬ crew.MayFail host Call := by
  have hbegin : unitsGiven initial
      (Crew.start { count := initial } {} : Crew ε Semaphore Dealings) < 2 ^ 32 := by
    rw [unitsGiven_start]
    exact initial.toNat_lt
  obtain ⟨hbalance, -⟩ := hreach.invariant hbegin (balance_start initial)
    fun crew next hbalance _ hstep hbelow => hbalance.step hstep hbelow
  exact ⟨hbalance.countExact, hbalance.turnsExact host, hbalance.not_mayFail⟩

/-- One task has taken the only unit, another one waits for it, and the boot context has given a
second unit that the waiting task has not got to yet. -/
theorem units_conserved_of_waiter :
    ∃ crew : Crew Empty Semaphore Dealings,
      Crew.ReachesWithin (Host.still Empty Semaphore) Call
        (fun crew => (1 : UInt32).toNat + ∑ᶠ task, (crew.own task).ups < 2 ^ 32)
        (.start { count := 1 } {}) crew ∧
      crew.own 1 = { downs := 1 } ∧ crew.activity 2 = .calling {} (waitingFor {}) ∧
      crew.own bootTask = { ups := 1 } ∧ CountExact 1 crew := by
  let begun : Crew Empty Semaphore Dealings := .start { count := 1 } {}
  let taken := begun.leave 1 { count := 0 } (.idle { downs := 1 })
  let queued := taken.leave 2 { count := 0 } (.calling {} (waitingFor {}))
  let given := queued.leave bootTask { count := 1 } (.idle { ups := 1 })
  have hfew : begun.FewCount Dealings.ups := Crew.fewCount_start _ rfl
  have hbegun : begun.total Dealings.ups = 0 := Crew.total_start Dealings.ups _ rfl
  have htaken : taken.total Dealings.ups + 0 = begun.total Dealings.ups + 0 :=
    Crew.total_leave hfew 1 _ _
  have hqueued : queued.total Dealings.ups + 0 = taken.total Dealings.ups + 0 :=
    Crew.total_leave (hfew.leave 1 _ _) 2 _ _
  have hgiven : given.total Dealings.ups + 0 = queued.total Dealings.ups + 1 :=
    Crew.total_leave ((hfew.leave 1 _ _).leave 2 _ _) bootTask _ _
  have hbelow : (1 : UInt32).toNat + taken.total Dealings.ups < 2 ^ 32 ∧
      (1 : UInt32).toNat + queued.total Dealings.ups < 2 ^ 32 ∧
      (1 : UInt32).toNat + given.total Dealings.ups < 2 ^ 32 := by
    rw [UInt32.toNat_one]
    omega
  have hturnTakes : (taking {}).turn (Host.still Empty Semaphore) { shared := { count := 1 } } =
      .returned { downs := 1 } { shared := { count := 0 } } := rfl
  have hturnQueues : (taking {}).turn (Host.still Empty Semaphore) { shared := { count := 0 } } =
      .yielded (waitingFor {}) { shared := { count := 0 } } := rfl
  have hturnGives : (up.bind fun _ => .done ({ ups := 1 } : Dealings)).turn
      (Host.still Empty Semaphore) { shared := { count := 0 } } =
        .returned { ups := 1 } { shared := { count := 1 } } := rfl
  have htakes : Crew.Step (Host.still Empty Semaphore) Call begun taken :=
    .returned (.begins .takes) rfl rfl hturnTakes
  have hqueues : Crew.Step (Host.still Empty Semaphore) Call taken queued :=
    .yielded (.begins .takes) rfl rfl hturnQueues
  have hgives : Crew.Step (Host.still Empty Semaphore) Call queued given :=
    .returned (.begins .gives) rfl rfl hturnGives
  have hreach : Crew.ReachesWithin (Host.still Empty Semaphore) Call
      (fun crew => (1 : UInt32).toNat + ∑ᶠ task, (crew.own task).ups < 2 ^ 32)
      (.start { count := 1 } {}) given :=
    ((Relation.ReflTransGen.single ⟨htakes, hbelow.1⟩).tail ⟨hqueues, hbelow.2.1⟩).tail
      ⟨hgives, hbelow.2.2⟩
  exact ⟨given, hreach, rfl, rfl, rfl, (units_conserved _ 1 hreach).1⟩

end Semaphore

end DriverHost
