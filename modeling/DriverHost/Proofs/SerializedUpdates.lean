import DriverHost.Proofs.Crew
import DriverHost.Proofs.LockTurns

/-!
# Updates behind a mutex are not lost

An update reads a counter, gives the processor up any number of times, and stores what it read
and an increment.  When every update is made by a task that has taken the mutex of the counter
and not given it back, no other task comes between reading and storing, so the counter is at
every switch what all sections have added to it.

A store is seen at once, while its section may still give the processor up before it ends.  What
the section in progress has stored is therefore in the counter as well.

Main results:

- Inductive type `GuardedCounter.InProgress`: where a call that was interrupted is.
- Structure `GuardedCounter.Serial`: the invariant.
- Theorem `GuardedCounter.Serial.leave`: what every turn does to the counter keeps it.
- Theorem `GuardedCounter.updates_serialized`: what all tasks may rely on at every switch.
-/

namespace DriverHost

/-- A counter and the mutex that guards it. -/
structure GuardedCounter (α : Type) where
  mutex : Mutex := {}
  counter : α

namespace GuardedCounter

variable {ε α : Type}

def mutexView : Coroutine.View (GuardedCounter α) Mutex where
  get guarded := guarded.mutex
  set mutex guarded := { guarded with mutex }

theorem lawful_mutexView : (mutexView : Coroutine.View (GuardedCounter α) Mutex).Lawful :=
  ⟨fun _ => rfl, fun _ _ => rfl, fun _ _ _ => rfl⟩

/-- The value of the counter. -/
def read : Action (GuardedCounter α) α := fun guarded => .ok guarded.counter guarded

/-- Give the counter a value. -/
def store (value : α) : Action (GuardedCounter α) Unit := fun guarded =>
  .ok () { guarded with counter := value }

/-! ## Calls -/

/-- What a task has added to the counter. -/
structure Account (α : Type) where
  /-- The task has taken the mutex and not given it back. -/
  inside : Bool := false
  /-- The increments of the sections that it has completed. -/
  completed : α
  /-- The increments that it has stored in the section it is in. -/
  stored : α

section Calls

variable [AddCommMonoid α]

/-- The account of a task that has done nothing yet. -/
def Account.opened : Account α where
  completed := 0
  stored := 0

/-- The account of a task that begins a section. -/
def Account.entered (own : Account α) : Account α :=
  { own with inside := true, stored := 0 }

/-- The account of a task that has stored an increment. -/
def Account.withStored (own : Account α) (amount : α) : Account α :=
  { own with stored := own.stored + amount }

/-- The account of a task that ends its section. -/
def Account.left (own : Account α) : Account α where
  completed := own.completed + own.stored
  stored := 0

/-- Take the mutex. -/
def entering (own : Account α) : Coroutine ε (GuardedCounter α) (Account α) :=
  (Mutex.lock.zoom mutexView).bind fun _ => .done own.entered

/-- What is left of taking the mutex when some other task has it. -/
def waiting (own : Account α) : Coroutine ε (GuardedCounter α) (Account α) :=
  (Mutex.waitFree.zoom mutexView).bind fun _ => .done own.entered

/-- Store a value that was read and an increment. -/
def storing (own : Account α) (value amount : α) : Coroutine ε (GuardedCounter α) (Account α) :=
  (Coroutine.act (store (value + amount))).bind fun _ => .done (own.withStored amount)

/-- Read the counter, give the processor up a number of times, and store what was read and an
increment. -/
def updating (own : Account α) (amount : α) (yields : Nat) :
    Coroutine ε (GuardedCounter α) (Account α) :=
  (Coroutine.act read).bind fun value => (storing own value amount).pauses yields

/-- Give the mutex back. -/
def leaving (own : Account α) : Coroutine ε (GuardedCounter α) (Account α) :=
  (Mutex.unlock.zoom mutexView).bind fun _ => .done own.left

/-- The calls of a task: it gives the processor up at any time, takes the mutex when it does not
have it, and updates the counter and gives the mutex back when it does. -/
inductive Call (own : Account α) : Coroutine ε (GuardedCounter α) (Account α) → Prop
  | yields : Call own (.pause (.done own))
  | enters (houtside : own.inside = false) : Call own (entering own)
  | updates (hinside : own.inside = true) (amount : α) (yields : Nat) :
      Call own (updating own amount yields)
  | leaves (hinside : own.inside = true) : Call own (leaving own)

/-- Where a task is in a call that was interrupted.  An update that has read the counter still
finds there what it read. -/
inductive InProgress (counter : α) (own : Account α) :
    Coroutine ε (GuardedCounter α) (Account α) → Prop
  | yielded : InProgress counter own (.done own)
  | waits (houtside : own.inside = false) : InProgress counter own (waiting own)
  | updates (hinside : own.inside = true) (amount : α) (yields : Nat) :
      InProgress counter own ((storing own counter amount).pauses yields)

/-- What a turn that ends a call does to the counter, its mutex and the account of its task. -/
inductive Change (guarded : GuardedCounter α) (own : Account α) :
    GuardedCounter α → Account α → Prop
  | nothing : Change guarded own guarded own
  | entered (hfree : guarded.mutex.word = 0) :
      Change guarded own { guarded with mutex := { word := 1 } } own.entered
  | stored (hinside : own.inside = true) (amount : α) :
      Change guarded own { guarded with counter := guarded.counter + amount }
        (own.withStored amount)
  | left (hinside : own.inside = true) :
      Change guarded own { guarded with mutex := .unlocked } own.left

/-- A task outside of a section does not depend on the counter. -/
theorem InProgress.of_outside {counter other : α} {own : Account α}
    {code : Coroutine ε (GuardedCounter α) (Account α)} (houtside : own.inside = false)
    (hprogress : InProgress counter own code) : InProgress other own code := by
  cases hprogress with
  | yielded => exact .yielded
  | waits => exact .waits houtside
  | updates hinside amount yields =>
    rw [houtside] at hinside
    cases hinside

section Turns

variable (host : Host ε (GuardedCounter α)) {machine : Machine ε (GuardedCounter α)}
  {own : Account α} {code : Coroutine ε (GuardedCounter α) (Account α)}

/-- A task that takes the mutex, whether it begins to or has waited, takes it if it is free. -/
theorem turn_entering (hmay : machine.scheduler.mayLock = true)
    (hcode : code = entering own ∨ code = waiting own) :
    code.turn host machine =
      if machine.shared.mutex.isLocked then .yielded (waiting own) machine
      else .returned own.entered
        (machine.withShared { machine.shared with mutex := { word := 1 } }) := by
  have hpart : (machine.part mutexView).scheduler.mayLock = true := hmay
  have hmutex : (machine.part mutexView).shared = machine.shared.mutex := rfl
  rcases hcode with rfl | rfl
  · rw [entering, Coroutine.turn_bind, Coroutine.turn_zoom lawful_mutexView Mutex.within_lock,
      Mutex.turn_lock hpart, hmutex]
    split <;> rfl
  · rw [waiting, Coroutine.turn_bind, Coroutine.turn_zoom lawful_mutexView Mutex.within_waitFree,
      Mutex.turn_waitFree, hmutex]
    split <;> rfl

/-- A section ends without a wait, and with it the mutex is free. -/
theorem turn_leaving (hmay : machine.scheduler.mayLock = true) :
    (leaving own).turn host machine =
      .returned own.left (machine.withShared { machine.shared with mutex := .unlocked }) := by
  have hpart : (machine.part mutexView).scheduler.mayLock = true := hmay
  rw [leaving, Coroutine.turn_bind, Coroutine.turn_zoom lawful_mutexView Mutex.within_unlock,
    Mutex.turn_unlock hpart]
  rfl

/-- An update that has read the counter goes on waiting, or stores what it read and its
increment. -/
theorem turn_storing (value amount : α) (yields : Nat) :
    ((storing own value amount).pauses yields).turn host machine =
      match yields with
      | 0 => .returned (own.withStored amount)
          (machine.withShared { machine.shared with counter := value + amount })
      | yields + 1 => .yielded ((storing own value amount).pauses yields) machine := by
  rw [Coroutine.turn_pauses]
  cases yields with
  | zero =>
    simp only
    rw [storing, Coroutine.turn_bind, Coroutine.turn_act]
    rfl
  | succ yields => rfl

/-- An update reads the counter in its first turn. -/
theorem turn_updating (amount : α) (yields : Nat) :
    (updating own amount yields).turn host machine =
      ((storing own machine.shared.counter amount).pauses yields).turn host machine := by
  rw [updating, Coroutine.turn_bind, Coroutine.turn_act]
  rfl

/-- The task's turn changes the counter in one of the ways there are, or leaves it alone with the
task in the middle of its call. -/
def GetsOn (own : Account α) (machine : Machine ε (GuardedCounter α)) :
    Turn ε (GuardedCounter α) (Account α) → Prop
  | .returned next last => ∃ guarded, Change machine.shared own guarded next ∧
      last = machine.withShared guarded
  | .yielded rest last => InProgress machine.shared.counter own rest ∧ last = machine
  | .failed _ _ => False

/-- A turn of a task that enters or waits gets it on, or finds the mutex taken and changes nothing.
-/
theorem getsOn_entering (hmay : machine.scheduler.mayLock = true)
    (hcode : code = entering own ∨ code = waiting own) (houtside : own.inside = false) :
    GetsOn own machine (code.turn host machine) := by
  rw [turn_entering host hmay hcode]
  cases hlocked : machine.shared.mutex.isLocked with
  | true => exact ⟨.waits houtside, rfl⟩
  | false =>
    have hfree : machine.shared.mutex.word = 0 := by
      simpa [Mutex.isLocked] using hlocked
    exact ⟨_, .entered hfree, rfl⟩

/-- A turn of a task that has read the counter gets it on to its store, or changes nothing. -/
theorem getsOn_storing (hinside : own.inside = true) (amount : α) (yields : Nat) :
    GetsOn own machine
      (((storing own machine.shared.counter amount).pauses yields).turn host machine) := by
  rw [turn_storing]
  cases yields with
  | zero => exact ⟨_, .stored hinside amount, rfl⟩
  | succ yields => exact ⟨.updates hinside amount yields, rfl⟩

/-- So does every new call. -/
theorem getsOn_call (hmay : machine.scheduler.mayLock = true) (hcall : Call own code) :
    GetsOn own machine (code.turn host machine) := by
  cases hcall with
  | yields => exact ⟨.yielded, rfl⟩
  | enters houtside => exact getsOn_entering host hmay (Or.inl rfl) houtside
  | updates hinside amount yields =>
    rw [turn_updating]
    exact getsOn_storing host hinside amount yields
  | leaves hinside =>
    rw [turn_leaving host hmay]
    exact ⟨_, .left hinside, rfl⟩

/-- So does every call that was interrupted. -/
theorem getsOn_inProgress (hmay : machine.scheduler.mayLock = true)
    (hprogress : InProgress machine.shared.counter own code) :
    GetsOn own machine (code.turn host machine) := by
  cases hprogress with
  | yielded => exact ⟨_, .nothing, rfl⟩
  | waits houtside => exact getsOn_entering host hmay (Or.inr rfl) houtside
  | updates hinside amount yields => exact getsOn_storing host hinside amount yields

end Turns

end Calls

/-! ## The invariant -/

section Invariant

variable [AddCancelCommMonoid α]

/-- What the counter was at first, with what the sections that are complete have added. -/
noncomputable def completedSum (initial : α) (accounts : TaskId → Account α) : α :=
  initial + ∑ᶠ task, (accounts task).completed

/-- Nobody is in a section, and the counter has what all sections have added. -/
structure Free (initial : α) (guarded : GuardedCounter α) (accounts : TaskId → Account α) :
    Prop where
  word : guarded.mutex.word = 0
  outside : ∀ task, (accounts task).inside = false
  counter : guarded.counter = completedSum initial accounts

/-- One task is in a section, and the counter has what it has stored there as well. -/
structure Owned (initial : α) (guarded : GuardedCounter α) (accounts : TaskId → Account α)
    (owner : TaskId) : Prop where
  word : guarded.mutex.word = 1
  inside : (accounts owner).inside = true
  outside : ∀ task ≠ owner, (accounts task).inside = false
  counter : guarded.counter = completedSum initial accounts + (accounts owner).stored

/-- At a switch the mutex is free or owned, and every call that was interrupted is at one of its
places. -/
structure Serial (initial : α) (crew : Crew ε (GuardedCounter α) (Account α)) : Prop where
  few : (Function.support fun task => (crew.own task).completed).Finite
  held : Free initial crew.shared crew.own ∨ ∃ owner, Owned initial crew.shared crew.own owner
  calling : ∀ task own rest, crew.activity task = .calling own rest →
    InProgress crew.shared.counter own rest

namespace Serial

variable {host : Host ε (GuardedCounter α)} {initial : α}
  {crew next : Crew ε (GuardedCounter α) (Account α)} {task : TaskId}
  {guarded : GuardedCounter α} {activity : Activity ε (GuardedCounter α) (Account α)}

/-- A task in a section is the owner. -/
theorem owned (hserial : Serial initial crew) (hinside : (crew.own task).inside = true) :
    Owned initial crew.shared crew.own task := by
  rcases hserial.held with hfree | ⟨owner, howned⟩
  · rw [hfree.outside task] at hinside
    cases hinside
  · by_cases htask : task = owner
    · rw [htask]
      exact howned
    · rw [howned.outside task htask] at hinside
      cases hinside

/-- A mutex whose word is zero is free. -/
theorem free (hserial : Serial initial crew) (hword : crew.shared.mutex.word = 0) :
    Free initial crew.shared crew.own := by
  rcases hserial.held with hfree | ⟨owner, howned⟩
  · exact hfree
  · rw [howned.word] at hword
    cases hword

/-- With nobody in a section, the mutex is free and the counter has what all sections have added.
-/
theorem free_of_nobody (hserial : Serial initial crew)
    (hnobody : ∀ task, (crew.own task).inside = false) : Free initial crew.shared crew.own := by
  rcases hserial.held with hfree | ⟨owner, howned⟩
  · exact hfree
  · have hinside := howned.inside
    rw [hnobody owner] at hinside
    cases hinside

/-- A call that was interrupted stays at its place: either the counter is what it was, or only
the task that had the turn could have read it. -/
theorem calling_leave (hserial : Serial initial crew)
    (hactivity : ∀ own rest, activity = .calling own rest → InProgress guarded.counter own rest)
    (hcounter : guarded.counter = crew.shared.counter ∨
      ∀ other ≠ task, (crew.own other).inside = false) :
    ∀ other own rest, (crew.leave task guarded activity).activity other = .calling own rest →
      InProgress guarded.counter own rest := by
  intro other own rest hcalling
  rw [Crew.leave_activity] at hcalling
  by_cases hother : other = task
  · rw [if_pos hother] at hcalling
    exact hactivity own rest hcalling
  · rw [if_neg hother] at hcalling
    have hprogress := hserial.calling other own rest hcalling
    rcases hcounter with hsame | houtside
    · rw [hsame]
      exact hprogress
    · have hown : crew.own other = own := by rw [Crew.own, hcalling, Activity.own]
      have hothers := houtside other hother
      rw [hown] at hothers
      exact hprogress.of_outside hothers

/-- A task whose account stays as it is keeps the invariant where it leaves the counter and its
mutex alone. -/
theorem leave_same (hserial : Serial initial crew) (hown : activity.own = crew.own task)
    (hactivity : ∀ own rest, activity = .calling own rest →
      InProgress crew.shared.counter own rest) :
    Serial initial (crew.leave task crew.shared activity) := by
  refine ⟨?few, ?held, hserial.calling_leave hactivity (Or.inl rfl)⟩
  case few =>
    rw [Crew.own_leave_same hown]
    exact hserial.few
  case held =>
    rw [Crew.own_leave_same hown]
    exact hserial.held

/-- While no other task is in a section, a task that is in one owns the mutex, whatever it
stores. -/
theorem owned_leave (hserial : Serial initial crew) {own : Account α}
    (houtside : ∀ other ≠ task, (crew.own other).inside = false)
    (hword : guarded.mutex.word = 1) (hinside : own.inside = true)
    (hcompleted : own.completed = (crew.own task).completed)
    (hcounter : guarded.counter = completedSum initial crew.own + own.stored) :
    Owned initial guarded (crew.leave task guarded (.idle own)).own task := by
  have htask : (crew.leave task guarded (.idle own)).own task = own := by
    rw [Crew.leave_own, if_pos rfl, Activity.own]
  have hsum := Crew.finsum_leave hserial.few task guarded (.idle own)
  rw [Activity.own, hcompleted] at hsum
  refine ⟨hword, ?inside, ?outside, ?counter⟩
  case inside =>
    rw [htask]
    exact hinside
  case outside =>
    intro other hother
    rw [Crew.leave_own, if_neg hother]
    exact houtside other hother
  case counter => rw [htask, completedSum, add_right_cancel hsum, hcounter, completedSum]

/-- When the owner ends its section, the counter has what all sections have added. -/
theorem free_leave (hserial : Serial initial crew) (hinside : (crew.own task).inside = true) :
    Free initial { crew.shared with mutex := .unlocked }
      (crew.leave task guarded (.idle (crew.own task).left)).own := by
  have howned := hserial.owned hinside
  have hsum := Crew.finsum_leave hserial.few task guarded (.idle (crew.own task).left)
  refine ⟨rfl, ?outside, ?counter⟩
  case outside =>
    intro other
    rw [Crew.leave_own]
    by_cases hother : other = task
    · rw [if_pos hother]
      rfl
    · rw [if_neg hother]
      exact howned.outside other hother
  case counter =>
    have hadds : (crew.own task).left.completed =
        (crew.own task).completed + (crew.own task).stored := rfl
    rw [Activity.own, hadds, ← add_assoc, add_right_comm] at hsum
    rw [completedSum, add_right_cancel hsum, ← add_assoc]
    exact howned.counter

/-- A change of the counter or its mutex keeps the invariant, one case for each kind. -/
theorem leave (hserial : Serial initial crew) {own : Account α}
    (hchange : Change crew.shared (crew.own task) guarded own) :
    Serial initial (crew.leave task guarded (.idle own)) := by
  have hfew := Crew.support_leave_finite hserial.few task guarded (.idle own)
  cases hchange with
  | nothing => exact hserial.leave_same rfl Activity.calling_of_idle
  | entered hfree =>
    have hnobody := hserial.free hfree
    have hcounter : crew.shared.counter =
        completedSum initial crew.own + (crew.own task).entered.stored := by
      rw [Account.entered, add_zero]
      exact hnobody.counter
    have howned : Owned initial { crew.shared with mutex := { word := 1 } } (crew.leave task
        { crew.shared with mutex := { word := 1 } } (.idle (crew.own task).entered)).own task :=
      hserial.owned_leave (fun other _ => hnobody.outside other) rfl rfl rfl hcounter
    exact ⟨hfew, Or.inr ⟨task, howned⟩,
      hserial.calling_leave Activity.calling_of_idle (Or.inl rfl)⟩
  | stored hinside amount =>
    have howned := hserial.owned hinside
    have hcounter : crew.shared.counter + amount =
        completedSum initial crew.own + ((crew.own task).withStored amount).stored := by
      rw [howned.counter, add_assoc, Account.withStored]
    exact ⟨hfew, Or.inr ⟨task, hserial.owned_leave howned.outside howned.word hinside rfl hcounter⟩,
      hserial.calling_leave Activity.calling_of_idle (Or.inr howned.outside)⟩
  | left hinside =>
    exact ⟨hfew, Or.inl (hserial.free_leave hinside),
      hserial.calling_leave Activity.calling_of_idle (Or.inl rfl)⟩

/-- Every turn of a task gets it on. -/
theorem getsOn (host : Host ε (GuardedCounter α)) (hserial : Serial initial crew)
    {code : Coroutine ε (GuardedCounter α) (Account α)} {machine : Machine ε (GuardedCounter α)}
    (hoffers : (crew.activity task).Offers Call code) (hshared : machine.shared = crew.shared)
    (hmay : machine.scheduler.mayLock = true) :
    GetsOn (crew.own task) machine (code.turn host machine) := by
  cases hactivity : crew.activity task with
  | calling own rest =>
    have hown : crew.own task = own := by rw [Crew.own, hactivity, Activity.own]
    have hprogress := hserial.calling task own rest hactivity
    rw [hactivity] at hoffers
    cases hoffers
    rw [hown]
    rw [← hshared] at hprogress
    exact getsOn_inProgress host hmay hprogress
  | idle own =>
    have hown : crew.own task = own := by rw [Crew.own, hactivity, Activity.own]
    rw [hactivity] at hoffers
    rw [hown]
    cases hoffers with
    | begins hcall => exact getsOn_call host hmay hcall

/-- No turn meets a fault: whoever gives the mutex back has it. -/
theorem not_mayFail (hserial : Serial initial crew) : ¬ crew.MayFail host Call := by
  rintro ⟨task, code, machine, cause, last, hoffers, hshared, hmay, hturn⟩
  have hgetsOn := hserial.getsOn host hoffers hshared hmay
  rw [hturn] at hgetsOn
  exact hgetsOn

/-- Every turn keeps the invariant. -/
theorem step (hserial : Serial initial crew) (hstep : Crew.Step host Call crew next) :
    Serial initial next := by
  cases hstep with
  | returned hoffers hshared hmay hturn =>
    have hgetsOn := hserial.getsOn host hoffers hshared hmay
    rw [hturn] at hgetsOn
    obtain ⟨guarded, hchange, rfl⟩ := hgetsOn
    rw [hshared] at hchange
    exact hserial.leave hchange
  | yielded hoffers hshared hmay hturn =>
    have hgetsOn := hserial.getsOn host hoffers hshared hmay
    rw [hturn] at hgetsOn
    obtain ⟨hprogress, rfl⟩ := hgetsOn
    rw [hshared] at hprogress ⊢
    refine hserial.leave_same rfl ?_
    rintro own rest hcalling
    cases hcalling
    exact hprogress

end Serial

/-- At the start nobody is in a section and nothing has been added. -/
theorem serial_start (initial : α) :
    Serial initial (Crew.start { counter := initial } .opened : Crew ε _ (Account α)) := by
  have hnothing : ∀ task, ((Crew.start { counter := initial } .opened :
      Crew ε (GuardedCounter α) (Account α)).own task).completed = 0 := fun _ => rfl
  refine ⟨?few, Or.inl ⟨rfl, fun _ => rfl, ?counter⟩, ?calling⟩
  case few =>
    rw [Function.support_eq_empty_iff.2 (funext hnothing)]
    exact Set.finite_empty
  case counter =>
    rw [completedSum, finsum_eq_zero_of_forall_eq_zero hnothing, add_zero]
    rfl
  case calling =>
    intro task own rest hcalling
    cases hcalling

/-! ## What tasks may rely on -/

/-- Who is in a section at a switch, and what the counter has. -/
structure Serialized (initial : α) (crew : Crew ε (GuardedCounter α) (Account α)) : Prop where
  /-- Only finitely many tasks have completed something, so their sum is one. -/
  few : {task | (crew.own task).completed ≠ 0}.Finite
  /-- At most one task is in a section. -/
  alone : ∀ task other, (crew.own task).inside = true → (crew.own other).inside = true →
    task = other
  locked : crew.shared.mutex.word = 1 ↔ ∃ task, (crew.own task).inside = true
  unlocked : crew.shared.mutex.word = 0 ↔ ∀ task, (crew.own task).inside = false
  /-- When nobody is in a section, the counter has what all sections have added. -/
  whenFree : (∀ task, (crew.own task).inside = false) →
    crew.shared.counter = initial + ∑ᶠ task, (crew.own task).completed
  /-- When a task is in a section, it has what that task has stored there as well. -/
  whenOwned : ∀ owner, (crew.own owner).inside = true → crew.shared.counter =
    initial + ∑ᶠ task, (crew.own task).completed + (crew.own owner).stored

/-- The invariant says of a switch all that is promised there. -/
theorem Serial.serialized {initial : α} {crew : Crew ε (GuardedCounter α) (Account α)}
    (hserial : Serial initial crew) : Serialized initial crew := by
  have howned : ∀ task, (crew.own task).inside = true → Owned initial crew.shared crew.own task :=
    fun task => hserial.owned
  refine ⟨hserial.few, ?alone, ?locked, ?unlocked, ?whenFree, ?whenOwned⟩
  case alone =>
    intro task other htask hother
    by_contra hne
    rw [(howned other hother).outside task hne] at htask
    cases htask
  case locked =>
    constructor
    · intro hword
      rcases hserial.held with hfree | ⟨owner, hown⟩
      · rw [hfree.word] at hword
        cases hword
      · exact ⟨owner, hown.inside⟩
    · rintro ⟨task, hinside⟩
      exact (howned task hinside).word
  case unlocked =>
    constructor
    · intro hword
      exact (hserial.free hword).outside
    · intro hnobody
      exact (hserial.free_of_nobody hnobody).word
  case whenFree =>
    intro hnobody
    exact (hserial.free_of_nobody hnobody).counter
  case whenOwned =>
    intro owner hinside
    exact (howned owner hinside).counter

/-- When any number of tasks update a counter any number of times, each only between taking the
counter's mutex and giving it back, and give the processor up wherever they like, then at every
switch at most one task is in a section, the word of the mutex says whether one is, and the
counter has what all sections have added, with what the one in progress has stored so far.  No
turn meets a fault. -/
theorem updates_serialized (host : Host ε (GuardedCounter α)) (initial : α)
    {crew : Crew ε (GuardedCounter α) (Account α)}
    (hreach : Crew.Reaches host Call (Crew.start { counter := initial } .opened) crew) :
    Serialized initial crew ∧ ¬ crew.MayFail host Call := by
  have hserial : Serial initial crew :=
    hreach.invariant (serial_start initial) fun crew next hserial hstep => hserial.step hstep
  exact ⟨hserial.serialized, hserial.not_mayFail⟩

end Invariant

/-! ## A section in progress -/

/-- The first task is in a section of which nothing is done yet. -/
def begunSection : Crew Empty (GuardedCounter Int) (Account Int) :=
  (Crew.start { counter := 0 } .opened).leave 1 { mutex := { word := 1 }, counter := 0 }
    (.idle Account.opened.entered)

theorem step_begunSection : Crew.Step (Host.still Empty (GuardedCounter Int)) Call
    (Crew.start { counter := 0 } .opened) begunSection := by
  have hturn : (entering .opened).turn (Host.still Empty (GuardedCounter Int))
      { shared := { counter := 0 } } = .returned (Account.opened.entered)
        { shared := { mutex := { word := 1 }, counter := 0 } } := rfl
  exact .returned (.begins (.enters rfl)) rfl rfl hturn

/-- One task has read the counter and not stored yet, and another one waits for the mutex. -/
theorem updates_serialized_of_two :
    ∃ crew : Crew Empty (GuardedCounter Int) (Account Int),
      Crew.Reaches (Host.still Empty (GuardedCounter Int)) Call
        (Crew.start { counter := 0 } .opened) crew ∧
      crew.activity 1 = .calling Account.opened.entered (storing Account.opened.entered 0 1) ∧
      crew.activity 2 = .calling .opened (waiting .opened) ∧ Serialized 0 crew := by
  let taken : GuardedCounter Int := { mutex := { word := 1 }, counter := 0 }
  let reading := begunSection.leave 1 taken
    (.calling Account.opened.entered (storing Account.opened.entered 0 1))
  let queued := reading.leave 2 taken (.calling .opened (waiting .opened))
  have hturnReads : (updating Account.opened.entered 1 1).turn
      (Host.still Empty (GuardedCounter Int)) { shared := taken } =
        .yielded (storing Account.opened.entered 0 1) { shared := taken } := rfl
  have hturnWaits : (entering .opened).turn (Host.still Empty (GuardedCounter Int))
      { shared := taken } = .yielded (waiting .opened) { shared := taken } := rfl
  have hreads : Crew.Step (Host.still Empty (GuardedCounter Int)) Call begunSection reading :=
    .yielded (.begins (.updates rfl 1 1)) rfl rfl hturnReads
  have hqueues : Crew.Step (Host.still Empty (GuardedCounter Int)) Call reading queued :=
    .yielded (.begins (.enters rfl)) rfl rfl hturnWaits
  have hreach : Crew.Reaches (Host.still Empty (GuardedCounter Int)) Call
      (Crew.start { counter := 0 } .opened) queued :=
    ((Relation.ReflTransGen.single step_begunSection).tail hreads).tail hqueues
  exact ⟨queued, hreach, rfl, rfl, (updates_serialized _ 0 hreach).1⟩

/-- A task that gives the processor up between its store and the end of its section shows the
others an increment of a section that is not complete. -/
theorem counter_ahead_of_completed :
    ∃ crew : Crew Empty (GuardedCounter Int) (Account Int),
      Crew.Reaches (Host.still Empty (GuardedCounter Int)) Call
        (Crew.start { counter := 0 } .opened) crew ∧
      (∃ own, crew.activity 1 = .calling own (.done own) ∧ own.inside = true) ∧
      crew.shared.counter = 1 ∧ ∑ᶠ task, (crew.own task).completed = 0 := by
  let own : Account Int := Account.opened.entered.withStored 1
  let added : GuardedCounter Int := { mutex := { word := 1 }, counter := 1 }
  let stored := begunSection.leave 1 added (.idle own)
  let paused := stored.leave 1 added (.calling own (.done own))
  have hturnStores : (updating Account.opened.entered 1 0).turn
      (Host.still Empty (GuardedCounter Int))
        { shared := { mutex := { word := 1 }, counter := 0 } } =
          .returned own { shared := added } := rfl
  have hturnPauses : (Coroutine.pause (.done own)).turn (Host.still Empty (GuardedCounter Int))
      { shared := added } = .yielded (.done own) { shared := added } := rfl
  have hstores : Crew.Step (Host.still Empty (GuardedCounter Int)) Call begunSection stored :=
    .returned (.begins (.updates rfl 1 0)) rfl rfl hturnStores
  have hpauses : Crew.Step (Host.still Empty (GuardedCounter Int)) Call stored paused :=
    .yielded (.begins .yields) rfl rfl hturnPauses
  have hnothing : ∀ task, (paused.own task).completed = 0 := by
    intro task
    rw [Crew.leave_own]
    by_cases htask : task = 1
    · rw [if_pos htask]
      rfl
    · rw [if_neg htask, Crew.leave_own, if_neg htask, begunSection, Crew.leave_own, if_neg htask]
      rfl
  refine ⟨paused, ?_, ⟨own, rfl, rfl⟩, rfl, finsum_eq_zero_of_forall_eq_zero hnothing⟩
  exact ((Relation.ReflTransGen.single step_begunSection).tail hstores).tail hpauses

end GuardedCounter

end DriverHost
