import DriverHost.Machine

/-!
# Whole runs of a task's code

A turn runs code up to the next place where it gives the processor up.  A whole run is a chain
of turns, and between two of them other tasks do whatever a given relation allows.  This module
says how turns and whole runs are put together from those of the parts of the code, so that
later modules never look inside the interpreter.

Main results:

- Theorem `Machine.create_eq`: a creation adds a thread if there is room for one.
- Theorem `Coroutine.turn_bind`: a turn of a sequence is a turn of its first part, carried on
  with the second one.
- Definition `Coroutine.Runs`: a whole run, with other tasks acting between its turns.
- Theorem `Coroutine.Runs.split`: a run of a sequence is a run of the first part followed by a
  run of the second one, unless the first one ends in a fault.
- Theorem `Coroutine.Runs.by_turns`: what holds before each turn leads to what the last one does.
- Theorem `Coroutine.Runs.keeps`: what every access of the code and every act of the others
  keeps, the whole run keeps.
-/

namespace DriverHost

/-- A machine with another shared state. -/
def Machine.withShared {ε σ : Type} (machine : Machine ε σ) (shared : σ) : Machine ε σ :=
  { machine with shared }

namespace Machine

variable {ε σ : Type}

@[simp] theorem withShared_shared (machine : Machine ε σ) (shared : σ) :
    (machine.withShared shared).shared = shared :=
  rfl

@[simp] theorem withShared_self (machine : Machine ε σ) :
    machine.withShared machine.shared = machine :=
  rfl

end Machine

/-! ## Switches and creations -/

namespace Scheduler

@[simp] theorem created_switch (scheduler : Scheduler) (task : TaskId) :
    (scheduler.switch task).created = scheduler.created :=
  rfl

@[simp] theorem created_terminate (scheduler : Scheduler) (task : TaskId) :
    (scheduler.terminate task).created = scheduler.created := by
  cases task <;> simp [terminate, created]

@[simp] theorem current_terminate (scheduler : Scheduler) (task : TaskId) :
    (scheduler.terminate task).current = scheduler.current := by
  cases task <;> rfl

/-- The end of a thread leaves the boot context as it is. -/
theorem boot_terminate {scheduler : Scheduler} {task : TaskId} (htask : task ≠ bootTask) :
    (scheduler.terminate task).boot = scheduler.boot := by
  cases task with
  | zero => exact absurd rfl htask
  | succ index => rfl

/-- The entries of the threads are counted from one. -/
theorem state?_succ (scheduler : Scheduler) (index : Nat) :
    scheduler.state? (index + 1) = scheduler.threads[index]? :=
  rfl

/-- A new thread is the only one whose state changes. -/
theorem state?_push (scheduler : Scheduler) (task : TaskId) :
    ({ scheduler with threads := scheduler.threads.push .runnable } : Scheduler).state? task =
      if task = scheduler.created + 1 then some .runnable else scheduler.state? task := by
  cases task with
  | zero => rfl
  | succ index =>
    have hsame : index.succ = scheduler.created + 1 ↔ index = scheduler.threads.size :=
      Nat.succ_inj
    rw [state?_succ, Array.getElem?_push]
    simp only [hsame]
    rfl

end Scheduler

namespace Machine

variable {ε σ : Type} {host : Host ε σ}

@[simp] theorem scheduler_switch (machine : Machine ε σ) (task : TaskId) :
    (machine.switch host task).scheduler = machine.scheduler.switch task :=
  rfl

@[simp] theorem code_switch (machine : Machine ε σ) (task : TaskId) :
    (machine.switch host task).code = machine.code :=
  rfl

@[simp] theorem scheduler_setRest (machine : Machine ε σ) (rest : Coroutine ε σ Unit)
    (task : TaskId) : (machine.setRest rest task).scheduler = machine.scheduler := by
  cases task <;> rfl

@[simp] theorem shared_setRest (machine : Machine ε σ) (rest : Coroutine ε σ Unit)
    (task : TaskId) : (machine.setRest rest task).shared = machine.shared := by
  cases task <;> rfl

@[simp] theorem size_setRest (machine : Machine ε σ) (rest : Coroutine ε σ Unit)
    (task : TaskId) : (machine.setRest rest task).code.size = machine.code.size := by
  cases task <;> simp [setRest]

/-- The machine with one more thread, which is told about. -/
def withThread (host : Host ε σ) (entry : ε) (machine : Machine ε σ) : Machine ε σ :=
  tell host (.created (machine.scheduler.created + 1))
    { machine with
      scheduler := { machine.scheduler with threads := machine.scheduler.threads.push .runnable }
      code := machine.code.push (host.body entry) }

/-- A creation adds a thread if there is room for one. -/
theorem create_eq (host : Host ε σ) (entry : ε) (machine : Machine ε σ) :
    machine.create host entry =
      if machine.scheduler.created < maxThreads then
        .ok (machine.scheduler.created + 1) (machine.withThread host entry)
      else .failed (.bug none) machine := by
  rw [create, Scheduler.create?]
  by_cases hroom : machine.scheduler.created < maxThreads
  · rw [if_pos hroom, if_pos hroom]
    rfl
  · rw [if_neg hroom, if_neg hroom]

/-- A thread is created exactly if the table has room, and takes the next number. -/
theorem create_eq_ok_iff {entry : ε} {task : TaskId} {machine next : Machine ε σ} :
    machine.create host entry = .ok task next ↔
      machine.scheduler.created < maxThreads ∧ task = machine.scheduler.created + 1 ∧
        next = machine.withThread host entry := by
  rw [create_eq]
  split <;> grind

/-- A thread that the table has no room for is a bug, and nothing changes. -/
theorem create_eq_failed_iff {entry : ε} {cause : Fault} {machine stopped : Machine ε σ} :
    machine.create host entry = .failed cause stopped ↔
      maxThreads ≤ machine.scheduler.created ∧ cause = .bug none ∧ stopped = machine := by
  rw [create_eq]
  split <;> grind

end Machine

namespace Coroutine

variable {ε σ τ α β : Type} {host : Host ε σ}

/-! ## Turns -/

/-- Carry a turn on with more code where the first part returns. -/
def carryOn (host : Host ε σ) (f : α → Coroutine ε σ β) : Turn ε σ α → Turn ε σ β
  | .returned value machine => (f value).turn host machine
  | .yielded rest machine => .yielded (rest.bind f) machine
  | .failed cause machine => .failed cause machine

/-- A turn that begins with an attempt goes on if the attempt succeeds, and ends there if it
does not. -/
theorem turn_attempt (poll : Scheduler → Action σ (Option β)) (next : β → Coroutine ε σ α)
    (machine : Machine ε σ) :
    (attempt poll next).turn host machine =
      match poll machine.scheduler machine.shared with
      | .ok (some value) shared => (next value).turn host (machine.withShared shared)
      | .ok none shared => .yielded (attempt poll next) (machine.withShared shared)
      | .error cause shared => .failed cause (machine.withShared shared) := by
  rw [turn]
  cases poll machine.scheduler machine.shared with
  | ok value shared => cases value <;> rfl
  | error cause shared => rfl

/-- A turn of a sequence is a turn of its first part, carried on with the second. -/
theorem turn_bind (code : Coroutine ε σ α) (f : α → Coroutine ε σ β) (machine : Machine ε σ) :
    (code.bind f).turn host machine = carryOn host f (code.turn host machine) := by
  induction code generalizing machine with
  | done value => rfl
  | attempt poll next ih =>
    rw [bind, turn_attempt, turn_attempt]
    cases hpoll : poll machine.scheduler machine.shared with
    | ok value shared =>
      cases value with
      | none => rfl
      | some value => exact ih value _
    | error cause shared => rfl
  | pause next ih => rfl
  | spawn entry next ih =>
    simp only [bind, turn]
    cases hcreate : machine.create host entry with
    | ok task created => exact ih task created
    | failed cause stopped => rfl
  | moveTo core next ih => exact ih _
  | round next ih => rfl
  | drain next ih => rfl

/-- An action whose answer is wrapped succeeds and fails as the action does. -/
theorem map_some_apply (action : Action σ α) (shared : σ) :
    (some <$> action) shared =
      match action shared with
      | .ok value next => EStateM.Result.ok (some value) next
      | .error cause next => .error cause next := by
  change EStateM.map some action shared = _
  unfold EStateM.map
  cases action shared <;> rfl

/-- Doing something on the shared state at once takes no more than this turn. -/
theorem turn_act (action : Action σ α) (machine : Machine ε σ) :
    (act action : Coroutine ε σ α).turn host machine =
      match action machine.shared with
      | .ok value shared => .returned value (machine.withShared shared)
      | .error cause shared => .failed cause (machine.withShared shared) := by
  rw [act, turn_attempt, map_some_apply]
  cases action machine.shared <;> rfl

/-- A wait returns in this turn if its attempt succeeds, and is left as it was otherwise. -/
theorem turn_await (poll : Action σ (Option α)) (machine : Machine ε σ) :
    (await poll : Coroutine ε σ α).turn host machine =
      match poll machine.shared with
      | .ok (some value) shared => .returned value (machine.withShared shared)
      | .ok none shared => .yielded (await poll) (machine.withShared shared)
      | .error cause shared => .failed cause (machine.withShared shared) := by
  rw [await, turn_attempt]
  cases poll machine.shared with
  | ok value shared => cases value <;> rfl
  | error cause shared => rfl

/-- Asking for the boot core returns at once on it, and is a bug elsewhere. -/
theorem turn_requireBootCore (machine : Machine ε σ) :
    (requireBootCore : Coroutine ε σ Unit).turn host machine =
      if machine.scheduler.mayLock then .returned () machine
      else .failed (.bug none) machine := by
  refine (turn_attempt _ _ machine).trans ?_
  by_cases hlock : machine.scheduler.mayLock
  · simp only [hlock, if_true]
    rfl
  · simp only [hlock]
    rfl

/-- Give the processor up a number of times, and go on. -/
def pauses (next : Coroutine ε σ α) : Nat → Coroutine ε σ α
  | 0 => next
  | count + 1 => .pause (next.pauses count)

/-- A turn gives the processor up once more, or goes on if it need not. -/
theorem turn_pauses (next : Coroutine ε σ α) (count : Nat) (machine : Machine ε σ) :
    (next.pauses count).turn host machine =
      match count with
      | 0 => next.turn host machine
      | count + 1 => .yielded (next.pauses count) machine := by
  cases count <;> rfl

/-! ## Whole runs -/

/-- A whole run of code: turn after turn until the code returns or meets a fault.  Between two
turns other tasks take the machine from one state to another within the relation `between`. -/
inductive Runs (host : Host ε σ) (between : Machine ε σ → Machine ε σ → Prop) :
    Coroutine ε σ α → Machine ε σ → Except Fault α → Machine ε σ → Prop
  /-- The code returns in this turn. -/
  | returned {code machine value last} (hturn : code.turn host machine = .returned value last) :
      Runs host between code machine (.ok value) last
  /-- The code meets a fault in this turn. -/
  | failed {code machine cause last} (hturn : code.turn host machine = .failed cause last) :
      Runs host between code machine (.error cause) last
  /-- The code gives the processor up and goes on when the others have acted. -/
  | resumed {code machine rest given taken result last}
      (hturn : code.turn host machine = .yielded rest given) (hothers : between given taken)
      (hrest : Runs host between rest taken result last) :
      Runs host between code machine result last

variable {between : Machine ε σ → Machine ε σ → Prop}

/-- A run of a sequence is a run of its first part, then one of the second unless the first
ended in a fault. -/
theorem Runs.split {code : Coroutine ε σ α} {f : α → Coroutine ε σ β}
    {machine last : Machine ε σ} {result : Except Fault β}
    (hrun : Runs host between (code.bind f) machine result last) :
    (∃ value middle, Runs host between code machine (.ok value) middle ∧
      Runs host between (f value) middle result last) ∨
    ∃ cause, result = .error cause ∧ Runs host between code machine (.error cause) last := by
  generalize hwhole : code.bind f = whole at hrun
  -- The first part may return in any turn of the whole, so each kind of turn is split by what
  -- the first part does in it; only a turn that the first part yields leaves a run to go on with.
  induction hrun generalizing code with
  | returned hturn =>
    subst hwhole
    rw [turn_bind] at hturn
    cases hfirst : code.turn host _ with
    | returned value middle =>
      rw [hfirst] at hturn
      exact Or.inl ⟨value, middle, .returned hfirst, .returned hturn⟩
    | yielded rest given => simp [hfirst, carryOn] at hturn
    | failed cause stopped => simp [hfirst, carryOn] at hturn
  | failed hturn =>
    subst hwhole
    rw [turn_bind] at hturn
    cases hfirst : code.turn host _ with
    | returned value middle =>
      rw [hfirst] at hturn
      exact Or.inl ⟨value, middle, .returned hfirst, .failed hturn⟩
    | yielded rest given => simp [hfirst, carryOn] at hturn
    | failed cause stopped =>
      rw [hfirst] at hturn
      cases hturn
      exact Or.inr ⟨_, rfl, .failed hfirst⟩
  | resumed hturn hothers hrest ih =>
    subst hwhole
    rw [turn_bind] at hturn
    cases hfirst : code.turn host _ with
    | returned value middle =>
      rw [hfirst] at hturn
      exact Or.inl ⟨value, middle, .returned hfirst, .resumed hturn hothers hrest⟩
    | yielded rest given =>
      rw [hfirst] at hturn
      cases hturn
      rcases ih rfl with ⟨value, middle, hcode, hsecond⟩ | ⟨cause, hresult, hcode⟩
      · exact Or.inl ⟨value, middle, .resumed hfirst hothers hcode, hsecond⟩
      · exact Or.inr ⟨cause, hresult, .resumed hfirst hothers hcode⟩
    | failed cause stopped => simp [hfirst, carryOn] at hturn

/-- The first turn of a run says how the run goes on. -/
theorem Runs.first_turn {code : Coroutine ε σ α} {machine last : Machine ε σ}
    {result : Except Fault α} (hrun : Runs host between code machine result last) :
    match code.turn host machine with
    | .returned value reached => result = .ok value ∧ last = reached
    | .yielded rest given => ∃ taken, between given taken ∧ Runs host between rest taken result last
    | .failed cause stopped => result = .error cause ∧ last = stopped := by
  cases hrun with
  | returned hturn =>
    rw [hturn]
    exact ⟨rfl, rfl⟩
  | failed hturn =>
    rw [hturn]
    exact ⟨rfl, rfl⟩
  | resumed hturn hothers hrest =>
    rw [hturn]
    exact ⟨_, hothers, hrest⟩

/-- Code that is over returns its value and changes nothing. -/
theorem Runs.of_done {value : α} {machine last : Machine ε σ} {result : Except Fault α}
    (hrun : Runs host between (done value) machine result last) :
    result = .ok value ∧ last = machine :=
  hrun.first_turn

/-- An action has one run, to its result or its fault. -/
theorem Runs.of_act {action : Action σ α} {machine last : Machine ε σ}
    {result : Except Fault α} (hrun : Runs host between (act action) machine result last) :
    (∃ value shared, action machine.shared = .ok value shared ∧ result = .ok value ∧
      last = machine.withShared shared) ∨
    ∃ cause shared, action machine.shared = .error cause shared ∧ result = .error cause ∧
      last = machine.withShared shared := by
  have hfirst := hrun.first_turn
  rw [turn_act] at hfirst
  cases haction : action machine.shared with
  | ok value shared =>
    rw [haction] at hfirst
    exact Or.inl ⟨value, shared, rfl, hfirst⟩
  | error cause shared =>
    rw [haction] at hfirst
    exact Or.inr ⟨cause, shared, rfl, hfirst⟩

/-- A sequence that returns did so in both of its parts. -/
theorem Runs.split_ok {code : Coroutine ε σ α} {f : α → Coroutine ε σ β}
    {machine last : Machine ε σ} {result : β}
    (hrun : Runs host between (code.bind f) machine (.ok result) last) :
    ∃ value middle, Runs host between code machine (.ok value) middle ∧
      Runs host between (f value) middle (.ok result) last := by
  rcases hrun.split with hparts | ⟨_, hcause, _⟩
  · exact hparts
  · cases hcause

/-- Code of a single action that returns has done the action. -/
theorem Runs.act_ok {action : Action σ α} {machine last : Machine ε σ} {value : α}
    (hrun : Runs host between (act action) machine (.ok value) last) :
    ∃ shared, action machine.shared = .ok value shared ∧ last = machine.withShared shared := by
  rcases hrun.of_act with ⟨_, shared, haction, hvalue, hlast⟩ | ⟨_, _, _, hvalue, _⟩
  · cases hvalue
    exact ⟨shared, haction, hlast⟩
  · cases hvalue

/-- A run among others is a run among others that may do more. -/
theorem Runs.mono {wider : Machine ε σ → Machine ε σ → Prop} {code : Coroutine ε σ α}
    {machine last : Machine ε σ} {result : Except Fault α}
    (hrun : Runs host between code machine result last)
    (hmore : ∀ given taken, between given taken → wider given taken) :
    Runs host wider code machine result last := by
  induction hrun with
  | returned hturn => exact .returned hturn
  | failed hturn => exact .failed hturn
  | resumed hturn hothers hrest ih => exact .resumed hturn (hmore _ _ hothers) ih

/-- What holds of code and machine before each turn, and is brought about again by the others,
leads to what each last turn brings about. -/
theorem Runs.by_turns (before : Coroutine ε σ α → Machine ε σ → Prop)
    (after : Except Fault α → Machine ε σ → Prop)
    (hstep : ∀ code machine, before code machine →
      match code.turn host machine with
      | .returned value last => after (.ok value) last
      | .yielded rest given => ∀ taken, between given taken → before rest taken
      | .failed cause last => after (.error cause) last)
    {code : Coroutine ε σ α} {machine last : Machine ε σ} {result : Except Fault α}
    (hrun : Runs host between code machine result last) (hbegin : before code machine) :
    after result last := by
  induction hrun with
  | returned hturn =>
    have hlast := hstep _ _ hbegin
    rw [hturn] at hlast
    exact hlast
  | failed hturn =>
    have hlast := hstep _ _ hbegin
    rw [hturn] at hlast
    exact hlast
  | resumed hturn hothers hrest ih =>
    have hnext := hstep _ _ hbegin
    rw [hturn] at hnext
    exact ih (hnext _ hothers)

/-! ## What whole runs keep -/

/-- The state that an attempt leaves. -/
def leftBy {γ : Type} : EStateM.Result Fault σ γ → σ
  | .ok _ shared => shared
  | .error _ shared => shared

/-- Code that starts no threads, runs no rounds and stays on its core, and whose every access to
the shared state stays within a relation. -/
def Within (relation : σ → σ → Prop) : Coroutine ε σ α → Prop
  | done _ => True
  | attempt poll next =>
      (∀ scheduler shared, relation shared (leftBy (poll scheduler shared))) ∧
        ∀ value, (next value).Within relation
  | pause next => next.Within relation
  | spawn _ _ | moveTo _ _ | round _ | drain _ => False

/-- A sequence stays within a relation if both of its parts do. -/
theorem Within.bind {relation : σ → σ → Prop} {code : Coroutine ε σ α}
    {f : α → Coroutine ε σ β} (hcode : code.Within relation)
    (hnext : ∀ value, (f value).Within relation) : (code.bind f).Within relation := by
  induction code with
  | done value => exact hnext value
  | attempt poll next ih => exact ⟨hcode.1, fun value => ih value (hcode.2 value)⟩
  | pause next ih => exact ih hcode
  | spawn entry next ih => exact hcode.elim
  | moveTo core next ih => exact hcode.elim
  | round next ih => exact hcode.elim
  | drain next ih => exact hcode.elim

/-- Code on a part of the state stays within every relation that allows that part to change. -/
theorem Within.zoom {relation : τ → τ → Prop} {view : View τ σ} {code : Coroutine ε σ α}
    (hview : ∀ whole part, relation whole (view.set part whole))
    (hcode : code.Within fun _ _ => True) : (code.zoom view).Within relation := by
  induction code with
  | done value => trivial
  | attempt poll next ih =>
    refine ⟨fun scheduler whole => ?_, fun value => ih value (hcode.2 value)⟩
    simp only [View.lift]
    cases poll scheduler (view.get whole) <;> exact hview _ _
  | pause next ih => exact ih hcode
  | spawn entry next ih => exact hcode.elim
  | moveTo core next ih => exact hcode.elim
  | round next ih => exact hcode.elim
  | drain next ih => exact hcode.elim

/-- One turn keeps what each access of its code keeps, and leaves code of the same kind. -/
theorem Within.turn_keeps (host : Host ε σ) {relation : σ → σ → Prop}
    (holds : Machine ε σ → Prop)
    (hown : ∀ machine shared, holds machine → relation machine.shared shared →
      holds (machine.withShared shared))
    {code : Coroutine ε σ α} (hcode : code.Within relation) {machine : Machine ε σ}
    (hbegin : holds machine) :
    match code.turn host machine with
    | .returned _ reached => holds reached
    | .yielded rest given => holds given ∧ rest.Within relation
    | .failed _ stopped => holds stopped := by
  induction code generalizing machine with
  | done value => exact hbegin
  | attempt poll next ih =>
    have haccess := hown machine _ hbegin (hcode.1 machine.scheduler machine.shared)
    rw [turn_attempt]
    cases hpoll : poll machine.scheduler machine.shared with
    | error cause shared =>
      rw [hpoll] at haccess
      exact haccess
    | ok found shared =>
      rw [hpoll] at haccess
      cases found with
      | none => exact ⟨haccess, hcode⟩
      | some value => exact ih value (hcode.2 value) haccess
  | pause next ih => exact ⟨hbegin, hcode⟩
  | spawn entry next ih => exact hcode.elim
  | moveTo core next ih => exact hcode.elim
  | round next ih => exact hcode.elim
  | drain next ih => exact hcode.elim

/-- A whole run keeps what each access of its code and each act of the others keeps. -/
theorem Runs.keeps {relation : σ → σ → Prop} (holds : Machine ε σ → Prop)
    {code : Coroutine ε σ α} {machine last : Machine ε σ} {result : Except Fault α}
    (hrun : Runs host between code machine result last) (hcode : code.Within relation)
    (hown : ∀ machine shared, holds machine → relation machine.shared shared →
      holds (machine.withShared shared))
    (hothers : ∀ given taken, holds given → between given taken → holds taken)
    (hbegin : holds machine) : holds last := by
  refine hrun.by_turns (fun code now => code.Within relation ∧ holds now)
    (fun _ now => holds now) ?_ ⟨hcode, hbegin⟩
  intro code now hnow
  have hfirst := hnow.1.turn_keeps host holds hown hnow.2
  cases hturn : code.turn host now with
  | returned value last =>
    rw [hturn] at hfirst
    exact hfirst
  | failed cause last =>
    rw [hturn] at hfirst
    exact hfirst
  | yielded rest given =>
    rw [hturn] at hfirst
    exact fun taken hbetween => ⟨hfirst.2, hothers _ _ hfirst.1 hbetween⟩

end Coroutine

end DriverHost
