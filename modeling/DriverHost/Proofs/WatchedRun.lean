import DriverHost.Proofs.TaskRun

/-!
# Watched runs

To say what happens within a turn, the same code is run with a watcher beside the shared state.
The watcher writes down every notice, every time code touches the shared state together with the
task that has the processor then, and every return of a thread's body.  Watching changes nothing:
a watched run does what the run itself does.

Main results:

- Definitions `Coroutine.watched`, `Host.watched` and `Machine.watched`.
- Theorem `Coroutine.turn_grew`: a turn only adds threads.
- Inductive predicate `Coroutine.Partway`: the machines that a turn passes through.
- Theorem `Coroutine.turn_watched`: a watched turn is that turn, and what is seen of it.
-/

namespace DriverHost

variable {ε σ α : Type}

/-! ## The watcher -/

/-- What a watcher sees. -/
inductive Sight where
  /-- The machine tells about its tasks. -/
  | told (notice : Notice)
  /-- Code touches the shared state while a task has the processor. -/
  | acted (current : TaskId)
  /-- A body returns while a task has the processor. -/
  | left (current : TaskId)
deriving DecidableEq, Repr

/-- A shared state with what was seen so far, in order. -/
structure Watched (σ : Type) where
  shared : σ
  seen : List Sight := []

/-- A watched access to the shared state. -/
def Watched.lift {β : Type} (sight : Sight) (action : Action σ β) : Action (Watched σ) β :=
  fun state =>
    match action state.shared with
    | .ok value shared => .ok value ⟨shared, state.seen ++ [sight]⟩
    | .error cause shared => .error cause ⟨shared, state.seen ++ [sight]⟩

/-- The same code under a watcher. -/
def Coroutine.watched : Coroutine ε σ α → Coroutine ε (Watched σ) α
  | .done value =>
      .attempt (fun scheduler => Watched.lift (.left scheduler.current) fun shared =>
        .ok (some ()) shared) fun _ => .done value
  | .attempt poll next =>
      .attempt (fun scheduler => Watched.lift (.acted scheduler.current) (poll scheduler))
        fun value => (next value).watched
  | .pause next => .pause next.watched
  | .spawn entry next => .spawn entry fun task => (next task).watched
  | .moveTo core next => .moveTo core next.watched
  | .round next => .round fun count => (next count).watched
  | .drain next => .drain next.watched

/-- The same surroundings under a watcher. -/
def Host.watched (host : Host ε σ) : Host ε (Watched σ) where
  body entry := (host.body entry).watched
  notify notice state := ⟨host.notify notice state.shared, state.seen ++ [.told notice]⟩

namespace Machine

/-- The same machine under a watcher that has seen nothing yet. -/
def watched (machine : Machine ε σ) : Machine ε (Watched σ) where
  scheduler := machine.scheduler
  code := machine.code.map Coroutine.watched
  shared := { shared := machine.shared }

/-- A machine with a watcher is in the state of a machine without one.  Nobody looks at the code
of a thread that has ended. -/
structure Watches (watcher : Machine ε (Watched σ)) (machine : Machine ε σ) : Prop where
  scheduler : watcher.scheduler = machine.scheduler
  shared : watcher.shared.shared = machine.shared
  size : watcher.code.size = machine.code.size
  code : ∀ index : Nat, machine.scheduler.threads[index]? ≠ some .terminated →
    watcher.code[index]? = machine.code[index]?.map Coroutine.watched

/-- At the start the watcher watches the machine. -/
theorem watches_watched (machine : Machine ε σ) : machine.watched.Watches machine := by
  refine ⟨rfl, rfl, by simp [watched], fun index _ => by simp [watched]⟩

variable {watcher : Machine ε (Watched σ)} {machine : Machine ε σ} {host : Host ε σ}

/-- A change to the state that both have leaves one watching the other. -/
theorem Watches.withShared (hwatches : watcher.Watches machine) (shared : σ) (seen : List Sight) :
    (watcher.withShared ⟨shared, seen⟩).Watches (machine.withShared shared) :=
  ⟨hwatches.scheduler, rfl, hwatches.size, hwatches.code⟩

theorem Watches.see (hwatches : watcher.Watches machine) (seen : List Sight) :
    (watcher.withShared ⟨watcher.shared.shared, seen⟩).Watches machine :=
  ⟨hwatches.scheduler, hwatches.shared, hwatches.size, hwatches.code⟩

theorem Watches.setCore (hwatches : watcher.Watches machine) (core : UInt64) :
    Watches { watcher with scheduler := watcher.scheduler.setCore core }
      { machine with scheduler := machine.scheduler.setCore core } :=
  ⟨congrArg (fun scheduler : Scheduler => scheduler.setCore core) hwatches.scheduler,
    hwatches.shared, hwatches.size, hwatches.code⟩

/-- A notice goes to the machine's handler as before, and the watcher notes it. -/
theorem Watches.tell (hwatches : watcher.Watches machine) (notice : Notice) :
    (watcher.tell host.watched notice).Watches (machine.tell host notice) := by
  refine ⟨hwatches.scheduler, ?_, hwatches.size, hwatches.code⟩
  simp [Machine.tell, Host.watched, hwatches.shared]

@[simp] theorem seen_tell (watcher : Machine ε (Watched σ)) (notice : Notice) :
    (watcher.tell host.watched notice).shared.seen = watcher.shared.seen ++ [.told notice] :=
  rfl

/-! ## What a turn does to the tasks -/

/-- The tasks of one machine are those of another and some new threads, and the same task has
the processor. -/
structure Grew (before after : Machine ε σ) : Prop where
  current : after.scheduler.current = before.scheduler.current
  boot : after.scheduler.boot = before.scheduler.boot
  threads : ∃ started : List (Coroutine ε σ Unit),
    after.scheduler.threads.toList =
      before.scheduler.threads.toList ++ started.map (fun _ => TaskState.runnable) ∧
    after.code.toList = before.code.toList ++ started

theorem Grew.refl (machine : Machine ε σ) : machine.Grew machine :=
  ⟨rfl, rfl, [], by simp⟩

/-- A machine that grew twice grew. -/
theorem Grew.trans {first second third : Machine ε σ} (hfirst : first.Grew second)
    (hsecond : second.Grew third) : first.Grew third := by
  obtain ⟨started, hthreads, hcode⟩ := hfirst.threads
  obtain ⟨more, hmoreThreads, hmoreCode⟩ := hsecond.threads
  refine ⟨hsecond.current.trans hfirst.current, hsecond.boot.trans hfirst.boot,
    started ++ more, ?_, ?_⟩
  · simp [hmoreThreads, hthreads]
  · simp [hmoreCode, hcode]

theorem grew_withShared (machine : Machine ε σ) (shared : σ) :
    machine.Grew (machine.withShared shared) :=
  ⟨rfl, rfl, [], by simp [withShared]⟩

theorem grew_setCore (machine : Machine ε σ) (core : UInt64) :
    machine.Grew { machine with scheduler := machine.scheduler.setCore core } :=
  ⟨rfl, rfl, [], by simp [Scheduler.setCore]⟩

/-- A creation adds one thread. -/
theorem create_grew {entry : ε} {task : TaskId} {created : Machine ε σ}
    (hcreate : machine.create host entry = .ok task created) : machine.Grew created := by
  obtain ⟨-, -, rfl⟩ := create_eq_ok_iff.1 hcreate
  exact ⟨rfl, rfl, [host.body entry], by simp [withThread, tell], by simp [withThread, tell]⟩

/-- Threads are never taken out of the table. -/
theorem Grew.created_le {before after : Machine ε σ} (hgrew : before.Grew after) :
    before.scheduler.created ≤ after.scheduler.created := by
  obtain ⟨started, hthreads, -⟩ := hgrew.threads
  have hsize := congrArg List.length hthreads
  simp only [Array.length_toList, List.length_append] at hsize
  simp only [Scheduler.created]
  omega

/-- A new thread is watched from its first turn on. -/
theorem Watches.withThread (host : Host ε σ) (entry : ε) (hwatches : watcher.Watches machine) :
    (watcher.withThread host.watched entry).Watches (machine.withThread host entry) := by
  rw [Machine.withThread, Machine.withThread, hwatches.scheduler]
  apply Watches.tell
  refine ⟨rfl, hwatches.shared, by simp [hwatches.size], fun index hindex => ?_⟩
  have hbefore : machine.scheduler.threads[index]? ≠ some .terminated := by
    intro hended
    obtain ⟨hlt, -⟩ := Array.getElem?_eq_some_iff.1 hended
    simp only [Array.getElem?_push, Nat.ne_of_lt hlt, if_false] at hindex
    exact hindex hended
  simp only [Array.getElem?_push, hwatches.size, hwatches.code index hbefore]
  split <;> rfl

/-- A watched creation is that creation, and is seen. -/
theorem Watches.create {entry : ε} {task : TaskId} {created : Machine ε σ}
    (hwatches : watcher.Watches machine)
    (hcreate : machine.create host entry = .ok task created) :
    ∃ next, watcher.create host.watched entry = .ok task next ∧ next.Watches created ∧
      next.shared.seen = watcher.shared.seen ++ [.told (.created task)] := by
  obtain ⟨hroom, rfl, rfl⟩ := create_eq_ok_iff.1 hcreate
  refine ⟨_, ?_, hwatches.withThread host entry, ?_⟩
  · rw [create_eq, hwatches.scheduler, if_pos hroom]
  · rw [Machine.withThread, seen_tell, hwatches.scheduler]

/-- The watcher has no room for a thread exactly when the machine has none. -/
theorem Watches.create_failed {entry : ε} {cause : Fault} {stopped : Machine ε σ}
    (hwatches : watcher.Watches machine)
    (hcreate : machine.create host entry = .failed cause stopped) :
    watcher.create host.watched entry = .failed cause watcher := by
  obtain ⟨hfull, rfl, -⟩ := create_eq_failed_iff.1 hcreate
  rw [create_eq, hwatches.scheduler, if_neg (Nat.not_lt.2 hfull)]

end Machine

namespace Coroutine

variable {machine : Machine ε σ} {watcher : Machine ε (Watched σ)}

/-- The machine that a turn leaves. -/
def Turn.last : Turn ε σ α → Machine ε σ
  | .returned _ machine => machine
  | .yielded _ machine => machine
  | .failed _ machine => machine

/-- A turn only adds threads, and keeps the processor to the end. -/
theorem turn_grew (host : Host ε σ) (code : Coroutine ε σ α) (machine : Machine ε σ) :
    machine.Grew (Turn.last (code.turn host machine)) := by
  induction code generalizing machine with
  | done value => exact .refl machine
  | attempt poll next ih =>
    rw [turn_attempt]
    cases poll machine.scheduler machine.shared with
    | error cause shared => exact machine.grew_withShared shared
    | ok found shared =>
      cases found with
      | none => exact machine.grew_withShared shared
      | some value => exact (machine.grew_withShared shared).trans (ih value _)
  | pause next ih => exact .refl machine
  | spawn entry next ih =>
    simp only [turn]
    cases hcreate : machine.create host entry with
    | ok task created => exact (Machine.create_grew hcreate).trans (ih task created)
    | failed cause stopped =>
      obtain ⟨-, -, rfl⟩ := Machine.create_eq_failed_iff.1 hcreate
      exact .refl _
  | moveTo core next ih => exact (machine.grew_setCore core).trans (ih _)
  | round next ih => exact .refl machine
  | drain next ih => exact .refl machine

/-! ## Within a turn -/

/-- What is seen within a turn of a task that starts when a number of threads have been created:
the task touches the shared state, or creates a thread with a higher number. -/
def Sight.Within (created : Nat) (current : TaskId) (sight : Sight) : Prop :=
  sight = .acted current ∨ ∃ task, created < task ∧ sight = .told (.created task)

/-- The machines that one turn of some code passes through, each with what is to be seen of the
turn up to there. -/
inductive Partway (host : Host ε σ) :
    Coroutine ε σ α → Machine ε σ → List Sight → Machine ε σ → Prop
  | begins {code machine} : Partway host code machine [] machine
  | tries {β : Type} {poll : Scheduler → Action σ (Option β)} {next machine shared}
      (hpoll : poll machine.scheduler machine.shared = .ok none shared) :
      Partway host (.attempt poll next) machine [.acted machine.scheduler.current]
        (machine.withShared shared)
  | acts {β : Type} {poll : Scheduler → Action σ (Option β)} {next machine shared value during now}
      (hpoll : poll machine.scheduler machine.shared = .ok (some value) shared)
      (hrest : Partway host (next value) (machine.withShared shared) during now) :
      Partway host (.attempt poll next) machine (.acted machine.scheduler.current :: during) now
  | creates {entry next machine task made during now}
      (hcreate : machine.create host entry = .ok task made)
      (hrest : Partway host (next task) made during now) :
      Partway host (.spawn entry next) machine (.told (.created task) :: during) now
  | moves {core next during} {machine now : Machine ε σ}
      (hrest : Partway host next { machine with scheduler := machine.scheduler.setCore core }
        during now) : Partway host (.moveTo core next) machine during now

section Partway

variable {host : Host ε σ} {code : Coroutine ε σ α} {now : Machine ε σ} {during : List Sight}

/-- Within a turn threads are only added, and the same task has the processor. -/
theorem Partway.grew (hpartway : Partway host code machine during now) : machine.Grew now := by
  induction hpartway with
  | begins => exact .refl _
  | tries hpoll => exact Machine.grew_withShared _ _
  | acts hpoll hrest ih => exact (Machine.grew_withShared _ _).trans ih
  | creates hcreate hrest ih => exact (Machine.create_grew hcreate).trans ih
  | moves hrest ih => exact (Machine.grew_setCore _ _).trans ih

/-- Partway through a turn, only the current task has acted and only new threads have been created.
-/
theorem Partway.within (hpartway : Partway host code machine during now) {created : Nat}
    (hcreated : created ≤ machine.scheduler.created) :
    ∀ sight ∈ during, Sight.Within created machine.scheduler.current sight := by
  induction hpartway with
  | begins => simp
  | tries hpoll => simp [Sight.Within]
  | acts hpoll hrest ih => exact List.forall_mem_cons.2 ⟨Or.inl rfl, ih hcreated⟩
  | @creates entry next machine task made during now hcreate hrest ih =>
    have hgrew := Machine.create_grew hcreate
    obtain ⟨-, htask, -⟩ := Machine.create_eq_ok_iff.1 hcreate
    have hlt : created < task := htask ▸ Nat.lt_succ_of_le hcreated
    rw [hgrew.current] at ih
    exact List.forall_mem_cons.2
      ⟨Or.inr ⟨task, hlt, rfl⟩, ih (Nat.le_trans hcreated hgrew.created_le)⟩
  | moves hrest ih => exact ih hcreated

end Partway

/-! ## Watched turns -/

/-- A watched turn does what the turn does, and what was seen grows by what belongs to it; a
return of the body is seen last. -/
inductive SameTurn (host : Host ε σ) (code : Coroutine ε σ α) (machine : Machine ε σ)
    (seen : List Sight) : Turn ε σ α → Turn ε (Watched σ) α → Prop
  | returned {value last watcher} (during : List Sight)
      (hpartway : Partway host code machine during last) (hwatches : watcher.Watches last)
      (hseen : watcher.shared.seen = seen ++ during ++ [.left machine.scheduler.current]) :
      SameTurn host code machine seen (.returned value last) (.returned value watcher)
  | yielded {rest given watcher} (during : List Sight)
      (hpartway : Partway host code machine during given) (hwatches : watcher.Watches given)
      (hseen : watcher.shared.seen = seen ++ during) :
      SameTurn host code machine seen (.yielded rest given) (.yielded rest.watched watcher)
  | failed {cause stopped watcher} :
      SameTurn host code machine seen (.failed cause stopped) (.failed cause watcher)

/-- What was seen before the rest of a turn belongs to the turn. -/
theorem SameTurn.behind {host : Host ε σ} {code next : Coroutine ε σ α} {after : Machine ε σ}
    {seen before : List Sight} {turn : Turn ε σ α} {watchedTurn : Turn ε (Watched σ) α}
    (hsame : SameTurn host next after (seen ++ before) turn watchedTurn)
    (hcurrent : after.scheduler.current = machine.scheduler.current)
    (hstep : ∀ during now, Partway host next after during now →
      Partway host code machine (before ++ during) now) :
    SameTurn host code machine seen turn watchedTurn := by
  cases hsame with
  | returned during hpartway hwatches hseen =>
    refine .returned (before ++ during) (hstep _ _ hpartway) hwatches ?_
    simp [hseen, hcurrent]
  | yielded during hpartway hwatches hseen =>
    exact .yielded (before ++ during) (hstep _ _ hpartway) hwatches (by simp [hseen])
  | failed => exact .failed

/-- A watched turn is that turn, and what is seen of it. -/
theorem turn_watched (host : Host ε σ) (code : Coroutine ε σ α)
    (hwatches : watcher.Watches machine) :
    SameTurn host code machine watcher.shared.seen (code.turn host machine)
      (code.watched.turn host.watched watcher) := by
  induction code generalizing machine watcher with
  | done value =>
    rw [watched, turn_attempt]
    exact .returned [] .begins (hwatches.see _) (by simp [hwatches.scheduler])
  | attempt poll next ih =>
    have hlift : Watched.lift (.acted watcher.scheduler.current) (poll watcher.scheduler)
        watcher.shared =
        match poll machine.scheduler machine.shared with
        | .ok value shared =>
            .ok value ⟨shared, watcher.shared.seen ++ [.acted machine.scheduler.current]⟩
        | .error cause shared =>
            .error cause ⟨shared, watcher.shared.seen ++ [.acted machine.scheduler.current]⟩ := by
      rw [Watched.lift, hwatches.scheduler, hwatches.shared]
      cases poll machine.scheduler machine.shared <;> rfl
    rw [watched, turn_attempt, turn_attempt, hlift]
    cases hpoll : poll machine.scheduler machine.shared with
    | error cause shared => exact .failed
    | ok found shared =>
      cases found with
      | none =>
        rw [← watched]
        exact .yielded _ (.tries hpoll) (hwatches.withShared _ _) rfl
      | some value =>
        exact (ih value (hwatches.withShared shared _)).behind rfl fun _ _ => .acts hpoll
  | pause next ih => exact .yielded [] .begins hwatches (by simp)
  | spawn entry next ih =>
    simp only [watched, turn]
    cases hcreate : machine.create host entry with
    | failed cause stopped =>
      rw [hwatches.create_failed hcreate]
      exact .failed
    | ok task next =>
      obtain ⟨watchedNext, hwatchedCreate, hwatchesNext, hseen⟩ := hwatches.create hcreate
      rw [hwatchedCreate]
      have hsame := ih task hwatchesNext
      rw [hseen] at hsame
      exact hsame.behind (Machine.create_grew hcreate).current fun _ _ => .creates hcreate
  | moveTo core next ih =>
    have hsame := ih (hwatches.setCore core)
    rw [← List.append_nil watcher.shared.seen] at hsame
    exact hsame.behind rfl fun _ _ => .moves
  | round next ih => exact .failed
  | drain next ih => exact .failed

end Coroutine

end DriverHost
