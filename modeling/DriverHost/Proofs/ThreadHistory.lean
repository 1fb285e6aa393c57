import DriverHost.Proofs.Rounds

/-!
# The history of the threads

What a watcher sees stands in the order in which it happened.  The scheduler's table can be read
off this history: which threads there are from what was told of creations, and which of them have
ended from the returns of their bodies.  This module follows table and history through everything
that happens to either, and through turns and rounds.

Main results:

- Definition `createdIn` and definition `NoneReturns`: the threads that a history tells of, and
  that none of them runs again once its body has returned.
- Structure `Chronicle`: a table and the history that belongs to it, with one lemma for each thing
  that happens to them.
- Theorems `Chronicle.partway`, `Chronicle.turn` and `Chronicle.turns`: table and history belong
  together at every point of a turn, after it, and after the turns of a round.
-/

namespace DriverHost

variable {ε σ α : Type}

/-! ## Histories -/

/-- The threads whose creation was told, in the order of their creation. -/
def createdIn (seen : List Sight) : List TaskId :=
  seen.filterMap fun
    | .told (.created task) => some task
    | _ => none

/-- The threads created in two stretches are those of the first and then those of the second. -/
@[simp] theorem createdIn_append (seen more : List Sight) :
    createdIn (seen ++ more) = createdIn seen ++ createdIn more :=
  List.filterMap_append

/-- A task gets the processor, touches the shared state, or returns from its body. -/
def Sight.Running (task : TaskId) (sight : Sight) : Prop :=
  sight = .told (.switched task) ∨ sight = .acted task ∨ sight = .left task

/-- A thread whose body has returned is not seen running again. -/
def NoneReturns (seen : List Sight) : Prop :=
  seen.Pairwise fun earlier later => ∀ task, earlier = .left task → ¬ later.Running task

/-- A body returns at most once. -/
theorem NoneReturns.count_left_le {seen : List Sight} (hseen : NoneReturns seen) (task : TaskId) :
    seen.count (.left task) ≤ 1 := by
  apply Nat.le_of_not_lt
  intro htwice
  have hsublist : (List.replicate 2 (Sight.left task)).Sublist seen :=
    List.replicate_sublist_iff.2 htwice
  have hpair := hseen.sublist hsublist
  simp [List.replicate, Sight.Running] at hpair

/-! ## Tables and their histories -/

/-- A table and the history that belongs to it: the boot context can run, the threads were created
one number after the other, those have ended whose bodies have returned, and this was told of each
of them once. -/
structure Chronicle (scheduler : Scheduler) (seen : List Sight) : Prop where
  boot : scheduler.boot = .runnable
  created : createdIn seen = List.range' 1 scheduler.created
  room : scheduler.created ≤ maxThreads
  left : ∀ task, Sight.left task ∈ seen ↔ scheduler.state? task = some .terminated
  told : ∀ task, seen.count (.told (.terminated task)) = seen.count (.left task)
  gone : NoneReturns seen

namespace Chronicle

variable {scheduler after : Scheduler} {seen : List Sight} {task : TaskId}

/-- A scheduler that starts out has no history. -/
theorem start (bootCoreOnly : Bool) : Chronicle { bootCoreOnly } [] := by
  refine ⟨rfl, rfl, Nat.zero_le _, fun task => ?_, fun _ => rfl, .nil⟩
  cases task <;> simp [Scheduler.state?]

/-- The boot context can run at any time. -/
theorem isRunnable_boot (hchronicle : Chronicle scheduler seen) :
    scheduler.isRunnable bootTask = true :=
  Scheduler.isRunnable_iff.2 (congrArg some hchronicle.boot)

/-- Only the states of the tasks matter. -/
theorem of_states (hchronicle : Chronicle scheduler seen) (hboot : after.boot = scheduler.boot)
    (hthreads : after.threads = scheduler.threads) : Chronicle after seen := by
  have hcreated : after.created = scheduler.created := congrArg Array.size hthreads
  have hstate : ∀ task, after.state? task = scheduler.state? task := by
    intro task
    cases task with
    | zero => exact congrArg some hboot
    | succ index => rw [Scheduler.state?_succ, Scheduler.state?_succ, hthreads]
  refine ⟨hboot.trans hchronicle.boot, ?_, ?_, fun task => ?_, hchronicle.told, hchronicle.gone⟩
  · rw [hcreated]
    exact hchronicle.created
  · rw [hcreated]
    exact hchronicle.room
  · rw [hstate]
    exact hchronicle.left task

/-- No thread that has ended is seen running in what comes next. -/
theorem gone_append {more : List Sight} (hchronicle : Chronicle scheduler seen)
    (hmore : NoneReturns more)
    (hlive : ∀ sight ∈ more, ∀ task, sight.Running task →
      scheduler.state? task ≠ some .terminated) : NoneReturns (seen ++ more) := by
  refine List.pairwise_append.2 ⟨hchronicle.gone, hmore, ?_⟩
  intro earlier hearlier later hlater task hleft hrunning
  rw [hleft] at hearlier
  exact hlive later hlater task hrunning ((hchronicle.left task).1 hearlier)

/-- A task that has not ended gets the processor or touches the shared state. -/
theorem runs (hchronicle : Chronicle scheduler seen) {sight : Sight}
    (hsight : sight = .told (.switched task) ∨ sight = .acted task)
    (hlive : scheduler.isRunnable task = true) : Chronicle scheduler (seen ++ [sight]) := by
  have hgone : NoneReturns (seen ++ [sight]) := by
    refine hchronicle.gone_append (List.pairwise_singleton _ _) ?_
    intro found hfound other hrunning
    rw [List.mem_singleton.1 hfound] at hrunning
    have hsame : task = other := by
      rcases hsight with rfl | rfl <;> simpa [Sight.Running] using hrunning
    exact hsame ▸ Scheduler.ne_terminated_of_isRunnable hlive
  refine ⟨hchronicle.boot, ?_, hchronicle.room, fun other => ?_, fun other => ?_, hgone⟩
  · rcases hsight with rfl | rfl <;> simpa [createdIn] using hchronicle.created
  · rcases hsight with rfl | rfl <;> simpa using hchronicle.left other
  · rcases hsight with rfl | rfl <;> simpa [List.count_append] using hchronicle.told other

/-- A thread is created under the next number. -/
theorem creates (hchronicle : Chronicle scheduler seen) (hroom : scheduler.created < maxThreads) :
    Chronicle { scheduler with threads := scheduler.threads.push .runnable }
      (seen ++ [.told (.created (scheduler.created + 1))]) := by
  have hcreated : ({ scheduler with threads := scheduler.threads.push .runnable } :
      Scheduler).created = scheduler.created + 1 := Array.size_push _
  refine ⟨hchronicle.boot, ?_, ?_, fun other => ?_, fun other => ?_, ?_⟩
  · rw [createdIn_append, hchronicle.created, hcreated, List.range'_1_concat, Nat.add_comm 1]
    rfl
  · rw [hcreated]
    exact hroom
  · rw [Scheduler.state?_push]
    have hnew : scheduler.state? (scheduler.created + 1) ≠ some .terminated := by
      simp [Scheduler.state?_succ, Scheduler.created]
    split
    · next hsame => simpa [hsame, hchronicle.left] using hnew
    · simpa using hchronicle.left other
  · simpa [List.count_append] using hchronicle.told other
  · refine hchronicle.gone_append (List.pairwise_singleton _ _) ?_
    simp [Sight.Running]

/-- The body of a thread returns, the processor goes back to the boot context, and the thread is
recorded as ended.  In between, the table does not know of the return yet, so this is one step. -/
theorem ends (hchronicle : Chronicle scheduler seen) (htask : task ≠ bootTask)
    (hlive : scheduler.isRunnable task = true) :
    Chronicle ((scheduler.switch bootTask).terminate task)
      (seen ++ [.left task, .told (.switched bootTask), .told (.terminated task)]) := by
  have hle := Scheduler.le_created_of_isRunnable hlive
  refine ⟨?_, ?_, ?_, fun other => ?_, fun other => ?_, ?_⟩
  · rw [Scheduler.boot_terminate htask]
    exact hchronicle.boot
  · simpa [createdIn] using hchronicle.created
  · simpa using hchronicle.room
  · rw [Scheduler.state?_terminate, Scheduler.state?_switch, Scheduler.created_switch]
    by_cases hsame : task = other
    · subst hsame
      simp [hle]
    · have hother : Sight.left other ≠ .left task := by simpa using Ne.symm hsame
      simp [hsame, hother, hchronicle.left]
  · simpa [List.count_append, List.count_cons] using hchronicle.told other
  · refine hchronicle.gone_append ?_ ?_
    · simp [NoneReturns, Sight.Running, Ne.symm htask]
    · intro sight hsight other hrunning
      simp only [List.mem_cons, List.not_mem_nil, or_false] at hsight
      rcases hsight with rfl | rfl | rfl <;> simp [Sight.Running] at hrunning
      · exact hrunning ▸ Scheduler.ne_terminated_of_isRunnable hlive
      · exact hrunning ▸ Scheduler.ne_terminated_of_isRunnable hchronicle.isRunnable_boot

end Chronicle

/-! ## Turns and rounds -/

/-- What a watcher has seen when a computation on its machine ends. -/
def Outcome.seen : Outcome ε (Watched σ) α → List Sight
  | .ok _ watcher => watcher.shared.seen
  | .failed _ watcher => watcher.shared.seen

namespace Chronicle

variable {host : Host ε σ} {machine now after : Machine ε σ}
  {watcher watcherAfter : Machine ε (Watched σ)} {seen during : List Sight}

/-- At every point of a turn table and history belong together, and the task whose turn it is has
not ended. -/
theorem partway {code : Coroutine ε σ α} (hpartway : code.Partway host machine during now)
    (hchronicle : Chronicle machine.scheduler seen)
    (hlive : machine.scheduler.isRunnable machine.scheduler.current = true) :
    Chronicle now.scheduler (seen ++ during) ∧
      now.scheduler.isRunnable machine.scheduler.current = true := by
  induction hpartway generalizing seen with
  | begins => exact ⟨by simpa using hchronicle, hlive⟩
  | tries hpoll => exact ⟨hchronicle.runs (Or.inr rfl) hlive, hlive⟩
  | acts hpoll hrest ih =>
    rw [List.append_cons]
    exact ih (hchronicle.runs (Or.inr rfl) hlive) hlive
  | @creates entry next machine task made during now hcreate hrest ih =>
    have hgrew := Machine.create_grew hcreate
    have hstill : made.scheduler.isRunnable machine.scheduler.current = true := by
      rw [Scheduler.isRunnable, hgrew.state? (Scheduler.le_created_of_isRunnable hlive)]
      exact hlive
    obtain ⟨hroom, rfl, rfl⟩ := Machine.create_eq_ok_iff.1 hcreate
    rw [List.append_cons]
    exact ih (hchronicle.creates hroom) hstill
  | moves hrest ih => exact ih (hchronicle.of_states rfl rfl) hlive

/-- After a turn that a round gives a thread they belong together again. -/
theorem turn {turn : TurnSeen} (hchronicle : Chronicle machine.scheduler seen)
    (hturn : machine.GaveTurn host after watcher watcherAfter turn)
    (htask : turn.task ≠ bootTask) (hlive : machine.scheduler.isRunnable turn.task = true) :
    Chronicle after.scheduler (seen ++ turn.sights) := by
  obtain ⟨code, given, -, hpartway, hclosing⟩ := hturn.partway
  have hbegun : Chronicle (machine.switch host turn.task).scheduler
      (seen ++ [.told (.switched turn.task)]) :=
    (hchronicle.runs (Or.inl rfl) hlive).of_states rfl rfl
  have hrunnable : (machine.switch host turn.task).scheduler.isRunnable turn.task = true := by
    rw [Scheduler.isRunnable, Machine.scheduler_switch, Scheduler.state?_switch]
    exact hlive
  obtain ⟨hgiven, hstill⟩ := partway hpartway hbegun hrunnable
  rw [hclosing, TurnSeen.closing]
  cases hended : turn.ended with
  | true =>
    have hends := hgiven.ends htask hstill
    simpa [TurnSeen.sights, hended] using hends
  | false =>
    have hback := hgiven.runs (Or.inl rfl) hgiven.isRunnable_boot
    have hyields : Chronicle (given.scheduler.switch bootTask) _ := hback.of_states rfl rfl
    simpa [TurnSeen.sights, hended] using hyields

/-- After the turns of a number of threads they belong together again. -/
theorem turns {tasks : List TaskId} {count given : Nat}
    (hchronicle : Chronicle machine.scheduler seen) (hrest : machine.AtRest)
    (hwatches : watcher.Watches machine) (htasks : ∀ task ∈ tasks, task ≠ bootTask)
    (hturns : machine.turns host tasks count = .ok given after) :
    ∃ watcherAfter during, watcher.turns host.watched tasks count = .ok given watcherAfter ∧
      watcherAfter.Watches after ∧ watcherAfter.shared.seen = watcher.shared.seen ++ during ∧
      after.AtRest ∧ Chronicle after.scheduler (seen ++ during) := by
  induction tasks generalizing machine watcher seen count with
  | nil =>
    cases hturns
    exact ⟨watcher, [], rfl, hwatches, by simp, hrest, by simpa using hchronicle⟩
  | cons task rest ih =>
    obtain ⟨htask, hothers⟩ := List.forall_mem_cons.1 htasks
    by_cases hrunnable : machine.scheduler.isRunnable task = true
    · rcases Machine.resume_cases host hrest hwatches htask hrunnable with
        ⟨reached, watcherReached, turn, rfl, hturn⟩ | ⟨cause, stopped, hfailed, -⟩
      · rw [Machine.turns_cons_runnable hrunnable hturn.runs] at hturns
        obtain ⟨watcherAfter, during, hwatched, hafter, hseen, hatRest, hlast⟩ :=
          ih (hchronicle.turn hturn htask hrunnable) hturn.rest hturn.watches hothers hturns
        refine ⟨watcherAfter, turn.sights ++ during, ?_, hafter, ?_, hatRest, ?_⟩
        · rw [Machine.turns_cons_runnable _ hturn.watched]
          · exact hwatched
          · rw [hwatches.scheduler]
            exact hrunnable
        · rw [hseen, hturn.seen, List.append_assoc]
        · rw [← List.append_assoc]
          exact hlast
      · simp [Machine.turns, hrunnable, hfailed] at hturns
    · rw [Machine.turns_cons_ended hrunnable] at hturns
      rw [Machine.turns_cons_ended (hwatches.scheduler ▸ hrunnable)]
      exact ih hchronicle hrest hwatches hothers hturns

/-- What is seen of the turns by a watcher that begins with them continues the history. -/
theorem turns_seen {tasks : List TaskId} {count given : Nat}
    (hchronicle : Chronicle machine.scheduler seen) (hrest : machine.AtRest)
    (htasks : ∀ task ∈ tasks, task ≠ bootTask)
    (hturns : machine.turns host tasks count = .ok given after) :
    after.AtRest ∧ Chronicle after.scheduler
      (seen ++ (machine.watched.turns host.watched tasks count).seen) := by
  obtain ⟨watcher, during, hwatched, -, hduring, hatRest, hafter⟩ :=
    hchronicle.turns hrest machine.watches_watched htasks hturns
  have hseen : (machine.watched.turns host.watched tasks count).seen = during := by
    rw [hwatched, Outcome.seen, hduring]
    exact List.nil_append during
  rw [hseen]
  exact ⟨hatRest, hafter⟩

end Chronicle

end DriverHost
