import DriverHost.Proofs.WatchedRun

/-!
# Rounds

A round goes through the threads that exist when it begins and looks at each one's state when its
time comes.  The turns in between create threads and end their own, so it has to be shown that
what the round finds is what was there at its beginning: every runnable thread gets one turn.

Main results:

- Structure `Machine.GaveTurn` and theorem `Machine.resume_cases`: one turn of a round.
- Structure `Machine.GaveTurns` and theorem `Machine.turns_cases`: the turns of a number of
  threads.
- Inductive predicate `Machine.Reachable`: the machines at which boot code runs.
- Theorem `Machine.round_gives_one_turn_each`: what a round does, as a watcher sees it.
-/

namespace DriverHost

variable {ε σ : Type}

/-! ## The table -/

namespace Scheduler

/-- The scheduler runs a task exactly if its entry in the table is runnable. -/
theorem isRunnable_iff {scheduler : Scheduler} {task : TaskId} :
    scheduler.isRunnable task = true ↔ scheduler.state? task = some .runnable := by
  simp [isRunnable]

/-- Only a task that has been created can run. -/
theorem le_created_of_isRunnable {scheduler : Scheduler} {task : TaskId}
    (hrunnable : scheduler.isRunnable task = true) : task ≤ scheduler.created := by
  rw [isRunnable_iff] at hrunnable
  cases task with
  | zero => exact Nat.zero_le _
  | succ index => exact (Array.getElem?_eq_some_iff.1 hrunnable).1

theorem ne_terminated_of_isRunnable {scheduler : Scheduler} {task : TaskId}
    (hrunnable : scheduler.isRunnable task = true) :
    scheduler.state? task ≠ some .terminated := by
  rw [isRunnable_iff] at hrunnable
  simp [hrunnable]

/-- The threads that can run, in ascending order. -/
def runnableThreads (scheduler : Scheduler) : List TaskId :=
  (List.range' 1 scheduler.created).filter scheduler.isRunnable

/-- The threads that have not ended are those that can run. -/
theorem length_runnableThreads (scheduler : Scheduler) :
    scheduler.runnableThreads.length = scheduler.live := by
  have hall : scheduler.threads.toList.map some =
      (List.range scheduler.created).map fun index => scheduler.threads[index]? := by
    apply List.ext_getElem
    · simp [created]
    · intro index hthread _
      have hlt : index < scheduler.threads.size := by simpa using hthread
      simp [hlt]
  have hlive : scheduler.live =
      (scheduler.threads.toList.map some).countP (· == some .runnable) := by
    rw [List.countP_map, live]
    congr 1
  rw [runnableThreads, ← List.countP_eq_length_filter, List.range'_eq_map_range, hlive, hall,
    List.countP_map, List.countP_map]
  apply List.countP_congr
  intro index _
  simp [isRunnable, Nat.add_comm 1 index, state?_succ]

end Scheduler

namespace Machine

variable {host : Host ε σ} {machine after : Machine ε σ}
  {watcher watcherAfter : Machine ε (Watched σ)} {task : TaskId}

/-! ## Between turns -/

/-- No thread has the processor, and every thread has its code. -/
structure AtRest (machine : Machine ε σ) : Prop where
  current : machine.scheduler.current = bootTask
  size : machine.code.size = machine.scheduler.created

/-- Each thread of a machine at rest has code left to resume. -/
theorem AtRest.rest? (hrest : machine.AtRest) (htask : task ≠ bootTask)
    (hle : task ≤ machine.scheduler.created) : ∃ code, machine.rest? task = some code := by
  cases task with
  | zero => exact absurd rfl htask
  | succ index =>
    have hlt : index < machine.code.size := by
      rw [hrest.size]
      exact hle
    exact ⟨machine.code[index], Array.getElem?_eq_getElem hlt⟩

/-- What the code of a turn does to the table leaves the entries of older tasks alone. -/
theorem Grew.state? {before : Machine ε σ} (hgrew : before.Grew after) {other : TaskId}
    (hle : other ≤ before.scheduler.created) :
    after.scheduler.state? other = before.scheduler.state? other := by
  cases other with
  | zero => exact congrArg some hgrew.boot
  | succ index =>
    obtain ⟨started, hthreads, -⟩ := hgrew.threads
    have hlt : index < before.scheduler.threads.toList.length := hle
    rw [Scheduler.state?_succ, Scheduler.state?_succ, ← Array.getElem?_toList,
      ← Array.getElem?_toList, hthreads, List.getElem?_append_left hlt]

/-- A turn creates as many pieces of code as table entries. -/
theorem Grew.size {before : Machine ε σ} (hgrew : before.Grew after)
    (hsize : before.code.size = before.scheduler.created) :
    after.code.size = after.scheduler.created := by
  obtain ⟨started, hthreads, hcode⟩ := hgrew.threads
  have hthreadsSize := congrArg List.length hthreads
  have hcodeSize := congrArg List.length hcode
  simp only [Array.length_toList, List.length_append, List.length_map] at hthreadsSize hcodeSize
  simp only [Scheduler.created] at hsize ⊢
  omega

/-! ## Watching the steps around a turn -/

/-- The watcher resumes a runnable thread with its watched code. -/
theorem Watches.rest? (hwatches : watcher.Watches machine)
    (hstate : machine.scheduler.state? task = some .runnable) {code : Coroutine ε σ Unit}
    (hcode : machine.rest? task = some code) (htask : task ≠ bootTask) :
    watcher.rest? task = some code.watched := by
  cases task with
  | zero => exact absurd rfl htask
  | succ index =>
    rw [Scheduler.state?_succ] at hstate
    have hsame := hwatches.code index (by simp [hstate])
    rw [Machine.rest?] at hcode ⊢
    rw [hsame, hcode]
    rfl

/-- A switch is seen by the watcher and otherwise leaves both machines alike. -/
theorem Watches.switch (host : Host ε σ) (hwatches : watcher.Watches machine) (task : TaskId) :
    (watcher.switch host.watched task).Watches (machine.switch host task) := by
  apply Watches.tell
  refine ⟨?_, hwatches.shared, hwatches.size, hwatches.code⟩
  exact congrArg (fun scheduler : Scheduler => scheduler.switch task) hwatches.scheduler

/-- What a thread has left to run is left to the watcher too, watched. -/
theorem Watches.setRest (hwatches : watcher.Watches machine) (rest : Coroutine ε σ Unit)
    (task : TaskId) : (watcher.setRest rest.watched task).Watches (machine.setRest rest task) := by
  cases task with
  | zero => exact hwatches
  | succ index =>
    refine ⟨hwatches.scheduler, hwatches.shared, by simpa using hwatches.size, ?_⟩
    intro other hother
    simp only [Machine.setRest, Array.getElem?_setIfInBounds, hwatches.size,
      hwatches.code other hother]
    split
    · split <;> rfl
    · rfl

/-- The end of a thread is seen by the watcher and otherwise leaves both machines alike. -/
theorem Watches.finish (host : Host ε σ) (hwatches : watcher.Watches machine)
    (htask : task ≠ bootTask) (hle : task ≤ machine.scheduler.created) :
    (watcher.finish host.watched task).Watches (machine.finish host task) := by
  cases task with
  | zero => exact absurd rfl htask
  | succ index =>
    have hlt : index < machine.scheduler.threads.size := hle
    apply Watches.tell
    refine ⟨?_, hwatches.shared, by simpa [Machine.setRest] using hwatches.size, ?_⟩
    · exact congrArg (fun scheduler : Scheduler => scheduler.terminate (index + 1))
        hwatches.scheduler
    · intro other hother
      simp only [Scheduler.terminate, Array.getElem?_setIfInBounds, hlt, if_true] at hother
      simp only [Machine.setRest, Array.getElem?_setIfInBounds]
      by_cases hsame : index = other
      · simp [hsame] at hother
      · rw [if_neg hsame] at hother
        rw [if_neg hsame, if_neg hsame]
        exact hwatches.code other hother

/-! ## One turn -/

end Machine

/-- What is seen of the turn that a round gives a thread: what happened within it, and whether
the thread's body returned. -/
structure TurnSeen where
  task : TaskId
  during : List Sight
  ended : Bool

/-- The sights of a turn in order: the thread gets the processor, acts, and hands it back to the
boot context; only a thread whose body returned is then told to have ended. -/
def TurnSeen.sights (turn : TurnSeen) : List Sight :=
  .told (.switched turn.task) :: turn.during ++
    (if turn.ended then [.left turn.task] else []) ++ [.told (.switched bootTask)] ++
    (if turn.ended then [.told (.terminated turn.task)] else [])

/-- The state of a thread after its turn. -/
def TurnSeen.stateAfter (turn : TurnSeen) : TaskState :=
  if turn.ended then .terminated else .runnable

/-- What is done to the table once a thread's code has stopped running. -/
def TurnSeen.closing (turn : TurnSeen) (scheduler : Scheduler) : Scheduler :=
  if turn.ended then (scheduler.switch bootTask).terminate turn.task
  else scheduler.switch bootTask

namespace Machine

variable {host : Host ε σ} {machine after : Machine ε σ}
  {watcher watcherAfter : Machine ε (Watched σ)} {task : TaskId}

/-- A thread's turn meets a fault. -/
def TurnFails (host : Host ε σ) (machine : Machine ε σ) (task : TaskId) (cause : Fault)
    (stopped : Machine ε σ) : Prop :=
  ∃ code, machine.rest? task = some code ∧
    code.turn host (machine.switch host task) = .failed cause stopped

/-- A thread was given one turn, with and without a watcher: the watcher saw it, and no other
thread's state changed. -/
structure GaveTurn (host : Host ε σ) (machine after : Machine ε σ)
    (watcher watcherAfter : Machine ε (Watched σ)) (turn : TurnSeen) : Prop where
  runs : machine.resume host turn.task = .ok () after
  watched : watcher.resume host.watched turn.task = .ok () watcherAfter
  watches : watcherAfter.Watches after
  rest : after.AtRest
  during : ∀ sight ∈ turn.during,
    Coroutine.Sight.Within machine.scheduler.created turn.task sight
  seen : watcherAfter.shared.seen = watcher.shared.seen ++ turn.sights
  partway : ∃ code given, machine.rest? turn.task = some code ∧
    code.Partway host (machine.switch host turn.task) turn.during given ∧
    after.scheduler = turn.closing given.scheduler
  created : machine.scheduler.created ≤ after.scheduler.created
  others : ∀ other ≤ machine.scheduler.created, other ≠ turn.task →
    after.scheduler.state? other = machine.scheduler.state? other
  own : after.scheduler.state? turn.task = some turn.stateAfter

/-- After a thread gave the processor up the boot context has it, and no thread's state is
another. -/
theorem Grew.yielded {given : Machine ε σ} (hgrew : (machine.switch host task).Grew given)
    (hrest : machine.AtRest) (rest : Coroutine ε σ Unit) :
    ((given.setRest rest task).switch host bootTask).AtRest ∧
      machine.scheduler.created ≤ given.scheduler.created ∧
      ∀ other ≤ machine.scheduler.created,
        given.scheduler.state? other = machine.scheduler.state? other := by
  refine ⟨⟨rfl, ?_⟩, hgrew.created_le, fun other hle => ?_⟩
  · simpa using hgrew.size hrest.size
  · rw [hgrew.state? hle]
    exact Scheduler.state?_switch _ _ _

/-- After a thread's body returned the boot context has the processor, and that thread alone has
ended. -/
theorem Grew.finished {given : Machine ε σ} (hgrew : (machine.switch host task).Grew given)
    (hrest : machine.AtRest) (hle : task ≤ machine.scheduler.created) :
    (finish host task (given.switch host bootTask)).AtRest ∧
      machine.scheduler.created ≤
        (finish host task (given.switch host bootTask)).scheduler.created ∧
      (∀ other ≤ machine.scheduler.created, other ≠ task →
        (finish host task (given.switch host bootTask)).scheduler.state? other =
          machine.scheduler.state? other) ∧
      (finish host task (given.switch host bootTask)).scheduler.state? task =
        some .terminated := by
  have hscheduler : (finish host task (given.switch host bootTask)).scheduler =
      (given.scheduler.switch bootTask).terminate task := rfl
  have hstate : ∀ other, (finish host task (given.switch host bootTask)).scheduler.state? other =
      if task = other then some .terminated else given.scheduler.state? other := by
    intro other
    have hinside : task ≤ (given.scheduler.switch bootTask).created :=
      Nat.le_trans hle hgrew.created_le
    rw [hscheduler, Scheduler.state?_terminate, Scheduler.state?_switch]
    by_cases hsame : task = other
    · rw [if_pos ⟨hsame, hinside⟩, if_pos hsame]
    · rw [if_neg (fun hboth => hsame hboth.1), if_neg hsame]
  have hcreated : (finish host task (given.switch host bootTask)).scheduler.created =
      given.scheduler.created := by
    rw [hscheduler]
    exact Scheduler.created_terminate _ task
  refine ⟨⟨?_, ?_⟩, ?_, fun other hother hne => ?_, ?_⟩
  · rw [hscheduler]
    exact Scheduler.current_terminate _ task
  · rw [hcreated, ← hgrew.size hrest.size]
    exact size_setRest _ _ _
  · rw [hcreated]
    exact hgrew.created_le
  · rw [hstate, if_neg (Ne.symm hne)]
    simpa using hgrew.state? hother
  · rw [hstate, if_pos rfl]

/-- A runnable thread is given a turn, unless the turn meets a fault. -/
theorem resume_cases (host : Host ε σ) (hrest : machine.AtRest)
    (hwatches : watcher.Watches machine) (htask : task ≠ bootTask)
    (hrunnable : machine.scheduler.isRunnable task = true) :
    (∃ after watcherAfter turn, turn.task = task ∧
      GaveTurn host machine after watcher watcherAfter turn) ∨
    ∃ cause stopped, machine.resume host task = .failed cause stopped ∧
      machine.TurnFails host task cause stopped := by
  have hle := Scheduler.le_created_of_isRunnable hrunnable
  have hstate := Scheduler.isRunnable_iff.1 hrunnable
  obtain ⟨code, hcode⟩ := hrest.rest? htask hle
  have hwatchedCode := hwatches.rest? hstate hcode htask
  have hsame := code.turn_watched host (hwatches.switch host task)
  have hseen : (watcher.switch host.watched task).shared.seen =
      watcher.shared.seen ++ [.told (.switched task)] := rfl
  rw [hseen] at hsame
  generalize hturn : code.turn host (machine.switch host task) = turn at hsame
  generalize hwatchedTurn :
    code.watched.turn host.watched (watcher.switch host.watched task) = watchedTurn at hsame
  cases hsame with
  | @yielded rest given watcherGiven during hpartway hwatched hduring =>
    obtain ⟨hrestAfter, hcreated, hothers⟩ := hpartway.grew.yielded hrest rest
    refine Or.inl ⟨(given.setRest rest task).switch host bootTask,
      (watcherGiven.setRest rest.watched task).switch host.watched bootTask,
      ⟨task, during, false⟩, rfl, ?_⟩
    refine ⟨?_, ?_, (hwatched.setRest rest task).switch host bootTask, hrestAfter,
      hpartway.within (Nat.le_refl _), ?_, ⟨code, given, hcode, hpartway, ?_⟩, ?_, ?_, ?_⟩
    · simp only [resume, hcode, hturn]
    · simp only [resume, hwatchedCode, hwatchedTurn]
    · simp [switch, hduring, TurnSeen.sights]
    · simp [TurnSeen.closing]
    · simpa using hcreated
    · simpa using fun other hle _ => hothers other hle
    · simpa [TurnSeen.stateAfter, hstate] using hothers task hle
  | @returned value given watcherGiven during hpartway hwatched hduring =>
    obtain ⟨hrestAfter, hcreated, hothers, hown⟩ := hpartway.grew.finished hrest hle
    refine Or.inl ⟨finish host task (given.switch host bootTask),
      finish host.watched task (watcherGiven.switch host.watched bootTask),
      ⟨task, during, true⟩, rfl, ?_⟩
    have hleGiven : task ≤ given.scheduler.created := Nat.le_trans hle hpartway.grew.created_le
    refine ⟨?_, ?_, (hwatched.switch host bootTask).finish host htask hleGiven, hrestAfter,
      hpartway.within (Nat.le_refl _), ?_, ⟨code, given, hcode, hpartway, rfl⟩, hcreated, hothers,
      hown⟩
    · simp only [resume, hcode, hturn]
    · simp only [resume, hwatchedCode, hwatchedTurn]
    · have hcurrent : (machine.switch host task).scheduler.current = task := rfl
      rw [hcurrent] at hduring
      simp [finish, switch, hduring, TurnSeen.sights]
  | failed =>
    exact Or.inr ⟨_, _, by simp only [resume, hcode, hturn], code, hcode, hturn⟩

/-! ## All turns -/

/-- A number of threads were given one turn each, those of them that were runnable at the
beginning, in order. -/
structure GaveTurns (host : Host ε σ) (machine after : Machine ε σ)
    (watcher watcherAfter : Machine ε (Watched σ)) (tasks : List TaskId)
    (turns : List TurnSeen) : Prop where
  runs : ∀ count, machine.turns host tasks count = .ok (count + turns.length) after
  watched : ∀ count,
    watcher.turns host.watched tasks count = .ok (count + turns.length) watcherAfter
  watches : watcherAfter.Watches after
  rest : after.AtRest
  order : turns.map TurnSeen.task = tasks.filter machine.scheduler.isRunnable
  during : ∀ turn ∈ turns, ∀ sight ∈ turn.during,
    Coroutine.Sight.Within machine.scheduler.created turn.task sight
  seen : watcherAfter.shared.seen = watcher.shared.seen ++ turns.flatMap TurnSeen.sights
  created : machine.scheduler.created ≤ after.scheduler.created
  others : ∀ other ≤ machine.scheduler.created, other ∉ tasks →
    after.scheduler.state? other = machine.scheduler.state? other
  own : ∀ turn ∈ turns, after.scheduler.state? turn.task = some turn.stateAfter

/-- The first thread in a row whose turn meets a fault ends the system; those before it got
their turns. -/
def FailsAmong (host : Host ε σ) (machine : Machine ε σ) (tasks : List TaskId) (cause : Fault)
    (stopped : Machine ε σ) : Prop :=
  ∃ before task behind given reached, tasks = before ++ task :: behind ∧
    machine.scheduler.isRunnable task = true ∧
    (∀ count, machine.turns host before count = .ok (count + given) reached) ∧
    reached.TurnFails host task cause stopped

/-- A thread that can run when its turn has come is resumed and counted. -/
theorem turns_cons_runnable {rest : List TaskId} {count : Nat}
    (hrunnable : machine.scheduler.isRunnable task = true)
    (hresume : machine.resume host task = .ok () after) :
    machine.turns host (task :: rest) count = after.turns host rest (count + 1) := by
  simp only [turns, hrunnable, hresume, if_true]

/-- A thread that has ended is passed over. -/
theorem turns_cons_ended {rest : List TaskId} {count : Nat}
    (hended : ¬ machine.scheduler.isRunnable task = true) :
    machine.turns host (task :: rest) count = machine.turns host rest count := by
  simp only [turns, hended]
  rfl

/-- The states that the turns behind a turn find are those of the beginning. -/
theorem GaveTurn.isRunnable {turn : TurnSeen}
    (hturn : GaveTurn host machine after watcher watcherAfter turn) {other : TaskId}
    (hle : other ≤ machine.scheduler.created) (hne : other ≠ turn.task) :
    after.scheduler.isRunnable other = machine.scheduler.isRunnable other := by
  rw [Scheduler.isRunnable, Scheduler.isRunnable, hturn.others other hle hne]

/-- A turn and the turns behind it. -/
theorem GaveTurn.cons {turn : TurnSeen} {last : Machine ε σ} {watcherLast : Machine ε (Watched σ)}
    {rest : List TaskId} {turns : List TurnSeen} (hwatches : watcher.Watches machine)
    (hrunnable : machine.scheduler.isRunnable turn.task = true) (hnotin : turn.task ∉ rest)
    (hinside : ∀ other ∈ rest, other ≤ machine.scheduler.created)
    (hturn : GaveTurn host machine after watcher watcherAfter turn)
    (hturns : GaveTurns host after last watcherAfter watcherLast rest turns) :
    GaveTurns host machine last watcher watcherLast (turn.task :: rest) (turn :: turns) := by
  have hwatchedRunnable : watcher.scheduler.isRunnable turn.task = true := by
    rw [hwatches.scheduler]
    exact hrunnable
  have hsame : rest.filter after.scheduler.isRunnable =
      rest.filter machine.scheduler.isRunnable := by
    apply List.filter_congr
    intro other hother
    exact hturn.isRunnable (hinside other hother) (fun heq => hnotin (heq ▸ hother))
  refine ⟨fun count => ?_, fun count => ?_, hturns.watches, hturns.rest, ?_, ?_, ?_,
    Nat.le_trans hturn.created hturns.created, fun other hle hother => ?_, ?_⟩
  · rw [turns_cons_runnable hrunnable hturn.runs, hturns.runs, List.length_cons]
    congr 1
    omega
  · rw [turns_cons_runnable hwatchedRunnable hturn.watched, hturns.watched, List.length_cons]
    congr 1
    omega
  · rw [List.map_cons, hturns.order, hsame, List.filter_cons_of_pos hrunnable]
  · refine List.forall_mem_cons.2 ⟨hturn.during, fun next hnext sight hsight => ?_⟩
    refine (hturns.during next hnext sight hsight).imp_right ?_
    rintro ⟨task, hlt, htold⟩
    exact ⟨task, Nat.lt_of_le_of_lt hturn.created hlt, htold⟩
  · rw [hturns.seen, hturn.seen, List.flatMap_cons, List.append_assoc]
  · rw [hturns.others other (Nat.le_trans hle hturn.created) fun hin =>
      hother (List.mem_cons_of_mem _ hin)]
    exact hturn.others other hle fun heq => hother (heq ▸ List.mem_cons_self)
  · refine List.forall_mem_cons.2 ⟨?_, hturns.own⟩
    have hle := Scheduler.le_created_of_isRunnable hrunnable
    rw [hturns.others turn.task (Nat.le_trans hle hturn.created) hnotin]
    exact hturn.own

/-- A thread that has ended gets no turn. -/
theorem GaveTurns.skip {rest : List TaskId} {turns : List TurnSeen}
    (hwatches : watcher.Watches machine) (hended : ¬ machine.scheduler.isRunnable task = true)
    (hturns : GaveTurns host machine after watcher watcherAfter rest turns) :
    GaveTurns host machine after watcher watcherAfter (task :: rest) turns := by
  have hwatchedEnded : ¬ watcher.scheduler.isRunnable task = true := by
    rw [hwatches.scheduler]
    exact hended
  refine ⟨fun count => ?_, fun count => ?_, hturns.watches, hturns.rest, ?_, hturns.during,
    hturns.seen, hturns.created, fun other hle hother => ?_, hturns.own⟩
  · rw [turns_cons_ended hended, hturns.runs]
  · rw [turns_cons_ended hwatchedEnded, hturns.watched]
  · rw [List.filter_cons_of_neg hended, hturns.order]
  · exact hturns.others other hle fun hin => hother (List.mem_cons_of_mem _ hin)

/-- Threads are given their turns one after the other.  What is read of each thread when its time
comes is what held of it at the beginning. -/
theorem turns_cases (host : Host ε σ) (tasks : List TaskId) (hrest : machine.AtRest)
    (hwatches : watcher.Watches machine) (hdistinct : tasks.Nodup)
    (hinside : ∀ task ∈ tasks, task ≠ bootTask ∧ task ≤ machine.scheduler.created) :
    (∃ after watcherAfter turns, GaveTurns host machine after watcher watcherAfter tasks turns) ∨
    ∃ cause stopped, (∀ count, machine.turns host tasks count = .failed cause stopped) ∧
      machine.FailsAmong host tasks cause stopped := by
  induction tasks generalizing machine watcher with
  | nil =>
    refine Or.inl ⟨machine, watcher, [], fun _ => rfl, fun _ => rfl, hwatches, hrest, rfl, ?_, ?_,
      Nat.le_refl _, fun _ _ _ => rfl, ?_⟩ <;> simp
  | cons task rest ih =>
    obtain ⟨hnotin, hdistinctRest⟩ := List.nodup_cons.1 hdistinct
    obtain ⟨⟨htask, -⟩, hinsideRest⟩ := List.forall_mem_cons.1 hinside
    by_cases hrunnable : machine.scheduler.isRunnable task = true
    · rcases resume_cases host hrest hwatches htask hrunnable with
        ⟨after, watcherAfter, turn, rfl, hturn⟩ | ⟨cause, stopped, hfailed, hfails⟩
      · have hinsideAfter : ∀ other ∈ rest, other ≠ bootTask ∧
            other ≤ after.scheduler.created := fun other hother =>
          ⟨(hinsideRest other hother).1, Nat.le_trans (hinsideRest other hother).2 hturn.created⟩
        rcases ih hturn.rest hturn.watches hdistinctRest hinsideAfter with
          ⟨last, watcherLast, turns, hturns⟩ | ⟨cause, stopped, hfailed, hfails⟩
        · exact Or.inl ⟨last, watcherLast, turn :: turns, hturn.cons hwatches hrunnable hnotin
            (fun other hother => (hinsideRest other hother).2) hturns⟩
        · right
          refine ⟨cause, stopped, fun count => ?_, ?_⟩
          · rw [turns_cons_runnable hrunnable hturn.runs, hfailed]
          · obtain ⟨before, later, behind, given, reached, rfl, hlater, hbefore, hfails⟩ := hfails
            have hlaterIn : later ∈ before ++ later :: behind := by simp
            rw [hturn.isRunnable (hinsideRest later hlaterIn).2
              (fun heq => hnotin (heq ▸ hlaterIn))] at hlater
            refine ⟨turn.task :: before, later, behind, given + 1, reached, rfl, hlater,
              fun count => ?_, hfails⟩
            rw [turns_cons_runnable hrunnable hturn.runs, hbefore]
            congr 1
            omega
      · right
        refine ⟨cause, stopped, fun count => ?_, [], task, rest, 0, machine, rfl, hrunnable,
          fun _ => rfl, hfails⟩
        simp only [turns, hrunnable, hfailed, if_true]
    · rcases ih hrest hwatches hdistinctRest hinsideRest with
        ⟨last, watcherLast, turns, hturns⟩ | ⟨cause, stopped, hfailed, hfails⟩
      · exact Or.inl ⟨last, watcherLast, turns, hturns.skip hwatches hrunnable⟩
      · right
        refine ⟨cause, stopped, fun count => ?_, ?_⟩
        · rw [turns_cons_ended hrunnable, hfailed]
        · obtain ⟨before, later, behind, given, reached, rfl, hlater, hbefore, hfails⟩ := hfails
          refine ⟨task :: before, later, behind, given, reached, rfl, hlater, fun count => ?_,
            hfails⟩
          rw [turns_cons_ended hrunnable, hbefore]

/-! ## Rounds -/

/-- The machines at which boot code runs: a new one, and what comes of one when boot code touches
the shared state, creates a thread, moves to a core or has a round run. -/
inductive Reachable (host : Host ε σ) : Machine ε σ → Prop
  | start (shared : σ) (bootCoreOnly : Bool) :
      Reachable host { shared, scheduler := { bootCoreOnly } }
  | acts {machine : Machine ε σ} (hreachable : Reachable host machine) (shared : σ) :
      Reachable host (machine.withShared shared)
  | creates {machine next : Machine ε σ} {entry : ε} {task : TaskId}
      (hreachable : Reachable host machine) (hcreate : machine.create host entry = .ok task next) :
      Reachable host next
  | moves {machine : Machine ε σ} (hreachable : Reachable host machine) (core : UInt64) :
      Reachable host { machine with scheduler := machine.scheduler.setCore core }
  | rounds {machine next : Machine ε σ} {count : Nat} (hreachable : Reachable host machine)
      (hround : machine.runOnce host = .ok count next) : Reachable host next

theorem ne_bootTask_of_mem_range' {upTo : Nat} :
    ∀ task ∈ List.range' 1 upTo, task ≠ bootTask := by
  intro task htask hboot
  have hpositive := (List.mem_range'_1.1 htask).1
  rw [hboot] at hpositive
  exact Nat.not_succ_le_zero 0 hpositive

/-- The turns of the threads that exist. -/
theorem round_cases (host : Host ε σ) (hrest : machine.AtRest)
    (hwatches : watcher.Watches machine) {upTo : Nat} (hle : upTo ≤ machine.scheduler.created) :
    (∃ after watcherAfter turns,
      GaveTurns host machine after watcher watcherAfter (List.range' 1 upTo) turns) ∨
    ∃ cause stopped, (∀ count, machine.turns host (List.range' 1 upTo) count =
      .failed cause stopped) ∧ machine.FailsAmong host (List.range' 1 upTo) cause stopped := by
  refine turns_cases host _ hrest hwatches List.nodup_range' fun task htask => ?_
  have hlt := (List.mem_range'_1.1 htask).2
  exact ⟨ne_bootTask_of_mem_range' task htask, Nat.le_trans (Nat.lt_one_add_iff.1 hlt) hle⟩

/-- A round leaves the machine at rest. -/
theorem AtRest.runOnce (hrest : machine.AtRest) {count : Nat}
    (hround : machine.runOnce host = .ok count after) : after.AtRest := by
  rcases round_cases host hrest machine.watches_watched (Nat.le_refl _) with
    ⟨last, _, turns, hturns⟩ | ⟨cause, stopped, hfailed, -⟩
  · rw [Machine.runOnce, hturns.runs] at hround
    cases hround
    exact hturns.rest
  · rw [Machine.runOnce, hfailed] at hround
    cases hround

/-- Whatever the boot context has done, between its calls the machine is at rest. -/
theorem Reachable.atRest (hreachable : Reachable host machine) : machine.AtRest := by
  induction hreachable with
  | start shared bootCoreOnly => exact ⟨rfl, rfl⟩
  | acts hreachable shared ih => exact ⟨ih.current, ih.size⟩
  | creates hreachable hcreate ih =>
    have hgrew := create_grew hcreate
    exact ⟨hgrew.current.trans ih.current, hgrew.size ih.size⟩
  | moves hreachable core ih => exact ⟨ih.current, ih.size⟩
  | rounds hreachable hround ih => exact ih.runOnce hround

/-- A round between whose turns no thread has the processor, and in which a watcher sees one turn
of each thread that was runnable when it began, in ascending order.  Within a turn every touch of
the shared state finds that thread to be the current one, and only threads with higher numbers
than all before the round are created. -/
structure OneTurnEach (host : Host ε σ) (machine : Machine ε σ) (count : Nat)
    (next : Machine ε σ) : Prop where
  live : count = machine.scheduler.live
  current : next.scheduler.current = bootTask
  between : ∀ upTo ≤ machine.scheduler.created, ∃ given reached,
    machine.turns host (List.range' 1 upTo) 0 = .ok given reached ∧
      reached.scheduler.current = bootTask
  seen : ∃ (watcher : Machine ε (Watched σ)) (turns : List TurnSeen),
    machine.watched.runOnce host.watched = .ok count watcher ∧ watcher.Watches next ∧
      watcher.shared.seen = turns.flatMap TurnSeen.sights ∧
      turns.map TurnSeen.task = machine.scheduler.runnableThreads ∧
      ∀ turn ∈ turns, next.scheduler.state? turn.task = some turn.stateAfter ∧
        ∀ sight ∈ turn.during,
          Coroutine.Sight.Within machine.scheduler.created turn.task sight

/-- The turns of the first threads of a row were given if those of the whole row were. -/
theorem turns_append (host : Host ε σ) (before behind : List TaskId) (count : Nat)
    (machine : Machine ε σ) :
    machine.turns host (before ++ behind) count =
      match machine.turns host before count with
      | .ok given reached => reached.turns host behind given
      | .failed cause stopped => .failed cause stopped := by
  induction before generalizing count machine with
  | nil => rfl
  | cons task rest ih =>
    by_cases hrunnable : machine.scheduler.isRunnable task = true
    · cases hresume : machine.resume host task with
      | ok value after =>
        rw [List.cons_append, turns_cons_runnable hrunnable hresume,
          turns_cons_runnable hrunnable hresume]
        exact ih (count + 1) after
      | failed cause stopped =>
        simp only [List.cons_append, turns, hrunnable, hresume, if_true]
    · rw [List.cons_append, turns_cons_ended hrunnable, turns_cons_ended hrunnable]
      exact ih count machine

/-- Unless a turn meets a fault, a round from a machine of the boot context gives each thread
that is runnable one turn and no other thread any, and counts the live threads. -/
theorem round_gives_one_turn_each (hreachable : machine.Reachable host) :
    (∃ count next, machine.runOnce host = .ok count next ∧
      OneTurnEach host machine count next) ∨
    ∃ cause stopped, machine.runOnce host = .failed cause stopped ∧
      machine.FailsAmong host (List.range' 1 machine.scheduler.created) cause stopped := by
  have hrest := hreachable.atRest
  rcases round_cases host hrest machine.watches_watched (Nat.le_refl _) with
    ⟨next, watcher, turns, hturns⟩ | ⟨cause, stopped, hfailed, hfails⟩
  · left
    have hround : machine.runOnce host = .ok turns.length next := by
      rw [runOnce, hturns.runs, Nat.zero_add]
    refine ⟨turns.length, next, hround, ?_, hturns.rest.current, fun upTo hle => ?_, watcher,
      turns, ?_, hturns.watches, ?_, hturns.order, fun turn hturn =>
        ⟨hturns.own turn hturn, hturns.during turn hturn⟩⟩
    · rw [← Scheduler.length_runnableThreads, Scheduler.runnableThreads, ← hturns.order,
        List.length_map]
    · rcases round_cases host hrest machine.watches_watched hle with
        ⟨reached, _, first, hfirst⟩ | ⟨cause, stopped, hfailed, -⟩
      · exact ⟨_, reached, hfirst.runs 0, hfirst.rest.current⟩
      · -- A fault among the first threads would have ended the whole round.
        have hsplit : List.range' 1 machine.scheduler.created =
            List.range' 1 upTo ++ List.range' (1 + upTo) (machine.scheduler.created - upTo) := by
          rw [List.range'_append_1, Nat.add_sub_cancel' hle]
        rw [runOnce, hsplit, turns_append, hfailed] at hround
        cases hround
    · rw [runOnce]
      exact (hturns.watched 0).trans (by rw [Nat.zero_add])
    · rw [hturns.seen]
      rfl
  · exact Or.inr ⟨cause, stopped, hfailed 0, hfails⟩

/-- Threads that start one of a second kind and return, and threads that wait for one round. -/
def startingHost : Host Bool Unit where
  body
    | true => .spawn false fun _ => .done ()
    | false => .pause (.done ())
  notify _ shared := shared

/-- One thread has been created and has not run. -/
def oneStarted : Machine Bool Unit where
  scheduler := { threads := #[.runnable] }
  code := #[startingHost.body true]
  shared := ()

/-- Two threads have been created and have not run. -/
def twoStarted : Machine Bool Unit where
  scheduler := { threads := #[.runnable, .runnable] }
  code := #[startingHost.body true, startingHost.body false]
  shared := ()

/-- Of two threads, one starts a third and returns; the third has no turn in that round. -/
theorem round_gives_one_turn_each_of_two :
    Reachable startingHost twoStarted ∧ twoStarted.scheduler.runnableThreads = [1, 2] ∧
      ∃ next, twoStarted.runOnce startingHost = .ok 2 next ∧
        next.scheduler.runnableThreads = [2, 3] ∧
        OneTurnEach startingHost twoStarted 2 next := by
  have hfirst : create startingHost true { shared := () } = .ok 1 oneStarted := rfl
  have hsecond : oneStarted.create startingHost false = .ok 2 twoStarted := rfl
  have hreachable : Reachable startingHost twoStarted :=
    .creates (.creates (.start () false) hfirst) hsecond
  have hround : twoStarted.runOnce startingHost = .ok 2
      { scheduler := { threads := #[.terminated, .runnable, .runnable] }
        code := #[.done (), .done (), .pause (.done ())]
        shared := () } := rfl
  rcases round_gives_one_turn_each hreachable with
    ⟨count, next, hruns, heach⟩ | ⟨cause, stopped, hfailed, -⟩
  · rw [hround] at hruns
    cases hruns
    exact ⟨hreachable, by decide, _, hround, by decide, heach⟩
  · rw [hround] at hfailed
    cases hfailed

end Machine

end DriverHost
