import Mathlib.Data.List.Basic
import DriverHost.Proofs.Answers
import DriverHost.Proofs.ThreadHistory

/-!
# The lives of the threads

A thread is created under the next number, is runnable until its body returns, and has ended from
then on.  The table, the code that the threads have left and the notices about them change at
different moments, some of them while a thread has the processor.  Wherever the code of a task
runs, in the boot context or in the middle of a thread's turn, they nevertheless agree with each
other and with what has happened so far.

Main results:

- Inductive predicates `Machine.Past` and `Machine.Executing`: the machines on which the code of
  the boot context and of all tasks runs, with their histories.
- Theorems `Machine.reachable_iff_past` and `Machine.Past.boot`: every machine on which boot code
  runs has a past, and the interpreter of boot code prolongs it.
- Structure `Machine.Consistent` and theorem `Machine.threads_stay_consistent`: identities, states
  and notices of all threads wherever code runs.
-/

namespace DriverHost

variable {ε σ α β : Type}

/-! ## Entries of the table -/

namespace Scheduler

/-- An entry has the number that it is found under. -/
theorem task?_eq_some_iff {scheduler : Scheduler} {task : TaskId} {entry : TaskEntry} :
    scheduler.task? task = some entry ↔
      entry.id = task ∧ scheduler.state? task = some entry.state := by
  rw [task?, Option.map_eq_some_iff]
  constructor
  · rintro ⟨state, hstate, rfl⟩
    exact ⟨rfl, hstate⟩
  · rintro ⟨rfl, hstate⟩
    exact ⟨entry.state, hstate, rfl⟩

/-- The threads that have ended, in ascending order. -/
def endedThreads (scheduler : Scheduler) : List TaskId :=
  (List.range' 1 scheduler.created).filter fun task => scheduler.state? task == some .terminated

/-- A number belongs to a task if it is that of the boot context or of a thread that was
created. -/
theorem exists_state?_iff {scheduler : Scheduler} {task : TaskId} :
    (∃ state, scheduler.state? task = some state) ↔
      task = bootTask ∨ task ∈ List.range' 1 scheduler.created := by
  cases task with
  | zero => simp [state?, bootTask]
  | succ index =>
    rw [state?_succ, List.mem_range'_1, ← Option.isSome_iff_exists]
    simp [bootTask, created]
    omega

/-- A thread that was created is live or has ended. -/
theorem live_add_ended (scheduler : Scheduler) :
    scheduler.live + scheduler.endedThreads.length = scheduler.created := by
  have hrest : ∀ task ∈ List.range' 1 scheduler.created,
      (!scheduler.isRunnable task) = (scheduler.state? task == some .terminated) := by
    intro task htask
    obtain ⟨state, hstate⟩ := exists_state?_iff.2 (Or.inr htask)
    rw [isRunnable, hstate]
    cases state <;> rfl
  rw [← length_runnableThreads, runnableThreads, endedThreads, ← List.filter_congr hrest,
    ← List.length_eq_length_filter_add, List.length_range']

end Scheduler

/-! ## Where code runs -/

namespace Machine

/-- The machines on which boot code runs, each with its history: a new one, and what comes of one
when boot code touches the shared state, creates a thread, moves to a core, or has a round run. -/
inductive Past (host : Host ε σ) : Machine ε σ → List Sight → Prop
  | start (shared : σ) (bootCoreOnly : Bool) :
      Past host { shared, scheduler := { bootCoreOnly } } []
  | acts {machine seen} (hpast : Past host machine seen) (shared : σ) :
      Past host (machine.withShared shared) (seen ++ [.acted bootTask])
  | creates {machine next seen entry task} (hpast : Past host machine seen)
      (hcreate : machine.create host entry = .ok task next) :
      Past host next (seen ++ [.told (.created task)])
  | moves {machine seen} (hpast : Past host machine seen) (core : UInt64) :
      Past host { machine with scheduler := machine.scheduler.setCore core } seen
  | rounds {machine next seen count} (hpast : Past host machine seen)
      (hround : machine.runOnce host = .ok count next) :
      Past host next (seen ++ (machine.watched.runOnce host.watched).seen)

/-- The machines on which the code of a task runs, with what was seen up to there: that of the
boot context, or that of a thread at some point of a turn that a round gives it. -/
inductive Executing (host : Host ε σ) : TaskId → Machine ε σ → List Sight → Prop
  | boot {now seen} (hpast : Past host now seen) : Executing host bootTask now seen
  | thread {machine reached now : Machine ε σ} {seen during upTo given code}
      (hpast : Past host machine seen) (hupTo : upTo < machine.scheduler.created)
      (hturns : machine.turns host (List.range' 1 upTo) 0 = .ok given reached)
      (hrunnable : reached.scheduler.isRunnable (upTo + 1) = true)
      (hcode : reached.rest? (upTo + 1) = some code)
      (hpartway : code.Partway host (reached.switch host (upTo + 1)) during now) :
      Executing host (upTo + 1) now
        (seen ++ (machine.watched.turns host.watched (List.range' 1 upTo) 0).seen ++
          [.told (.switched (upTo + 1))] ++ during)

variable {host : Host ε σ} {machine now last : Machine ε σ} {seen : List Sight} {task : TaskId}

/-- Every machine on which boot code runs has a history, and no others have. -/
theorem reachable_iff_past : machine.Reachable host ↔ ∃ seen, machine.Past host seen := by
  constructor
  · intro hreachable
    induction hreachable with
    | start shared bootCoreOnly => exact ⟨_, .start shared bootCoreOnly⟩
    | acts hreachable shared ih => exact ⟨_, ih.choose_spec.acts shared⟩
    | creates hreachable hcreate ih => exact ⟨_, ih.choose_spec.creates hcreate⟩
    | moves hreachable core ih => exact ⟨_, ih.choose_spec.moves core⟩
    | rounds hreachable hround ih => exact ⟨_, ih.choose_spec.rounds hround⟩
  · rintro ⟨seen, hpast⟩
    induction hpast with
    | start shared bootCoreOnly => exact .start shared bootCoreOnly
    | acts hpast shared ih => exact .acts ih shared
    | creates hpast hcreate ih => exact .creates ih hcreate
    | moves hpast core ih => exact .moves ih core
    | rounds hpast hround ih => exact .rounds ih hround

/-- Where boot code runs no thread has the processor, and the history belongs to the table. -/
theorem Past.chronicle (hpast : machine.Past host seen) :
    machine.AtRest ∧ Chronicle machine.scheduler seen := by
  induction hpast with
  | start shared bootCoreOnly => exact ⟨⟨rfl, rfl⟩, .start bootCoreOnly⟩
  | acts hpast shared ih =>
    obtain ⟨hrest, hchronicle⟩ := ih
    exact ⟨⟨hrest.current, hrest.size⟩, hchronicle.runs (Or.inr rfl) hchronicle.isRunnable_boot⟩
  | creates hpast hcreate ih =>
    obtain ⟨hrest, hchronicle⟩ := ih
    have hgrew := create_grew hcreate
    obtain ⟨hroom, rfl, rfl⟩ := create_eq_ok_iff.1 hcreate
    exact ⟨⟨hgrew.current.trans hrest.current, hgrew.size hrest.size⟩, hchronicle.creates hroom⟩
  | moves hpast core ih =>
    obtain ⟨hrest, hchronicle⟩ := ih
    exact ⟨⟨hrest.current, hrest.size⟩, hchronicle.of_states rfl rfl⟩
  | rounds hpast hround ih =>
    obtain ⟨hrest, hchronicle⟩ := ih
    exact hchronicle.turns_seen hrest ne_bootTask_of_mem_range' hround

/-- Wherever the code of a task runs the history belongs to the table, every thread has its code,
and that task has the processor and can run. -/
theorem Executing.chronicle (hexecuting : now.Executing host task seen) :
    Chronicle now.scheduler seen ∧ now.code.size = now.scheduler.created ∧
      now.scheduler.current = task ∧ now.scheduler.isRunnable task = true := by
  cases hexecuting with
  | boot hpast =>
    obtain ⟨hrest, hchronicle⟩ := hpast.chronicle
    exact ⟨hchronicle, hrest.size, hrest.current, hchronicle.isRunnable_boot⟩
  | @thread machine reached _ seen during upTo given code hpast hupTo hturns hrunnable hcode
      hpartway =>
    obtain ⟨hrest, hchronicle⟩ := hpast.chronicle
    obtain ⟨hatRest, hreached⟩ := hchronicle.turns_seen hrest ne_bootTask_of_mem_range' hturns
    have hbegun : Chronicle (reached.switch host (upTo + 1)).scheduler _ :=
      (hreached.runs (Or.inl rfl) hrunnable).of_states rfl rfl
    obtain ⟨hnow, hstill⟩ := Chronicle.partway hpartway hbegun hrunnable
    exact ⟨hnow, hpartway.grew.size hatRest.size, hpartway.grew.current, hstill⟩

/-! ## The interpreter of boot code -/

/-- Boot code runs on a machine with a history that begins with a given one. -/
def Prolongs (host : Host ε σ) (seen : List Sight) (machine : Machine ε σ) : Prop :=
  ∃ more, machine.Past host (seen ++ more)

/-- What prolongs a longer history prolongs what that began with. -/
theorem Prolongs.behind {more : List Sight} (hlast : last.Prolongs host (seen ++ more)) :
    last.Prolongs host seen := by
  obtain ⟨rest, hpast⟩ := hlast
  rw [List.append_assoc] at hpast
  exact ⟨more ++ rest, hpast⟩

/-- The scheduling loop prolongs the history. -/
theorem Past.run {limit : Nat} (hpast : machine.Past host seen)
    (hrun : machine.run host limit = .ok () last) : last.Prolongs host seen := by
  induction limit generalizing machine seen with
  | zero => cases hrun
  | succ limit ih =>
    obtain ⟨count, reached, hround, rfl | hbehind⟩ := run_succ_eq_ok hrun
    · exact ⟨_, hpast.rounds hround⟩
    · exact .behind (ih (hpast.rounds hround) hbehind)

/-- A wait of the boot context prolongs the history by the rounds that it lets run. -/
theorem Past.attemptWithRounds {poll : Scheduler → Action σ (Option β)} {value : β} {limit : Nat}
    (hpast : machine.Past host seen)
    (hattempt : machine.attemptWithRounds host poll limit = .ok value last) :
    last.Prolongs host seen := by
  induction limit generalizing machine seen with
  | zero =>
    rcases attemptWithRounds_cases hattempt with
      ⟨shared, hpoll, rfl⟩ | ⟨shared, count, next, behind, hlimit, -⟩
    · exact ⟨_, hpast.acts shared⟩
    · cases hlimit
  | succ limit ih =>
    rcases attemptWithRounds_cases hattempt with
      ⟨shared, hpoll, rfl⟩ | ⟨shared, count, next, behind, hlimit, hpoll, hround, hnext⟩
    · exact ⟨_, hpast.acts shared⟩
    · cases hlimit
      exact .behind (.behind (ih ((hpast.acts shared).rounds hround) hnext))

/-- Where boot code ends, boot code is said to run, and the history there goes on from the history
where it began. -/
theorem Past.boot {code : Coroutine ε σ α} {value : α} {limit : Nat}
    (hpast : machine.Past host seen) (hboot : machine.boot host limit code = .ok value last) :
    last.Prolongs host seen := by
  induction code generalizing machine seen with
  | done value =>
    cases hboot
    exact ⟨[], by simpa using hpast⟩
  | attempt poll next ih =>
    obtain ⟨found, reached, hattempt, hbehind⟩ := boot_attempt_eq_ok hboot
    obtain ⟨more, hreached⟩ := hpast.attemptWithRounds hattempt
    exact .behind (ih found hreached hbehind)
  | pause next ih =>
    obtain ⟨count, reached, hround, hbehind⟩ := boot_pause_eq_ok hboot
    exact .behind (ih (hpast.rounds hround) hbehind)
  | spawn entry next ih =>
    obtain ⟨task, made, hcreate, hbehind⟩ := boot_spawn_eq_ok hboot
    exact .behind (ih task (hpast.creates hcreate) hbehind)
  | moveTo core next ih => exact ih (hpast.moves core) hboot
  | round next ih =>
    obtain ⟨count, reached, hround, hbehind⟩ := boot_round_eq_ok hboot
    exact .behind (ih count (hpast.rounds hround) hbehind)
  | drain next ih =>
    obtain ⟨reached, hrun, hbehind⟩ := boot_drain_eq_ok hboot
    obtain ⟨more, hreached⟩ := hpast.run hrun
    exact .behind (ih hreached hbehind)

/-! ## Consistency -/

/-- There is no number left for another thread: whoever asks for one, it is a bug that ends the
system and leaves table, code and shared state as they were. -/
def RefusesThreads (host : Host ε σ) (machine : Machine ε σ) : Prop :=
  ∀ entry, machine.create host entry = .failed (.bug none) machine ∧
    ∀ (α : Type) (next : TaskId → Coroutine ε σ α),
      (Coroutine.spawn entry next).turn host machine = .failed (.bug none) machine ∧
        ∀ limit, machine.boot host limit (.spawn entry next) = .failed (.bug none) machine

/-- A new thread has the next number, is runnable, and has the body of its entry point to run; the
entries of all other tasks are as before. -/
structure Enters (host : Host ε σ) (machine : Machine ε σ) (entry : ε) (next : Machine ε σ) :
    Prop where
  created : machine.create host entry = .ok (machine.scheduler.created + 1) next
  code : next.rest? (machine.scheduler.created + 1) = some (host.body entry)
  entries : ∀ task, next.scheduler.task? task =
    if task = machine.scheduler.created + 1 then some ⟨task, .runnable⟩
    else machine.scheduler.task? task

/-- The identities and states of all tasks on a machine, against what has happened before. -/
structure Consistent (host : Host ε σ) (now : Machine ε σ) (seen : List Sight) : Prop where
  /-- The first thread created has number one, the next number two, and so on. -/
  numbered : createdIn seen = List.range' 1 now.scheduler.created
  /-- The boot context and the threads created so far have an entry, and no others. -/
  listed : ∀ task, (∃ entry, now.scheduler.task? task = some entry) ↔
    task = bootTask ∨ task ∈ createdIn seen
  /-- The entry of a task has its number. -/
  named : ∀ task, ∀ entry ∈ now.scheduler.task? task, entry.id = task
  /-- A task has ended if its body has returned. -/
  ended : ∀ task, now.scheduler.task? task = some ⟨task, .terminated⟩ ↔ Sight.left task ∈ seen
  /-- A body returns at most once. -/
  once : ∀ task, seen.count (.left task) ≤ 1
  /-- A thread whose body has returned never runs again. -/
  gone : NoneReturns seen
  /-- The end of a thread is told once, and nothing else is told to have ended. -/
  told : ∀ task, seen.count (.told (.terminated task)) =
    if now.scheduler.task? task = some ⟨task, .terminated⟩ then 1 else 0
  /-- The live threads are those created that have not ended. -/
  live : now.scheduler.live = now.scheduler.created - now.scheduler.endedThreads.length
  /-- The boot context can always run. -/
  boot : now.scheduler.task? bootTask = some ⟨bootTask, .runnable⟩
  /-- There are never more threads than numbers. -/
  room : now.scheduler.created ≤ maxThreads
  /-- While numbers are left, creations succeed. -/
  enters : now.scheduler.created < maxThreads → ∀ entry, ∃ next, now.Enters host entry next
  /-- Then the next creation is a bug. -/
  refuses : now.scheduler.created = maxThreads → now.RefusesThreads host

/-- A thread that has ended has ended for good. -/
theorem Consistent.stays_ended {later : Machine ε σ} {more : List Sight}
    (hnow : now.Consistent host seen) (hlater : later.Consistent host (seen ++ more))
    (hended : now.scheduler.task? task = some ⟨task, .terminated⟩) :
    later.scheduler.task? task = some ⟨task, .terminated⟩ := by
  rw [hnow.ended] at hended
  rw [hlater.ended]
  exact List.mem_append_left more hended

/-- With room in the table, a new thread enters it. -/
theorem enters_of_room (host : Host ε σ) (hsize : machine.code.size = machine.scheduler.created)
    (hroom : machine.scheduler.created < maxThreads) (entry : ε) :
    machine.Enters host entry (machine.withThread host entry) := by
  refine ⟨?_, ?_, fun task => ?_⟩
  · rw [create_eq, if_pos hroom]
  · rw [rest?, withThread, tell, ← hsize]
    exact Array.getElem?_push_size
  · have hscheduler : (machine.withThread host entry).scheduler =
        { machine.scheduler with threads := machine.scheduler.threads.push .runnable } := rfl
    rw [hscheduler, Scheduler.task?, Scheduler.state?_push]
    split <;> rfl

/-- With the table full, no thread is created any more. -/
theorem refusesThreads_of_full (host : Host ε σ)
    (hfull : machine.scheduler.created = maxThreads) : machine.RefusesThreads host := by
  intro entry
  have hcreate : machine.create host entry = .failed (.bug none) machine := by
    rw [create_eq, if_neg (Nat.not_lt.2 (Nat.le_of_eq hfull.symm))]
  refine ⟨hcreate, fun α next => ⟨?_, fun limit => ?_⟩⟩
  · rw [Coroutine.turn, hcreate]
  · rw [Machine.boot, hcreate]

/-- A table and the history that belongs to it say all there is to say. -/
theorem consistent_of_chronicle (host : Host ε σ) (hchronicle : Chronicle now.scheduler seen)
    (hsize : now.code.size = now.scheduler.created) : now.Consistent host seen := by
  have hended : ∀ task, now.scheduler.task? task = some ⟨task, .terminated⟩ ↔
      Sight.left task ∈ seen := by
    intro task
    rw [Scheduler.task?_eq_some_iff, hchronicle.left]
    simp
  have honce := hchronicle.gone.count_left_le
  refine
    { numbered := hchronicle.created
      listed := fun task => ?_
      named := fun task entry hentry => (Scheduler.task?_eq_some_iff.1 hentry).1
      ended := hended
      once := honce
      gone := hchronicle.gone
      told := fun task => ?_
      live := Nat.eq_sub_of_add_eq now.scheduler.live_add_ended
      boot := Scheduler.task?_eq_some_iff.2 ⟨rfl, congrArg some hchronicle.boot⟩
      room := hchronicle.room
      enters := fun hroom entry => ⟨_, enters_of_room host hsize hroom entry⟩
      refuses := refusesThreads_of_full host }
  · rw [hchronicle.created, ← Scheduler.exists_state?_iff]
    simp [Scheduler.task?]
  · rw [hchronicle.told task]
    split
    · next hend =>
      have hleft := List.count_pos_iff.2 ((hended task).1 hend)
      exact Nat.le_antisymm (honce task) hleft
    · next hnot => exact List.count_eq_zero.2 fun hleft => hnot ((hended task).2 hleft)

/-- Wherever the code of a task runs, in the boot context or at any point of a thread's turn, the
identities and states of all tasks are consistent, and the task that runs can run. -/
theorem threads_stay_consistent (hexecuting : now.Executing host task seen) :
    now.Consistent host seen ∧ now.scheduler.current = task ∧
      now.scheduler.task? task = some ⟨task, .runnable⟩ := by
  obtain ⟨hchronicle, hsize, hcurrent, hrunnable⟩ := hexecuting.chronicle
  refine ⟨consistent_of_chronicle host hchronicle hsize, hcurrent, ?_⟩
  exact Scheduler.task?_eq_some_iff.2 ⟨rfl, Scheduler.isRunnable_iff.1 hrunnable⟩

/-- The first of two threads has started a third and returned. -/
def firstEnded : Machine Bool Unit where
  scheduler := { threads := #[.terminated, .runnable, .runnable] }
  code := #[.done (), .done (), .pause (.done ())]
  shared := ()

/-- In the second of two rounds the second thread runs, behind the end of the first one. -/
theorem threads_stay_consistent_behind_an_end :
    ∃ (now : Machine Bool Unit) (seen : List Sight), now.Executing startingHost 2 seen ∧
      now.Consistent startingHost seen ∧ createdIn seen = [1, 2, 3] ∧
      now.scheduler.task? 1 = some ⟨1, .terminated⟩ ∧
      seen.count (.told (.terminated 1)) = 1 ∧ now.scheduler.live = 2 := by
  have hfirst : create startingHost true { shared := () } = .ok 1 oneStarted := rfl
  have hsecond : oneStarted.create startingHost false = .ok 2 twoStarted := rfl
  have hround : twoStarted.runOnce startingHost = .ok 2 firstEnded := rfl
  have hskipped : firstEnded.turns startingHost (List.range' 1 1) 0 = .ok 0 firstEnded := rfl
  have hcode : firstEnded.rest? 2 = some (.done ()) := rfl
  have hpast := (((Past.start () false).creates hfirst).creates hsecond).rounds hround
  have hexecuting := Executing.thread hpast (by decide) hskipped (by decide) hcode .begins
  obtain ⟨hconsistent, -, -⟩ := threads_stay_consistent hexecuting
  have hnumbered := hconsistent.numbered.trans (rfl : List.range' 1 3 = [1, 2, 3])
  have htold := (hconsistent.told 1).trans (if_pos rfl)
  exact ⟨_, _, hexecuting, hconsistent, hnumbered, rfl, htold, rfl⟩

end Machine

end DriverHost
