import DriverHost.Proofs.Rounds
import DriverHost.Proofs.Workload

/-!
# Workloads finish

A waiting thread uses up its turns without getting on, so a round need not do the work of every
thread.  But a side is taken only while some thread is inside its section, and that thread does
not wait.  So every round with a thread left to run gets some thread on, the work left to do gets
less from round to round, and the rounds come to an end, with every thread ended and every lock
given back.

Main results:

- Structure `Workload.Stands`: the invariant, which ties the code and the locks to the threads'
  positions.
- Theorem `Workload.Stands.turns`: what the turns of a number of threads do.
- Theorem `Workload.Stands.runOnce`: a round with a thread left to run gets some thread on.
- Theorem `Workload.Stands.run`: the rounds come to an end.
- Theorem `Workload.finishes_lock_disciplined`: what a boot context that creates threads and runs
  them is left with.
-/

namespace DriverHost

open LockRoom (Side)

namespace Workload

/-- Threads inside a section of a side. -/
def inside (positions : List Position) : Side → Nat :=
  fun side => (positions.map fun position => position.holds side).sum

/-- The threads and all that are still to be created. -/
def tasks (positions : List Position) : Nat :=
  (positions.map Position.tasks).sum

/-- Bounds the turns that are needed if nobody has to wait. -/
def work (positions : List Position) : Nat :=
  (positions.map Position.work).sum

/-- At a switch of the boot context, the threads of a machine are at some positions. -/
structure Stands (initial : LockRoom) (positions : List Position)
    (machine : Machine Program LockRoom) : Prop where
  threads : machine.scheduler.threads.toList = positions.map Position.state
  code : machine.code.toList = positions.map Position.code
  accounts : LockRoom.Accounts initial (inside positions) machine.shared
  current : machine.scheduler.current = bootTask
  mayLock : ∀ task, (machine.scheduler.switch task).mayLock = true

variable {initial : LockRoom} {machine : Machine Program LockRoom}
  {before behind positions : List Position} {position next : Position} {children : List Program}

/-! ## Sums over the threads -/

/-- A position adds what it holds, wherever among the others it stands. -/
theorem inside_middle (before behind : List Position) (position : Position) :
    inside (before ++ position :: behind) = inside (before ++ behind) + position.holds := by
  funext side
  simp only [inside, List.map_append, List.map_cons, List.sum_append, List.sum_cons,
    Pi.add_apply]
  omega

/-- Threads that have not begun hold nothing. -/
theorem inside_ready (positions : List Position) (children : List Program) :
    inside (positions ++ children.map .ready) = inside positions := by
  funext side
  simp [inside, Function.comp_def, List.map_const']

theorem inside_eq_zero (hnobody : ∀ position ∈ positions, position.holds = 0) :
    inside positions = 0 := by
  funext side
  have hnone : (positions.map fun position => position.holds side) = positions.map fun _ => 0 :=
    List.map_congr_left fun position hposition => congrFun (hnobody position hposition) side
  simp [inside, hnone, List.map_const']

/-- No side is held more often than there are threads. -/
theorem inside_le_length (positions : List Position) (side : Side) :
    inside positions side ≤ positions.length := by
  induction positions with
  | nil => exact Nat.le_refl 0
  | cons position rest ih =>
    have hone : position.holds side ≤ 1 := by
      cases position <;> simp
      split <;> omega
    simp only [inside, List.map_cons, List.sum_cons, List.length_cons] at ih ⊢
    omega

/-- The threads there are count among those there will be. -/
theorem length_le_tasks (positions : List Position) : positions.length ≤ tasks positions := by
  induction positions with
  | nil => exact Nat.le_refl 0
  | cons position rest ih =>
    have hone := position.tasks_pos
    simp only [tasks, List.map_cons, List.sum_cons, List.length_cons] at ih ⊢
    omega

/-- A thread that takes a turn and starts its children leaves the number of threads there will ever
be as it was. -/
theorem tasks_after (htasks : next.tasks + (children.map Program.tasks).sum = position.tasks) :
    tasks (before ++ next :: (behind ++ children.map .ready)) =
      tasks (before ++ position :: behind) := by
  have hchildren : (children.map Position.ready).map Position.tasks =
      children.map Program.tasks := by simp [Function.comp_def, Position.tasks]
  simp only [tasks, List.map_append, List.map_cons, List.sum_append, List.sum_cons, hchildren]
  omega

/-- A thread that takes a turn and starts its children leaves less work than there was. -/
theorem work_after (hwork : next.work + (children.map Program.work).sum < position.work) :
    work (before ++ next :: (behind ++ children.map .ready)) <
      work (before ++ position :: behind) := by
  have hchildren : (children.map Position.ready).map Position.work =
      children.map Program.work := by simp [Function.comp_def, Position.work]
  simp only [work, List.map_append, List.map_cons, List.sum_append, List.sum_cons, hchildren]
  omega

/-- Ended threads have no work left. -/
theorem work_eq_zero (hended : ∀ position ∈ positions, position = .ended) :
    work positions = 0 := by
  induction positions with
  | nil => rfl
  | cons position rest ih =>
    obtain ⟨rfl, hrest⟩ := List.forall_mem_cons.1 hended
    simp only [work, List.map_cons, List.sum_cons] at ih ⊢
    rw [ih hrest]
    rfl

theorem tasks_of_ended (hended : ∀ position ∈ positions, position = .ended) :
    tasks positions = positions.length := by
  induction positions with
  | nil => rfl
  | cons position rest ih =>
    obtain ⟨rfl, hrest⟩ := List.forall_mem_cons.1 hended
    simp only [tasks, List.map_cons, List.sum_cons, List.length_cons] at ih ⊢
    rw [ih hrest, Nat.add_comm]
    rfl

/-- No thread can run exactly if each has ended. -/
theorem count_eq_zero_iff :
    (positions.countP fun position => position.state == .runnable) = 0 ↔
      ∀ position ∈ positions, position = .ended := by
  rw [List.countP_eq_zero]
  refine forall₂_congr fun position _ => ⟨fun hended => ?_, ?_⟩
  · exact Position.ended_of_not_runnable (by simpa using hended)
  · rintro rfl
    decide

/-! ## One turn -/

/-- A thread's code is what its position says. -/
theorem Stands.rest? (hstands : Stands initial (before ++ position :: behind) machine) :
    machine.rest? (before.length + 1) = some position.code := by
  rw [Machine.rest?, ← Array.getElem?_toList, hstands.code]
  simp

theorem Stands.created (hstands : Stands initial positions machine) :
    machine.scheduler.created = positions.length := by
  rw [Scheduler.created, ← Array.length_toList, hstands.threads, List.length_map]

/-- A turn that leaves a thread at a position leaves it to the boot context, with the thread's
state and code those of the position. -/
theorem resume_of_turn {last : Machine Program LockRoom} {index : Nat}
    {code : Coroutine Program LockRoom Unit} (hrest : machine.rest? (index + 1) = some code)
    (hturn : code.turn Program.host (machine.switch Program.host (index + 1)) = next.turn last)
    (hlive : last.scheduler.threads[index]? = some .runnable) :
    ∃ after, machine.resume Program.host (index + 1) = .ok () after ∧
      after.shared = last.shared ∧ after.scheduler.current = bootTask ∧
      (∀ task, (after.scheduler.switch task).mayLock = (last.scheduler.switch task).mayLock) ∧
      after.scheduler.threads.toList = last.scheduler.threads.toList.set index next.state ∧
      after.code.toList = last.code.toList.set index next.code := by
  have hsame : last.scheduler.threads.toList.set index .runnable =
      last.scheduler.threads.toList := by
    rw [← Array.getElem?_toList] at hlive
    obtain ⟨hlt, hthread⟩ := List.getElem?_eq_some_iff.1 hlive
    rw [← hthread, List.set_getElem_self]
  by_cases hstate : next.state = .runnable
  · rw [next.turn_of_runnable hstate] at hturn
    refine ⟨(last.setRest next.code (index + 1)).switch Program.host bootTask, ?_, rfl, rfl,
      fun _ => rfl, ?_, ?_⟩
    · simp only [Machine.resume, hrest, hturn]
    · rw [hstate]
      exact hsame.symm
    · simp [Machine.setRest, Machine.switch, Machine.tell]
  · obtain rfl := Position.ended_of_not_runnable hstate
    refine ⟨Machine.finish Program.host (index + 1) (last.switch Program.host bootTask), ?_, rfl,
      rfl, fun _ => rfl, ?_, ?_⟩
    · simp only [Machine.resume, hrest, hturn, Position.turn]
    · simp [Machine.finish, Machine.switch, Machine.tell, Scheduler.terminate, Scheduler.switch,
        Position.state]
    · simp [Machine.finish, Machine.switch, Machine.tell, Machine.setRest, Position.code]

/-- The threads after one of them has got on. -/
theorem Stands.after {last : Machine Program LockRoom}
    (hstands : Stands initial (before ++ position :: behind) machine)
    (hlive : position.state = .runnable)
    (hgotOn : GotOn initial (inside (before ++ behind)) position next children
      (machine.switch Program.host (before.length + 1)) last)
    (hturn : position.code.turn Program.host (machine.switch Program.host (before.length + 1)) =
      next.turn last) :
    ∃ after, machine.resume Program.host (before.length + 1) = .ok () after ∧
      Stands initial (before ++ next :: (behind ++ children.map .ready)) after := by
  have hthreads : last.scheduler.threads.toList = before.map Position.state ++
      .runnable :: (behind.map Position.state ++ children.map fun _ => TaskState.runnable) := by
    rw [hgotOn.threads]
    simp [Machine.switch, Machine.tell, Scheduler.switch, hstands.threads, hlive]
  have hcode : last.code.toList = before.map Position.code ++
      position.code :: (behind.map Position.code ++ children.map Program.code) := by
    rw [hgotOn.code]
    simp [Machine.switch, Machine.tell, hstands.code]
  have hown : last.scheduler.threads[before.length]? = some .runnable := by
    rw [← Array.getElem?_toList, hthreads]
    simp
  obtain ⟨after, hresume, hshared, hcurrent, hmay, hthreadsAfter, hcodeAfter⟩ :=
    resume_of_turn hstands.rest? hturn hown
  refine ⟨after, hresume, ?_, ?_, ?_, hcurrent, fun task => ?_⟩
  · rw [hthreadsAfter, hthreads]
    simp [Position.state, Function.comp_def]
  · rw [hcodeAfter, hcode]
    simp [Position.code, Function.comp_def]
  · rw [hshared, inside_middle, ← List.append_assoc, inside_ready]
    exact hgotOn.accounts
  · rw [hmay, hgotOn.keeps]
    exact hstands.mayLock task

/-- Resuming a thread that does nothing leaves the machine as it is. -/
theorem Stands.left_alone (hstands : Stands initial (before ++ position :: behind) machine) :
    ((machine.switch Program.host (before.length + 1)).setRest position.code
      (before.length + 1)).switch Program.host bootTask = machine := by
  have hcode : machine.code.setIfInBounds before.length position.code = machine.code := by
    apply Array.toList_inj.1
    simp [hstands.code]
  have hcurrent : { machine.scheduler with current := bootTask } = machine.scheduler := by
    rw [← hstands.current]
  simp only [Machine.switch, Machine.setRest, Machine.tell, Scheduler.switch, hcode, hcurrent]
  rfl

/-- A turn gets its thread on, or finds it waiting for a side that is taken and changes nothing. -/
theorem Stands.resume_cases (hstands : Stands initial (before ++ position :: behind) machine)
    (hfew : tasks (before ++ position :: behind) ≤ maxThreads)
    (hlive : position.state = .runnable) :
    (∃ (next : Position) (children : List Program) (after : Machine Program LockRoom),
      machine.resume Program.host (before.length + 1) = .ok () after ∧
      Stands initial (before ++ next :: (behind ++ children.map .ready)) after ∧
      tasks (before ++ next :: (behind ++ children.map .ready)) =
        tasks (before ++ position :: behind) ∧
      work (before ++ next :: (behind ++ children.map .ready)) <
        work (before ++ position :: behind)) ∨
    machine.resume Program.host (before.length + 1) = .ok () machine ∧
      position.Stuck machine.shared := by
  have hlength := length_le_tasks (before ++ behind)
  have htasks : tasks (before ++ position :: behind) =
      tasks (before ++ behind) + position.tasks := by
    simp only [tasks, List.map_append, List.map_cons, List.sum_append, List.sum_cons]
    omega
  have hone := position.tasks_pos
  have haccounts : LockRoom.Accounts initial (inside (before ++ behind) + position.holds)
      (machine.switch Program.host (before.length + 1)).shared := by
    rw [← inside_middle]
    exact hstands.accounts
  have hothers : ∀ side, inside (before ++ behind) side < maxThreads := by
    intro side
    have hinside := inside_le_length (before ++ behind) side
    omega
  have hroom : (machine.switch Program.host (before.length + 1)).scheduler.created +
      position.tasks ≤ maxThreads + 1 := by
    have hcreated := hstands.created
    simp only [List.length_append, List.length_cons] at hcreated hlength
    simp only [Machine.scheduler_switch, Scheduler.created_switch, hcreated]
    omega
  rcases Position.turn_cases hlive haccounts hothers (hstands.mayLock _) hroom with
    ⟨next, children, last, hturn, hgotOn⟩ | ⟨hturn, hstuck⟩
  · obtain ⟨after, hresume, hafter⟩ := hstands.after hlive hgotOn hturn
    exact Or.inl ⟨next, children, after, hresume, hafter, tasks_after hgotOn.tasks,
      work_after hgotOn.work⟩
  · right
    refine ⟨?_, hstuck⟩
    rw [Position.turn_of_runnable hlive] at hturn
    simp only [Machine.resume, hstands.rest?, hturn]
    congr 1
    exact hstands.left_alone

/-- Turns of a number of threads in a row have led from some positions to others: someone got on,
or all of these threads are stuck and nothing has changed. -/
structure TurnsLead (initial : LockRoom) (given : List Position) (positions after : List Position)
    (machine last : Machine Program LockRoom) : Prop where
  stands : Stands initial after last
  tasks : tasks after = tasks positions
  work : work after < work positions ∨
    (after = positions ∧ last = machine ∧ ∀ position ∈ given, position.Stuck machine.shared)

/-- The scheduler would run a thread exactly if its position can go on. -/
theorem Stands.isRunnable (hstands : Stands initial (before ++ position :: behind) machine) :
    machine.scheduler.isRunnable (before.length + 1) = (position.state == .runnable) := by
  rw [Scheduler.isRunnable, Scheduler.state?_succ, ← Array.getElem?_toList, hstands.threads]
  simp

/-- Threads that follow each other are given their turns. -/
theorem Stands.turns (given : List Position) {started : List Position}
    (hstands : Stands initial (before ++ (given ++ started)) machine)
    (hfew : tasks (before ++ (given ++ started)) ≤ maxThreads) :
    ∃ after last, (∀ count, machine.turns Program.host
        (List.range' (before.length + 1) given.length) count =
        .ok (count + given.countP fun position => position.state == .runnable) last) ∧
      TurnsLead initial given (before ++ (given ++ started)) after machine last := by
  induction given generalizing before started machine with
  | nil =>
    refine ⟨_, machine, fun count => rfl, hstands, rfl, Or.inr ⟨rfl, rfl, by simp⟩⟩
  | cons position rest ih =>
    rw [List.cons_append] at hstands hfew ⊢
    have hrow : ∀ position : Position, (List.range' (before.length + 1) (rest.length + 1)) =
        (before.length + 1) :: List.range' ((before ++ [position]).length + 1) rest.length :=
      fun position => by simp [List.range'_succ]
    by_cases hlive : position.state = .runnable
    · have hrunnable : machine.scheduler.isRunnable (before.length + 1) = true := by
        rw [hstands.isRunnable, hlive]
        rfl
      have hcount : (position :: rest).countP (fun position => position.state == .runnable) =
          (rest.countP fun position => position.state == .runnable) + 1 := by
        simp [hlive]
      rcases hstands.resume_cases hfew hlive with
        ⟨next, children, reached, hresume, hreached, htasks, hwork⟩ | ⟨hresume, hstuck⟩
      · rw [List.append_cons, List.append_assoc rest] at hreached htasks hwork
        obtain ⟨after, last, hturns, hlead⟩ := ih hreached (htasks ▸ hfew)
        refine ⟨after, last, fun count => ?_, hlead.stands, hlead.tasks.trans htasks, ?_⟩
        · rw [List.length_cons, hrow next, Machine.turns_cons_runnable hrunnable hresume, hturns]
          rw [hcount, Nat.add_assoc, Nat.add_comm 1]
        · left
          rcases hlead.work with hless | ⟨rfl, -, -⟩
          · exact Nat.lt_trans hless hwork
          · exact hwork
      · rw [List.append_cons] at hstands hfew ⊢
        obtain ⟨after, last, hturns, hlead⟩ := ih hstands hfew
        refine ⟨after, last, fun count => ?_, hlead.stands, hlead.tasks, hlead.work.imp_right ?_⟩
        · rw [List.length_cons, hrow position, Machine.turns_cons_runnable hrunnable hresume,
            hturns]
          rw [hcount, Nat.add_assoc, Nat.add_comm 1]
        · rintro ⟨hsame, hlast, hrest⟩
          exact ⟨hsame, hlast, List.forall_mem_cons.2 ⟨hstuck, hrest⟩⟩
    · have hended : ¬ machine.scheduler.isRunnable (before.length + 1) = true := by
        rw [hstands.isRunnable]
        simpa using hlive
      rw [List.append_cons] at hstands hfew ⊢
      obtain ⟨after, last, hturns, hlead⟩ := ih hstands hfew
      refine ⟨after, last, fun count => ?_, hlead.stands, hlead.tasks, hlead.work.imp_right ?_⟩
      · rw [List.length_cons, hrow position, Machine.turns_cons_ended hended, hturns]
        simp [hlive]
      · rintro ⟨hsame, hlast, hrest⟩
        obtain rfl := Position.ended_of_not_runnable hlive
        exact ⟨hsame, hlast, List.forall_mem_cons.2 ⟨.ended, hrest⟩⟩

/-! ## Rounds -/

/-- If all threads are stuck they have all ended: nobody is inside a section, so no side is taken
that a thread could wait for. -/
theorem Stands.ended_of_stuck (hfree : initial.Free) (hstands : Stands initial positions machine)
    (hstuck : ∀ position ∈ positions, position.Stuck machine.shared) :
    ∀ position ∈ positions, position = .ended := by
  have hnobody : inside positions = 0 := by
    apply inside_eq_zero
    intro position hposition
    cases hstuck position hposition <;> rfl
  have haccounts := hstands.accounts
  rw [hnobody] at haccounts
  have hall := haccounts.free hfree
  intro position hposition
  cases hstuck position hposition with
  | ended => rfl
  | waiting htaken =>
    obtain ⟨room, hroom⟩ := hall.taken? _
    rw [hroom] at htaken
    cases htaken

/-- A round gives every thread that has not ended a turn, and gets some thread on if there is
one. -/
theorem Stands.runOnce (hfree : initial.Free) (hstands : Stands initial positions machine)
    (hfew : tasks positions ≤ maxThreads) :
    ∃ after last, machine.runOnce Program.host =
        .ok (positions.countP fun position => position.state == .runnable) last ∧
      Stands initial after last ∧ tasks after = tasks positions ∧
      (work after < work positions ∨
        after = positions ∧ ∀ position ∈ positions, position = .ended) := by
  have hrow : positions = [] ++ (positions ++ []) := by simp
  rw [hrow] at hstands hfew
  obtain ⟨after, last, hturns, hlead⟩ := hstands.turns positions hfew
  rw [← hrow] at hstands hlead
  refine ⟨after, last, ?_, hlead.stands, hlead.tasks, hlead.work.imp_right ?_⟩
  · rw [Machine.runOnce, hstands.created]
    exact (hturns 0).trans (by rw [Nat.zero_add])
  · rintro ⟨hsame, -, hstuck⟩
    exact ⟨hsame, hstands.ended_of_stuck hfree hstuck⟩

/-- The rounds come to an end, after no more of them than there is work to do. -/
theorem Stands.run (hfree : initial.Free) {limit : Nat}
    (hstands : Stands initial positions machine) (hfew : tasks positions ≤ maxThreads)
    (hlimit : work positions < limit) :
    ∃ after last, machine.run Program.host limit = .ok () last ∧ Stands initial after last ∧
      tasks after = tasks positions ∧ ∀ position ∈ after, position = .ended := by
  induction limit generalizing positions machine with
  | zero => exact absurd hlimit (Nat.not_lt_zero _)
  | succ limit ih =>
    obtain ⟨reached, next, hround, hreached, htasks, hwork⟩ := hstands.runOnce hfree hfew
    cases hcount : positions.countP fun position => position.state == .runnable with
    | zero =>
      rw [hcount] at hround
      have hnone := count_eq_zero_iff.1 hcount
      rcases hwork with hless | ⟨rfl, hended⟩
      · rw [work_eq_zero hnone] at hless
        exact absurd hless (Nat.not_lt_zero _)
      · exact ⟨reached, next, by rw [Machine.run, hround], hreached, htasks, hended⟩
    | succ count =>
      rw [hcount] at hround
      rcases hwork with hless | ⟨-, hended⟩
      · obtain ⟨after, last, hrun, hafter, hafterTasks, hended⟩ :=
          ih hreached (htasks ▸ hfew) (Nat.lt_of_lt_of_le hless (Nat.le_of_lt_succ hlimit))
        refine ⟨after, last, ?_, hafter, hafterTasks.trans htasks, hended⟩
        rw [Machine.run, hround]
        exact hrun
      · rw [count_eq_zero_iff.2 hended] at hcount
        cases hcount

/-! ## From the boot context -/

/-- When each thread has ended, none is live. -/
theorem Stands.live (hstands : Stands initial positions machine)
    (hended : ∀ position ∈ positions, position = .ended) : machine.scheduler.live = 0 := by
  rw [Scheduler.live, hstands.threads, List.countP_map]
  exact count_eq_zero_iff.2 hended

/-- When each thread has ended, the table has them all as terminated. -/
theorem Stands.terminated (hstands : Stands initial positions machine)
    (hended : ∀ position ∈ positions, position = .ended) {task : TaskId} (htask : task ≠ bootTask)
    (hle : task ≤ machine.scheduler.created) :
    machine.scheduler.state? task = some .terminated := by
  cases task with
  | zero => exact absurd rfl htask
  | succ index =>
    rw [hstands.created] at hle
    have hposition := hended positions[index] (List.getElem_mem hle)
    rw [Scheduler.state?_succ, ← Array.getElem?_toList, hstands.threads, List.getElem?_map,
      List.getElem?_eq_getElem hle, hposition]
    rfl

/-- A new thread stands behind the others, ready to begin. -/
theorem Stands.create (hstands : Stands initial positions machine) (child : Program) :
    Stands initial (positions ++ [.ready child]) (machine.withChild child) := by
  refine ⟨?_, ?_, ?_, hstands.current, hstands.mayLock⟩
  · simp [Machine.withChild, hstands.threads, Position.state]
  · simp [Machine.withChild, hstands.code, Position.code]
  · have hready : inside (positions ++ [.ready child]) = inside positions :=
      inside_ready positions [child]
    rw [hready]
    exact hstands.accounts

/-- What the boot context does: it creates threads, gives them a round now and then, and at last
runs them all. -/
inductive BootProgram where
  | run
  | yield (next : BootProgram)
  | create (child : Program) (next : BootProgram)
deriving Repr

namespace BootProgram

def code : BootProgram → Coroutine Program LockRoom Unit
  | run => .drain (.done ())
  | yield next => .pause next.code
  | create child next => .spawn child fun _ => next.code

/-- The threads of a workload, those included that other threads create. -/
def tasks : BootProgram → Nat
  | run => 0
  | yield next => next.tasks
  | create child next => child.tasks + next.tasks

/-- Bounds the rounds that a workload needs. -/
def work : BootProgram → Nat
  | run => 0
  | yield next => next.work
  | create child next => child.work + next.work

end BootProgram

/-- What the boot context does leads to a machine whose threads have all ended. -/
theorem Stands.boot (hfree : initial.Free) (program : BootProgram) {limit : Nat}
    (hstands : Stands initial positions machine)
    (hfew : tasks positions + program.tasks ≤ maxThreads)
    (hlimit : work positions + program.work < limit) :
    ∃ after last, Machine.boot Program.host limit program.code machine = .ok () last ∧
      Stands initial after last ∧ tasks after = tasks positions + program.tasks ∧
      ∀ position ∈ after, position = .ended := by
  induction program generalizing positions machine with
  | run =>
    obtain ⟨after, last, hrun, hafter, htasks, hended⟩ := hstands.run hfree hfew hlimit
    refine ⟨after, last, ?_, hafter, htasks, hended⟩
    simp only [BootProgram.code, Machine.boot, hrun]
  | yield next ih =>
    simp only [BootProgram.tasks, BootProgram.work] at hfew hlimit ⊢
    obtain ⟨reached, behind, hround, hreached, htasks, hwork⟩ :=
      hstands.runOnce hfree (Nat.le_trans (Nat.le_add_right _ _) hfew)
    have hless : work reached ≤ work positions := by
      rcases hwork with hless | ⟨rfl, -⟩
      · exact Nat.le_of_lt hless
      · exact Nat.le_refl _
    rw [← htasks] at hfew ⊢
    obtain ⟨after, last, hboot, hafter⟩ := ih hreached hfew (by omega)
    refine ⟨after, last, ?_, hafter⟩
    simp only [BootProgram.code, Machine.boot, hround]
    exact hboot
  | create child next ih =>
    have hone := child.tasks_pos
    have hlength := length_le_tasks positions
    simp only [BootProgram.tasks, BootProgram.work] at hfew hlimit ⊢
    have htasks : tasks (positions ++ [.ready child]) = tasks positions + child.tasks := by
      simp [tasks, Position.tasks]
    have hwork : work (positions ++ [.ready child]) = work positions + child.work := by
      simp [work, Position.work]
    have hroom : machine.scheduler.created < maxThreads := by
      rw [hstands.created]
      omega
    rw [← Nat.add_assoc, ← htasks] at hfew ⊢
    rw [← Nat.add_assoc, ← hwork] at hlimit
    obtain ⟨after, last, hboot, hafter⟩ := ih (hstands.create child) hfew hlimit
    refine ⟨after, last, ?_, hafter⟩
    simp only [BootProgram.code, Machine.boot, machine.create_child child hroom]
    exact hboot

/-- All threads of a workload have been created and have ended, the boot context has the
processor, and every lock and every unit has been given back. -/
structure Finished (initial : LockRoom) (count : Nat) (last : Machine Program LockRoom) :
    Prop where
  created : last.scheduler.created = count
  terminated : ∀ task ≠ bootTask, task ≤ last.scheduler.created →
    last.scheduler.state? task = some .terminated
  live : last.scheduler.live = 0
  current : last.scheduler.current = bootTask
  mutexes : ∀ index, (last.shared.mutexes index).word = 0
  readWriteLocks : ∀ index, (last.shared.readWriteLocks index).word = 0
  semaphores : ∀ index, last.shared.semaphores index = initial.semaphores index

/-- A boot context that creates threads with critical sections, at most as many together as there
are numbers, and runs them gets the processor back with all of them ended and all locks as they
were.  The limit only gives runs that go on forever an end: any that exceeds the work of the
workload will do. -/
theorem finishes_lock_disciplined (program : BootProgram) (hfree : initial.Free)
    (bootCoreOnly : Bool) (hfew : program.tasks ≤ maxThreads) {limit : Nat}
    (hlimit : program.work < limit) :
    ∃ last, Machine.boot Program.host limit program.code
        { scheduler := { bootCoreOnly }, shared := initial } = .ok () last ∧
      Finished initial program.tasks last := by
  have hstart : Stands initial [] { scheduler := { bootCoreOnly }, shared := initial } := by
    refine ⟨rfl, rfl, hfree.accounts, rfl, fun task => ?_⟩
    simp [Scheduler.mayLock, Scheduler.switch]
  obtain ⟨after, last, hboot, hafter, htasks, hended⟩ := hstart.boot hfree program
    (by simpa [tasks] using hfew) (by simpa [work] using hlimit)
  have hnobody : inside after = 0 := by
    apply inside_eq_zero
    intro position hposition
    rw [hended position hposition, Position.holds_ended]
  have haccounts := hafter.accounts
  rw [hnobody] at haccounts
  obtain ⟨hmutexes, hlocks, hsemaphores⟩ := haccounts.of_nobody
  refine ⟨last, hboot, ?_, fun task htask hle => hafter.terminated hended htask hle,
    hafter.live hended, hafter.current, hmutexes, hlocks, hsemaphores⟩
  rw [hafter.created, ← tasks_of_ended hended, htasks]
  exact Nat.zero_add _

/-- Free locks, and semaphores with one unit each. -/
def freeLocks : LockRoom where
  mutexes _ := {}
  readWriteLocks _ := {}
  semaphores _ := { count := 1 }

/-- Two threads that need the same mutex; the first of them starts a third and takes a write side
that the second one wants to read. -/
def threeThreads : BootProgram :=
  .create (.critical (.mutex 0) 2 (.create (.critical (.unit 3) 1 .done)
      (.critical (.write 5) 1 .done)))
    (.yield (.create (.critical (.mutex 0) 1 (.critical (.read 5) 0 (.yield .done))) .run))

/-- Within 30 rounds the three threads have ended, and the locks are free again. -/
theorem finishes_lock_disciplined_of_three :
    ∃ last, Machine.boot Program.host 30 threeThreads.code { shared := freeLocks } = .ok () last ∧
      Finished freeLocks 3 last := by
  have hunit : (1 : UInt32) ≠ 0 := by decide
  have hfree : freeLocks.Free := ⟨fun _ => rfl, fun _ => rfl, fun _ => hunit⟩
  have htasks : threeThreads.tasks ≤ maxThreads := by decide
  have hwork : threeThreads.work < 30 := by decide
  exact finishes_lock_disciplined threeThreads hfree false htasks hwork

end Workload

end DriverHost
