import DriverHost.Coroutine

/-!
# Running tasks

A machine is the scheduler's table, the code each thread still has to run, and the state
they share.  Exactly one task runs at a time.  A turn of a thread runs its code up to the
next place where it gives the processor up.  A round gives every thread that was runnable
when it began one turn, in the order of their numbers.  The boot context is not a thread:
where it would give the processor up, it runs a round instead, so that whatever it waits for
can come about.

Threads cannot run rounds.  A thread that tried would hand itself the processor it holds and
wait for it forever, so it is blocked.

Main results:

- Definitions `Coroutine.turn`, `Machine.resume`, `Machine.runOnce` and `Machine.run`.
- Definition `Machine.boot` runs the boot context's code.
-/

namespace DriverHost

/-- What a machine tells about its tasks. -/
inductive Notice where
  /-- A thread was created. -/
  | created (task : TaskId)
  /-- A task has the processor now. -/
  | switched (task : TaskId)
  /-- The body of a thread has returned. -/
  | terminated (task : TaskId)
deriving DecidableEq, Repr

/-- The code behind the entry points, and what happens to the shared state when the machine
tells about its tasks. -/
structure Host (ε σ : Type) : Type 1 where
  /-- The body of a thread that starts at an entry point. -/
  body : ε → Coroutine ε σ Unit
  /-- What a notice does. -/
  notify : Notice → σ → σ

/-- Tasks, the code they have left, and the state they share. -/
structure Machine (ε σ : Type) : Type 1 where
  /-- The scheduler's table. -/
  scheduler : Scheduler := {}
  /-- What each thread has left to run, thread one first. -/
  code : Array (Coroutine ε σ Unit) := #[]
  /-- The state that all tasks share. -/
  shared : σ

/-- How a computation on a machine ends. -/
inductive Outcome (ε σ α : Type) : Type 1 where
  /-- With a result. -/
  | ok (value : α) (machine : Machine ε σ)
  /-- With a fault, which ends the system. -/
  | failed (cause : Fault) (machine : Machine ε σ)

/-- How a turn ends. -/
inductive Turn (ε σ α : Type) : Type 1 where
  /-- The code has returned. -/
  | returned (value : α) (machine : Machine ε σ)
  /-- The code gave the processor up and has the rest left to run. -/
  | yielded (rest : Coroutine ε σ α) (machine : Machine ε σ)
  /-- A fault ends the system. -/
  | failed (cause : Fault) (machine : Machine ε σ)

namespace Machine

variable {ε σ α : Type}

/-- Tell about a task. -/
def tell (host : Host ε σ) (notice : Notice) (machine : Machine ε σ) : Machine ε σ :=
  { machine with shared := host.notify notice machine.shared }

/-- Give the processor to a task and tell about it. -/
def switch (host : Host ε σ) (task : TaskId) (machine : Machine ε σ) : Machine ε σ :=
  tell host (.switched task) { machine with scheduler := machine.scheduler.switch task }

/-- Create a thread for an entry point, a bug if no number is left. -/
def create (host : Host ε σ) (entry : ε) (machine : Machine ε σ) : Outcome ε σ TaskId :=
  match machine.scheduler.create? with
  | none => .failed (.bug none) machine
  | some (task, scheduler) =>
      .ok task (tell host (.created task)
        { machine with scheduler, code := machine.code.push (host.body entry) })

end Machine

/-- Run code up to the next place where it gives the processor up. -/
def Coroutine.turn {ε σ α : Type} (host : Host ε σ) :
    Coroutine ε σ α → Machine ε σ → Turn ε σ α
  | .done value, machine => .returned value machine
  | .attempt poll next, machine =>
      match poll machine.scheduler machine.shared with
      | .ok (some value) shared => (next value).turn host { machine with shared }
      | .ok none shared => .yielded (.attempt poll next) { machine with shared }
      | .error cause shared => .failed cause { machine with shared }
  | .pause next, machine => .yielded next machine
  | .spawn entry next, machine =>
      match machine.create host entry with
      | .ok task machine => (next task).turn host machine
      | .failed cause machine => .failed cause machine
  | .moveTo core next, machine =>
      next.turn host { machine with scheduler := machine.scheduler.setCore core }
  | .round _, machine => .failed .blocked machine
  | .drain _, machine => .failed .blocked machine

namespace Machine

variable {ε σ α : Type}

/-- What a thread has left to run. -/
def rest? (machine : Machine ε σ) : TaskId → Option (Coroutine ε σ Unit)
  | 0 => none
  | index + 1 => machine.code[index]?

/-- Replace what a thread has left to run. -/
def setRest (machine : Machine ε σ) (rest : Coroutine ε σ Unit) : TaskId → Machine ε σ
  | 0 => machine
  | index + 1 => { machine with code := machine.code.setIfInBounds index rest }

/-- Record that a thread's body has returned, and tell about it. -/
def finish (host : Host ε σ) (task : TaskId) (machine : Machine ε σ) : Machine ε σ :=
  tell host (.terminated task)
    { machine.setRest (.done ()) task with scheduler := machine.scheduler.terminate task }

/-- Give a thread one turn.  The processor goes back to the boot context before a thread
whose body has returned is recorded as ended. -/
def resume (host : Host ε σ) (task : TaskId) (machine : Machine ε σ) : Outcome ε σ Unit :=
  match machine.rest? task with
  | none => .ok () machine
  | some code =>
      match code.turn host (machine.switch host task) with
      | .returned () machine => .ok () (finish host task (machine.switch host bootTask))
      | .yielded rest machine => .ok () ((machine.setRest rest task).switch host bootTask)
      | .failed cause machine => .failed cause machine

/-- Give each of some threads that is runnable when its time comes one turn, and count the
turns. -/
def turns (host : Host ε σ) : List TaskId → Nat → Machine ε σ → Outcome ε σ Nat
  | [], count, machine => .ok count machine
  | task :: rest, count, machine =>
      if machine.scheduler.isRunnable task then
        match machine.resume host task with
        | .ok () machine => turns host rest (count + 1) machine
        | .failed cause machine => .failed cause machine
      else turns host rest count machine

/-- One round: a turn for every thread that exists now and is runnable. -/
def runOnce (host : Host ε σ) (machine : Machine ε σ) : Outcome ε σ Nat :=
  turns host (List.range' 1 machine.scheduler.created) 0 machine

/-- Rounds until none of them finds a thread to run.  The limit on their number only serves
to give runs that go on forever an end. -/
def run (host : Host ε σ) : Nat → Machine ε σ → Outcome ε σ Unit
  | 0, machine => .failed .blocked machine
  | limit + 1, machine =>
      match machine.runOnce host with
      | .ok 0 machine => .ok () machine
      | .ok (_ + 1) machine => run host limit machine
      | .failed cause machine => .failed cause machine

/-- Make an attempt from the boot context, with a round after each failure. -/
def attemptWithRounds (host : Host ε σ) (poll : Scheduler → Action σ (Option α)) :
    Nat → Machine ε σ → Outcome ε σ α
  | limit, machine =>
      match poll machine.scheduler machine.shared with
      | .ok (some value) shared => .ok value { machine with shared }
      | .error cause shared => .failed cause { machine with shared }
      | .ok none shared =>
          match limit with
          | 0 => .failed .blocked { machine with shared }
          | limit + 1 =>
              match runOnce host { machine with shared } with
              | .ok _ machine => attemptWithRounds host poll limit machine
              | .failed cause machine => .failed cause machine

/-- Run code as the boot context, which runs a round wherever a thread would give the
processor up.  The limit on rounds within one wait only gives endless waits an end. -/
def boot (host : Host ε σ) (limit : Nat) :
    Coroutine ε σ α → Machine ε σ → Outcome ε σ α
  | .done value, machine => .ok value machine
  | .attempt poll next, machine =>
      match attemptWithRounds host poll limit machine with
      | .ok value machine => boot host limit (next value) machine
      | .failed cause machine => .failed cause machine
  | .pause next, machine =>
      match machine.runOnce host with
      | .ok _ machine => boot host limit next machine
      | .failed cause machine => .failed cause machine
  | .spawn entry next, machine =>
      match machine.create host entry with
      | .ok task machine => boot host limit (next task) machine
      | .failed cause machine => .failed cause machine
  | .moveTo core next, machine =>
      boot host limit next { machine with scheduler := machine.scheduler.setCore core }
  | .round next, machine =>
      match machine.runOnce host with
      | .ok count machine => boot host limit (next count) machine
      | .failed cause machine => .failed cause machine
  | .drain next, machine =>
      match machine.run host limit with
      | .ok () machine => boot host limit next machine
      | .failed cause machine => .failed cause machine

end Machine

end DriverHost
