import DriverHost.Proofs.Rounds
import DriverHost.Script.Entries

/-!
# The records of the tasks

The scheduler's table, the table of task records and the variable that names the current record
are three things.  Only the notices of a switch and of a termination, and the claim at the end of
a creation, keep them together; code may do what it likes with the rest of the world and with the
driver's own words in the records.  This module follows the three through everything that happens
on a machine, and through the turns of threads.

Main results:

- Inductive predicates `Orderly` and `Moment`: code that leaves the records to their keepers, and
  the machines on which it runs within a turn.
- Structure `Agrees`, and structure `Linked` with a lemma for each thing that happens on a machine.
- Theorem `Orderly.turn` and theorem `Moment.linked`: what a turn of orderly code keeps.
- Theorem `Linked.turns`: so do the turns of a round.
-/

namespace DriverHost.Script

variable {ε α β : Type}

/-! ## Code that leaves the records to their keepers -/

/-- Of what keeps the records together one world has what the other has. -/
structure Spares (before after : World) : Prop where
  onSwitch : after.outside.onSwitch = before.outside.onSwitch
  onTermination : after.outside.onTermination = before.outside.onTermination
  installed : after.outside.threads.installed = before.outside.threads.installed
  current : after.outside.threads.current = before.outside.threads.current
  pid : ∀ task, (after.outside.threads.table.record task).pid =
    (before.outside.threads.table.record task).pid
  terminated : ∀ task, (after.outside.threads.table.record task).terminated =
    (before.outside.threads.table.record task).terminated

/-- The driver's way to create a thread. -/
def createThread (entry : ε) : Coroutine ε World TaskId :=
  (KernelThreads.create entry).zoom threadsView

/-- Code that creates threads in the driver's way, and whose other accesses spare the records
once these are installed. -/
inductive Orderly : Coroutine ε World α → Prop
  | returns (value : α) : Orderly (.done value)
  | acts {β : Type} {poll : Scheduler → Action World (Option β)} {next : β → Coroutine ε World α}
      (hspares : ∀ scheduler world, world.outside.threads.installed = true →
        Spares world (Coroutine.leftBy (poll scheduler world)))
      (hnext : ∀ value, Orderly (next value)) : Orderly (.attempt poll next)
  | yields {next : Coroutine ε World α} (hnext : Orderly next) : Orderly (.pause next)
  | creates (entry : ε) {next : TaskId → Coroutine ε World α}
      (hnext : ∀ task, Orderly (next task)) : Orderly ((createThread entry).bind next)
  | moves (core : UInt64) {next : Coroutine ε World α} (hnext : Orderly next) :
      Orderly (.moveTo core next)
  | rounds {next : Nat → Coroutine ε World α} (hnext : ∀ count, Orderly (next count)) :
      Orderly (.round next)
  | drains {next : Coroutine ε World α} (hnext : Orderly next) : Orderly (.drain next)

/-- Threads that run some code, and notices that are heard as in a script. -/
def hostOf (body : ε → Coroutine ε World Unit) : Host ε World where
  body := body
  notify := hear

/-! ## Where code runs within a turn -/

/-- The machines on which code runs within one turn.  Inside of a creation no code of the task
runs. -/
inductive Moment (host : Host ε World) :
    Coroutine ε World α → Machine ε World → Machine ε World → Prop
  | here {code machine} : Moment host code machine machine
  | tried {β : Type} {poll : Scheduler → Action World (Option β)} {next machine world}
      (hpoll : poll machine.scheduler machine.shared = .ok none world) :
      Moment host (.attempt poll next) machine (machine.withShared world)
  | acted {β : Type} {poll : Scheduler → Action World (Option β)} {next machine world value now}
      (hpoll : poll machine.scheduler machine.shared = .ok (some value) world)
      (hmoment : Moment host (next value) (machine.withShared world) now) :
      Moment host (.attempt poll next) machine now
  | created {entry next machine task made now}
      (hturn : (createThread entry).turn host machine = .returned task made)
      (hmoment : Moment host (next task) made now) :
      Moment host ((createThread entry).bind next) machine now
  | moved {core next} {machine now : Machine ε World}
      (hmoment : Moment host next
        { machine with scheduler := machine.scheduler.setCore core } now) :
      Moment host (.moveTo core next) machine now

/-! ## Agreement -/

/-- The record of the task that has the processor is the current one and has its number; every
task that was created has a record with its number, which says whether it has ended; and no other
record was ever claimed. -/
structure Agrees (machine : Machine ε World) : Prop where
  current : machine.shared.outside.threads.current = some machine.scheduler.current
  currentPid : ∃ record, machine.shared.outside.threads.currentRecord? = some record ∧
    record.pid = machine.scheduler.current
  created : ∀ task ≤ machine.scheduler.created, ∃ record,
    machine.shared.outside.threads.table.get? task = some record ∧ record.pid = task ∧
      record.terminated =
        if machine.scheduler.state? task = some .terminated then 1 else 0
  unclaimed : ∀ task, machine.scheduler.created < task →
    ∀ record ∈ machine.shared.outside.threads.table.get? task, record.pid = -1

/-- What makes them agree, in terms of every number. -/
structure Linked (machine : Machine ε World) : Prop where
  installed : machine.shared.outside.threads.installed = true
  onSwitch : machine.shared.outside.onSwitch = .taskTable
  onTermination : machine.shared.outside.onTermination = .taskTable
  current : machine.shared.outside.threads.current = some machine.scheduler.current
  running : machine.scheduler.current ≤ machine.scheduler.created
  room : machine.scheduler.created ≤ maxThreads
  pid : ∀ task, (machine.shared.outside.threads.table.record task).pid =
    if task ≤ machine.scheduler.created then (task : Int) else -1
  terminated : ∀ task, (machine.shared.outside.threads.table.record task).terminated =
    if machine.scheduler.state? task = some .terminated then 1 else 0
  orderly : ∀ code ∈ machine.code, Orderly code

/-- Records that are linked number by number agree with the scheduler. -/
theorem Linked.agrees {machine : Machine ε World} (hlinked : Linked machine) : Agrees machine := by
  have hget : ∀ task ≤ maxThreads, machine.shared.outside.threads.table.get? task =
      some (machine.shared.outside.threads.table.record task) := by
    intro task htask
    rw [TaskTable.get?, if_pos]
    exact decide_eq_true htask
  refine ⟨hlinked.current, ?_, fun task htask => ?_, fun task htask record hrecord => ?_⟩
  · have hrecord : machine.shared.outside.threads.currentRecord? =
        some (machine.shared.outside.threads.table.record machine.scheduler.current) := by
      rw [KernelThreads.currentRecord?, hlinked.current]
      exact hget _ (Nat.le_trans hlinked.running hlinked.room)
    refine ⟨_, hrecord, ?_⟩
    rw [hlinked.pid, if_pos hlinked.running]
  · refine ⟨_, hget task (Nat.le_trans htask hlinked.room), ?_, hlinked.terminated task⟩
    rw [hlinked.pid, if_pos htask]
  · rw [TaskTable.get?] at hrecord
    split at hrecord
    · cases hrecord
      rw [hlinked.pid, if_neg (Nat.not_le.2 htask)]
    · cases hrecord

/-! ## Orderly code -/

namespace Orderly

/-- Orderly code spares the records at its next access, and is orderly after it. -/
theorem of_attempt {poll : Scheduler → Action World (Option β)} {next : β → Coroutine ε World α}
    (hcode : Orderly (.attempt poll next)) :
    (∀ scheduler world, world.outside.threads.installed = true →
      Spares world (Coroutine.leftBy (poll scheduler world))) ∧ ∀ value, Orderly (next value) := by
  generalize hwhole : Coroutine.attempt poll next = whole at hcode
  cases hcode with
  | acts hspares hnext =>
    cases hwhole
    exact ⟨hspares, hnext⟩
  | _ => cases hwhole

/-- Orderly code is orderly on any core. -/
theorem of_moveTo {core : UInt64} {next : Coroutine ε World α}
    (hcode : Orderly (.moveTo core next)) : Orderly next := by
  generalize hwhole : Coroutine.moveTo core next = whole at hcode
  cases hcode with
  | moves core hnext =>
    cases hwhole
    exact hnext
  | _ => cases hwhole

/-- Code behind a creation is orderly if the whole is. -/
theorem of_createThread {entry : ε} {next : TaskId → Coroutine ε World α}
    (hcode : Orderly ((createThread entry).bind next)) (task : TaskId) : Orderly (next task) := by
  generalize hwhole : (createThread entry).bind next = whole at hcode
  cases hcode with
  | @creates other behind hnext =>
    injection hwhole with hentry hbehind
    injection congrFun hbehind task with htype hpoll hrest
    have hsame : next task = behind task := congrFun hrest ()
    rw [hsame]
    exact hnext task
  | _ => cases hwhole

/-- A sequence is orderly if both of its parts are. -/
theorem bind {code : Coroutine ε World α} {f : α → Coroutine ε World β} (hcode : Orderly code)
    (hnext : ∀ value, Orderly (f value)) : Orderly (code.bind f) := by
  induction hcode with
  | returns value => exact hnext value
  | acts hspares hrest ih => exact .acts hspares ih
  | yields hrest ih => exact .yields ih
  | creates entry hrest ih =>
    rw [Coroutine.bind_assoc]
    exact .creates entry ih
  | moves core hrest ih => exact .moves core ih
  | rounds hrest ih => exact .rounds ih
  | drains hrest ih => exact .drains ih

end Orderly

/-! ## Notices -/

/-- A switch makes the task table follow the running task. -/
theorem outside_hear_switched {world : World} (honSwitch : world.outside.onSwitch = .taskTable)
    (task : TaskId) : (hear (.switched task) world).outside =
      { world.outside with
        running := task, threads := world.outside.threads.switchTo task } := by
  simp only [hear, honSwitch, Listener.hear, KernelThreads.follow]

/-- The end of a thread makes the task table mark its record. -/
theorem outside_hear_terminated {world : World}
    (honTermination : world.outside.onTermination = .taskTable) (task : TaskId) :
    (hear (.terminated task) world).outside =
      { world.outside with threads := world.outside.threads.markTerminated task } := by
  have hlog : ∀ message,
      (world.log .debug schedulerLogSource message).outside = world.outside := fun _ => rfl
  simp only [hear, hlog, honTermination, Listener.hear, KernelThreads.follow]

/-- A change reaches the record of its task and no other. -/
theorem record_modify (table : TaskTable) {task : TaskId} (htask : task ≤ maxThreads)
    (change : TaskRecord → TaskRecord) (other : TaskId) :
    (table.modify task change).record other =
      if other = task then change (table.record task) else table.record other := by
  have hcovers : TaskTable.covers task = true := decide_eq_true htask
  rw [TaskTable.modify, if_pos hcovers]

/-! ## What happens on a machine -/

/-- A creation in the driver's way: a new runnable thread behind all others, whose record is
claimed. -/
structure Creates (body : ε → Coroutine ε World Unit) (entry : ε) (machine : Machine ε World)
    (task : TaskId) (next : Machine ε World) : Prop where
  room : machine.scheduler.created < maxThreads
  number : task = machine.scheduler.created + 1
  scheduler : next.scheduler =
    { machine.scheduler with threads := machine.scheduler.threads.push .runnable }
  code : next.code = machine.code.push (body entry)
  outside : next.shared.outside =
    { machine.shared.outside with
      threads := { machine.shared.outside.threads with
        table := machine.shared.outside.threads.table.claim task } }

/-- The machine after the record of a task was claimed. -/
def withClaim (machine : Machine ε World) (task : TaskId) : Machine ε World :=
  machine.withShared { machine.shared with
    outside := { machine.shared.outside with
      threads := { machine.shared.outside.threads with
        table := machine.shared.outside.threads.table.claim task } } }

/-- Creating a thread in the driver's way takes no more than this turn. -/
theorem turn_createThread (host : Host ε World) (entry : ε) (machine : Machine ε World) :
    (createThread entry).turn host machine =
      match machine.create host entry with
      | .ok task made => Turn.returned task (withClaim made task)
      | .failed cause stopped => .failed cause stopped := by
  rw [createThread, KernelThreads.create, Coroutine.start]
  change Coroutine.turn _ (.spawn _ _) _ = _
  rw [Coroutine.turn]
  cases machine.create host entry with
  | ok task made => rfl
  | failed cause stopped => rfl

/-- It is a bug if no number is left. -/
theorem turn_createThread_cases (body : ε → Coroutine ε World Unit) (entry : ε)
    (machine : Machine ε World) :
    (∃ task next, (createThread entry).turn (hostOf body) machine = .returned task next ∧
      Creates body entry machine task next) ∨
    (createThread entry).turn (hostOf body) machine = .failed (.bug none) machine := by
  rw [turn_createThread]
  cases hcreate : machine.create (hostOf body) entry with
  | failed cause stopped =>
    obtain ⟨-, rfl, rfl⟩ := Machine.create_eq_failed_iff.1 hcreate
    exact Or.inr rfl
  | ok task made =>
    obtain ⟨hroom, htask, rfl⟩ := Machine.create_eq_ok_iff.1 hcreate
    exact Or.inl ⟨_, _, rfl, hroom, htask, rfl, rfl, rfl⟩

/-- Creating a thread in the driver's way adds its record in the same turn. -/
theorem creates_of_turn {body : ε → Coroutine ε World Unit} {entry : ε}
    {machine next : Machine ε World} {task : TaskId}
    (hturn : (createThread entry).turn (hostOf body) machine = .returned task next) :
    Creates body entry machine task next := by
  rcases turn_createThread_cases body entry machine with ⟨task, next, hreturned, hcreates⟩ | hfailed
  · rw [hreturned] at hturn
    cases hturn
    exact hcreates
  · rw [hfailed] at hturn
    cases hturn

namespace Linked

variable {body : ε → Coroutine ε World Unit} {machine : Machine ε World}

/-- An access that spares the records. -/
theorem acts (hlinked : Linked machine) {world : World}
    (hspares : Spares machine.shared world) : Linked (machine.withShared world) where
  installed := hspares.installed.trans hlinked.installed
  onSwitch := hspares.onSwitch.trans hlinked.onSwitch
  onTermination := hspares.onTermination.trans hlinked.onTermination
  current := hspares.current.trans hlinked.current
  running := hlinked.running
  room := hlinked.room
  pid task := (hspares.pid task).trans (hlinked.pid task)
  terminated task := (hspares.terminated task).trans (hlinked.terminated task)
  orderly := hlinked.orderly

/-- A move to another core. -/
theorem moves (hlinked : Linked machine) (core : UInt64) :
    Linked { machine with scheduler := machine.scheduler.setCore core } where
  installed := hlinked.installed
  onSwitch := hlinked.onSwitch
  onTermination := hlinked.onTermination
  current := hlinked.current
  running := hlinked.running
  room := hlinked.room
  pid := hlinked.pid
  terminated := hlinked.terminated
  orderly := hlinked.orderly

/-- A thread is left with other code. -/
theorem setRest (hlinked : Linked machine) {rest : Coroutine ε World Unit}
    (hrest : Orderly rest) (task : TaskId) : Linked (machine.setRest rest task) := by
  cases task with
  | zero => exact hlinked
  | succ index =>
    refine ⟨hlinked.installed, hlinked.onSwitch, hlinked.onTermination, hlinked.current,
      hlinked.running, hlinked.room, hlinked.pid, hlinked.terminated, fun code hcode => ?_⟩
    rcases Array.mem_or_eq_of_mem_setIfInBounds hcode with hold | rfl
    · exact hlinked.orderly code hold
    · exact hrest

/-- The processor goes to a task that exists. -/
theorem switch (body : ε → Coroutine ε World Unit) (hlinked : Linked machine) {task : TaskId}
    (htask : task ≤ machine.scheduler.created) : Linked (machine.switch (hostOf body) task) := by
  have houtside : (machine.switch (hostOf body) task).shared.outside =
      { machine.shared.outside with
        running := task, threads := machine.shared.outside.threads.switchTo task } :=
    outside_hear_switched hlinked.onSwitch task
  refine ⟨?_, ?_, ?_, ?_, htask, hlinked.room, fun other => ?_, fun other => ?_,
    hlinked.orderly⟩ <;> rw [houtside]
  · exact hlinked.installed
  · exact hlinked.onSwitch
  · exact hlinked.onTermination
  · simp only [KernelThreads.switchTo, TaskTable.get?, TaskTable.covers,
      Nat.le_trans htask hlinked.room, decide_true, if_true]
    rfl
  · exact hlinked.pid other
  · rw [Machine.scheduler_switch, Scheduler.state?_switch]
    exact hlinked.terminated other

/-- A thread is created and its record is claimed. -/
theorem creates (hlinked : Linked machine) (hbody : ∀ entry, Orderly (body entry)) {entry : ε}
    {task : TaskId} {next : Machine ε World} (hcreates : Creates body entry machine task next) :
    Linked next := by
  have hcreated : next.scheduler.created = machine.scheduler.created + 1 := by
    rw [hcreates.scheduler]
    exact Array.size_push _
  have hcurrent : next.scheduler.current = machine.scheduler.current := by
    rw [hcreates.scheduler]
  have htable : next.shared.outside.threads.table =
      machine.shared.outside.threads.table.claim task := by
    rw [hcreates.outside]
  have hcovered : task ≤ maxThreads := hcreates.number ▸ hcreates.room
  refine ⟨?_, ?_, ?_, ?_, ?_, hcreated ▸ hcreates.room, fun other => ?_, fun other => ?_,
    fun code hcode => ?_⟩
  · rw [hcreates.outside]
    exact hlinked.installed
  · rw [hcreates.outside]
    exact hlinked.onSwitch
  · rw [hcreates.outside]
    exact hlinked.onTermination
  · rw [hcreates.outside, hcurrent]
    exact hlinked.current
  · rw [hcreated, hcurrent]
    exact Nat.le_succ_of_le hlinked.running
  · rw [htable, hcreated, TaskTable.claim, record_modify _ hcovered]
    by_cases hnew : other = task
    · have hlast : other ≤ machine.scheduler.created + 1 :=
        Nat.le_of_eq (hnew.trans hcreates.number)
      rw [if_pos hnew, if_pos hlast, hnew]
    · have hsame : other ≤ machine.scheduler.created + 1 ↔ other ≤ machine.scheduler.created :=
        Nat.le_add_one_iff.trans
          (or_iff_left fun hlast => hnew (hlast.trans hcreates.number.symm))
      rw [if_neg hnew, hlinked.pid other]
      simp only [hsame]
  · rw [htable, hcreates.scheduler, Scheduler.state?_push, ← hcreates.number, TaskTable.claim,
      record_modify _ hcovered]
    by_cases hnew : other = task
    · rw [if_pos hnew, if_pos hnew]
      rfl
    · rw [if_neg hnew, if_neg hnew]
      exact hlinked.terminated other
  · rw [hcreates.code] at hcode
    rcases Array.mem_push.1 hcode with hold | rfl
    · exact hlinked.orderly code hold
    · exact hbody entry

/-- A thread whose body has returned is recorded as ended. -/
theorem finish (hlinked : Linked machine) {task : TaskId}
    (hle : task ≤ machine.scheduler.created) : Linked (machine.finish (hostOf body) task) := by
  have hrest : Linked (machine.setRest (.done ()) task) := hlinked.setRest (.returns ()) task
  have houtside : (machine.finish (hostOf body) task).shared.outside =
      { machine.shared.outside with
        threads := machine.shared.outside.threads.markTerminated task } := by
    have hheard : (machine.finish (hostOf body) task).shared =
        hear (.terminated task) (machine.setRest (.done ()) task).shared := rfl
    rw [hheard, Machine.shared_setRest, outside_hear_terminated hlinked.onTermination]
  have hscheduler : (machine.finish (hostOf body) task).scheduler =
      machine.scheduler.terminate task := rfl
  have hcovered : task ≤ maxThreads := Nat.le_trans hle hlinked.room
  refine ⟨?_, ?_, ?_, ?_, ?_, ?_, fun other => ?_, fun other => ?_, hrest.orderly⟩
  · rw [houtside]
    exact hlinked.installed
  · rw [houtside]
    exact hlinked.onSwitch
  · rw [houtside]
    exact hlinked.onTermination
  · rw [houtside, hscheduler, Scheduler.current_terminate]
    exact hlinked.current
  · rw [hscheduler, Scheduler.current_terminate, Scheduler.created_terminate]
    exact hlinked.running
  · rw [hscheduler, Scheduler.created_terminate]
    exact hlinked.room
  · rw [houtside, hscheduler, Scheduler.created_terminate, ← hlinked.pid other]
    simp only [KernelThreads.markTerminated, TaskTable.markTerminated, record_modify _ hcovered]
    split
    · next hsame => rw [hsame]
    · rfl
  · rw [houtside, hscheduler, Scheduler.state?_terminate]
    simp only [KernelThreads.markTerminated, TaskTable.markTerminated, record_modify _ hcovered]
    by_cases hsame : other = task
    · have hended : task = other ∧ task ≤ machine.scheduler.created := ⟨hsame.symm, hle⟩
      rw [if_pos hsame, if_pos hended, if_pos rfl]
    · have hother : ¬ (task = other ∧ task ≤ machine.scheduler.created) :=
        fun hboth => hsame hboth.1.symm
      rw [if_neg hsame, if_neg hother]
      exact hlinked.terminated other

end Linked

/-! ## What happens in a turn -/

section Turns

variable {body : ε → Coroutine ε World Unit} {machine now after : Machine ε World}

/-- A turn of orderly code ends on a machine on which the records agree, and leaves orderly
code. -/
theorem Orderly.turn {code : Coroutine ε World α} (hcode : Orderly code)
    (hbody : ∀ entry, Orderly (body entry)) (hlinked : Linked machine) :
    match code.turn (hostOf body) machine with
    | .returned _ last => Linked last
    | .yielded rest given => Orderly rest ∧ Linked given
    | .failed _ _ => True := by
  induction hcode generalizing machine with
  | returns value => exact hlinked
  | @acts _ poll next hspares hnext ih =>
    have haccess := hlinked.acts
      (hspares machine.scheduler machine.shared hlinked.installed)
    rw [Coroutine.turn_attempt]
    cases hpoll : poll machine.scheduler machine.shared with
    | error cause world => trivial
    | ok found world =>
      rw [hpoll] at haccess
      cases found with
      | none => exact ⟨.acts hspares hnext, haccess⟩
      | some value => exact ih value haccess
  | yields hnext ih => exact ⟨hnext, hlinked⟩
  | creates entry hnext ih =>
    rw [Coroutine.turn_bind]
    rcases turn_createThread_cases body entry machine with
      ⟨task, next, hturn, hcreates⟩ | hfailed
    · rw [hturn]
      exact ih task (hlinked.creates hbody hcreates)
    · rw [hfailed]
      trivial
  | moves core hnext ih => exact ih (hlinked.moves core)
  | rounds hnext ih => trivial
  | drains hnext ih => trivial

/-- Wherever orderly code runs within a turn the records agree, and the task that began the turn
has the processor. -/
theorem Moment.linked {code : Coroutine ε World α} (hmoment : Moment (hostOf body) code machine now)
    (hbody : ∀ entry, Orderly (body entry)) (hcode : Orderly code) (hlinked : Linked machine) :
    Linked now ∧ now.scheduler.current = machine.scheduler.current := by
  induction hmoment with
  | here => exact ⟨hlinked, rfl⟩
  | @tried _ poll next machine world hpoll =>
    have hspares := hcode.of_attempt.1 machine.scheduler machine.shared hlinked.installed
    rw [hpoll] at hspares
    exact ⟨hlinked.acts hspares, rfl⟩
  | @acted _ poll next machine world value now hpoll hmoment ih =>
    have hspares := hcode.of_attempt.1 machine.scheduler machine.shared hlinked.installed
    rw [hpoll] at hspares
    exact ih (hcode.of_attempt.2 value) (hlinked.acts hspares)
  | @created _ _ _ task _ _ hturn hmoment ih =>
    have hcreates := creates_of_turn hturn
    obtain ⟨hnow, hcurrent⟩ :=
      ih (hcode.of_createThread task) (hlinked.creates hbody hcreates)
    refine ⟨hnow, hcurrent.trans ?_⟩
    rw [hcreates.scheduler]
  | moved hmoment ih => exact ih hcode.of_moveTo (hlinked.moves _)

/-- A turn that a round gives a thread leaves the records in agreement and the processor to the
boot context. -/
theorem Linked.resume (hlinked : Linked machine) (hbody : ∀ entry, Orderly (body entry))
    (hcurrent : machine.scheduler.current = bootTask) {task : TaskId} (htask : task ≠ bootTask)
    (hle : task ≤ machine.scheduler.created)
    (hresume : machine.resume (hostOf body) task = .ok () after) :
    Linked after ∧ after.scheduler.current = bootTask := by
  rw [Machine.resume] at hresume
  cases hrest : machine.rest? task with
  | none =>
    rw [hrest] at hresume
    cases hresume
    exact ⟨hlinked, hcurrent⟩
  | some code =>
    have hcode : Orderly code := by
      cases task with
      | zero => exact absurd rfl htask
      | succ index => exact hlinked.orderly code (Array.mem_of_getElem? hrest)
    have hturn := hcode.turn hbody (hlinked.switch body hle)
    have hgrew := code.turn_grew (hostOf body) (machine.switch (hostOf body) task)
    have hexists := hgrew.created_le
    simp only [hrest] at hresume
    cases hend : code.turn (hostOf body) (machine.switch (hostOf body) task) with
    | returned value last =>
      simp only [hend] at hresume hturn hexists
      cases hresume
      have hback : Linked (last.switch (hostOf body) bootTask) := hturn.switch body (Nat.zero_le _)
      refine ⟨hback.finish (Nat.le_trans hle hexists), ?_⟩
      exact Scheduler.current_terminate _ task
    | yielded rest given =>
      simp only [hend] at hresume hturn
      cases hresume
      exact ⟨(hturn.2.setRest hturn.1 task).switch body (Nat.zero_le _), rfl⟩
    | failed cause stopped =>
      simp only [hend] at hresume
      cases hresume

/-- So do the turns of any number of threads. -/
theorem Linked.turns (hlinked : Linked machine) (hbody : ∀ entry, Orderly (body entry))
    (hcurrent : machine.scheduler.current = bootTask) {tasks : List TaskId}
    (htasks : ∀ task ∈ tasks, task ≠ bootTask) {count given : Nat}
    (hturns : machine.turns (hostOf body) tasks count = .ok given after) :
    Linked after ∧ after.scheduler.current = bootTask := by
  induction tasks generalizing machine count with
  | nil =>
    cases hturns
    exact ⟨hlinked, hcurrent⟩
  | cons task rest ih =>
    obtain ⟨htask, hrest⟩ := List.forall_mem_cons.1 htasks
    by_cases hrunnable : machine.scheduler.isRunnable task = true
    · cases hresume : machine.resume (hostOf body) task with
      | failed cause stopped =>
        simp only [Machine.turns, hrunnable, hresume, if_true] at hturns
        cases hturns
      | ok value reached =>
        rw [Machine.turns_cons_runnable hrunnable hresume] at hturns
        obtain ⟨hreached, hboot⟩ := hlinked.resume hbody hcurrent htask
          (Scheduler.le_created_of_isRunnable hrunnable) hresume
        exact ih hreached hboot hrest hturns
    · rw [Machine.turns_cons_ended hrunnable] at hturns
      exact ih hlinked hcurrent hrest hturns

end Turns

end DriverHost.Script
