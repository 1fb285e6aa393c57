import DriverHost.Proofs.LockRoom

/-!
# Threads with critical sections

A thread's body is a finite sequence of yields, creations of further threads and critical
sections.  A section takes one side of a lock, gives the processor up some number of times, and
gives the side back.  At a switch a thread is at one of a few kinds of places in its body, and the
work it still has to do is a number that each of its turns makes smaller, unless it waits for a
side that is taken.

Main results:

- Definitions `Program.code` and `Position.code`: what a thread runs, and what it has left.
- Definition `Position.work`: the turns a thread can still need, with those of the threads it
  will create, when it never has to wait for another.
- Theorem `Position.gets_on`: what a turn does to a thread that need not wait.
- Theorem `Position.turn_cases`: a turn gets a thread on, or finds it waiting and changes nothing.
-/

namespace DriverHost

open LockRoom (Side)

/-- The body of a thread. -/
inductive Program where
  /-- Return. -/
  | done
  /-- Give the processor up once. -/
  | yield (next : Program)
  /-- Create a thread. -/
  | create (child next : Program)
  /-- Take a side, give the processor up a number of times, and give the side back. -/
  | critical (side : Side) (yields : Nat) (next : Program)
deriving Repr

namespace Program

/-- The rest of a section whose side was taken, and what comes behind it. -/
def holding (side : Side) (yields : Nat) (next : Coroutine Program LockRoom Unit) :
    Coroutine Program LockRoom Unit :=
  Coroutine.pauses ((LockRoom.give side).bind fun _ => next) yields

/-- What a body runs. -/
def code : Program → Coroutine Program LockRoom Unit
  | done => .done ()
  | yield next => .pause next.code
  | create child next => .spawn child fun _ => next.code
  | critical side yields next => (LockRoom.take side).bind fun _ => holding side yields next.code

/-- The thread of a body and all that it creates, with those that these create. -/
def tasks : Program → Nat
  | done => 1
  | yield next => next.tasks
  | create child next => child.tasks + next.tasks
  | critical _ _ next => next.tasks

/-- Every program is at least its own thread. -/
theorem tasks_pos (program : Program) : 0 < program.tasks := by
  induction program with
  | done => exact Nat.one_pos
  | yield next ih => exact ih
  | create child next ihChild ih => exact Nat.add_pos_left ihChild _
  | critical side yields next ih => exact ih

/-- Bounds the turns that a body and the threads it creates need if nobody has to wait. -/
def work : Program → Nat
  | done => 1
  | yield next => 1 + next.work
  | create child next => 1 + child.work + next.work
  | critical _ yields next => 3 + yields + next.work

/-- Bodies start at their beginning, and nobody is told anything. -/
def host : Host Program LockRoom where
  body := code
  notify _ room := room

end Program

/-- Where a thread is at a switch. -/
inductive Position where
  /-- Its body has returned. -/
  | ended
  /-- It has the whole of a body before it. -/
  | ready (program : Program)
  /-- It waits for a side. -/
  | waiting (side : Side) (yields : Nat) (next : Program)
  /-- It is inside a section. -/
  | inside (side : Side) (yields : Nat) (next : Program)
deriving Repr

namespace Position

def code : Position → Coroutine Program LockRoom Unit
  | ended => .done ()
  | ready program => program.code
  | waiting side yields next =>
      (LockRoom.waits side).bind fun _ => Program.holding side yields next.code
  | inside side yields next => Program.holding side yields next.code

def state : Position → TaskState
  | ended => .terminated
  | ready _ | waiting _ _ _ | inside _ _ _ => .runnable

/-- The thread and those that are still to be created. -/
def tasks : Position → Nat
  | ended => 1
  | ready program => program.tasks
  | waiting _ _ next | inside _ _ next => next.tasks

/-- Bounds the turns that are needed if nobody has to wait. -/
def work : Position → Nat
  | ended => 0
  | ready program => program.work
  | waiting _ yields next => 2 + yields + next.work
  | inside _ yields next => 1 + yields + next.work

/-- What the thread has taken. -/
def holds : Position → Side → Nat
  | inside side _ _ => side.once
  | ended | ready _ | waiting _ _ _ => 0

@[simp] theorem holds_ended : ended.holds = 0 :=
  rfl

@[simp] theorem holds_ready (program : Program) : (ready program).holds = 0 :=
  rfl

@[simp] theorem holds_waiting (side : Side) (yields : Nat) (next : Program) :
    (waiting side yields next).holds = 0 :=
  rfl

@[simp] theorem holds_inside (side : Side) (yields : Nat) (next : Program) :
    (inside side yields next).holds = side.once :=
  rfl

theorem tasks_pos (position : Position) : 0 < position.tasks := by
  cases position with
  | ended => exact Nat.one_pos
  | ready program => exact program.tasks_pos
  | waiting side yields next => exact next.tasks_pos
  | inside side yields next => exact next.tasks_pos

/-- The turn of a thread that leaves it at a position. -/
def turn (machine : Machine Program LockRoom) : Position → Turn Program LockRoom Unit
  | ended => .returned () machine
  | position => .yielded position.code machine

/-- A turn that leaves a thread where it can go on gives the processor up. -/
theorem turn_of_runnable {position : Position} (hlive : position.state = .runnable)
    (machine : Machine Program LockRoom) :
    position.turn machine = .yielded position.code machine := by
  cases position with
  | ended => cases hlive
  | ready program => rfl
  | waiting side yields next => rfl
  | inside side yields next => rfl

/-- Only a thread that has ended cannot go on. -/
theorem ended_of_not_runnable {position : Position} (hended : position.state ≠ .runnable) :
    position = ended := by
  cases position with
  | ended => rfl
  | ready program => exact absurd rfl hended
  | waiting side yields next => exact absurd rfl hended
  | inside side yields next => exact absurd rfl hended

end Position

/-- A turn of a thread got it on from one position to another and created some threads, while
others are inside their sections. -/
structure GotOn (initial : LockRoom) (others : Side → Nat) (position next : Position)
    (children : List Program) (machine last : Machine Program LockRoom) : Prop where
  keeps : last.scheduler = { machine.scheduler with threads := last.scheduler.threads }
  threads : last.scheduler.threads.toList =
    machine.scheduler.threads.toList ++ children.map fun _ => TaskState.runnable
  code : last.code.toList = machine.code.toList ++ children.map Program.code
  accounts : LockRoom.Accounts initial (others + next.holds) last.shared
  tasks : next.tasks + (children.map Program.tasks).sum = position.tasks
  work : next.work + (children.map Program.work).sum < position.work

/-- A machine with one more thread, at the beginning of its body. -/
def Machine.withChild (machine : Machine Program LockRoom) (child : Program) :
    Machine Program LockRoom :=
  { machine with
    scheduler := { machine.scheduler with threads := machine.scheduler.threads.push .runnable }
    code := machine.code.push child.code }

/-- A child takes a place in the table. -/
theorem Machine.created_withChild (machine : Machine Program LockRoom) (child : Program) :
    (machine.withChild child).scheduler.created = machine.scheduler.created + 1 := by
  simp [withChild, Scheduler.created]

/-- A thread is created if a number is left for it. -/
theorem Machine.create_child (machine : Machine Program LockRoom) (child : Program)
    (hroom : machine.scheduler.created < maxThreads) :
    machine.create Program.host child =
      .ok (machine.scheduler.created + 1) (machine.withChild child) := by
  have hnext := Scheduler.create?_eq_some_iff.2 ⟨hroom, rfl, rfl⟩
  rw [create, hnext]
  rfl

/-- A thread that got on after it created another got on and created that one. -/
theorem GotOn.withChild {initial : LockRoom} {others : Side → Nat} {next : Position}
    {child behind : Program} {children : List Program} {machine last : Machine Program LockRoom}
    (hgotOn : GotOn initial others (.ready behind) next children (machine.withChild child) last) :
    GotOn initial others (.ready (.create child behind)) next (child :: children) machine last := by
  have htasks := hgotOn.tasks
  have hwork := hgotOn.work
  refine ⟨hgotOn.keeps, ?_, ?_, hgotOn.accounts, ?_, ?_⟩
  · simp [hgotOn.threads, Machine.withChild]
  · simp [hgotOn.code, Machine.withChild]
  · simp only [Position.tasks, Program.tasks, List.map_cons, List.sum_cons] at htasks ⊢
    omega
  · simp only [Position.work, Program.work, List.map_cons, List.sum_cons] at hwork ⊢
    omega

/-- A thread that got on from a later place got on from an earlier one. -/
theorem GotOn.earlier {initial room : LockRoom} {others : Side → Nat}
    {position later next : Position} {children : List Program}
    {machine last : Machine Program LockRoom}
    (hgotOn : GotOn initial others later next children (machine.withShared room) last)
    (htasks : later.tasks = position.tasks) (hwork : later.work < position.work) :
    GotOn initial others position next children machine last :=
  ⟨hgotOn.keeps, hgotOn.threads, hgotOn.code, hgotOn.accounts, hgotOn.tasks.trans htasks,
    Nat.lt_trans hgotOn.work hwork⟩

namespace Position

/-- Every turn gets a thread on that is at a position, if there are numbers left for the threads
it creates. -/
def GetsOn (initial : LockRoom) (position : Position) : Prop :=
  ∀ (machine : Machine Program LockRoom) (others : Side → Nat),
    LockRoom.Accounts initial (others + position.holds) machine.shared →
    (∀ side, others side < maxThreads) → machine.scheduler.mayLock = true →
    machine.scheduler.created + position.tasks ≤ maxThreads + 1 →
    ∃ next children last, position.code.turn Program.host machine = next.turn last ∧
      GotOn initial others position next children machine last

variable {initial : LockRoom} {others : Side → Nat}

/-- A thread that comes to a yield has got on by what it has behind it. -/
theorem gotOn_here {position next : Position} {machine : Machine Program LockRoom}
    (haccounts : LockRoom.Accounts initial (others + next.holds) machine.shared)
    (htasks : next.tasks = position.tasks) (hwork : next.work < position.work) :
    GotOn initial others position next [] machine machine := by
  refine ⟨rfl, ?_, ?_, haccounts, ?_, ?_⟩ <;> simp [htasks, hwork]

/-- A thread inside a section gets on to the end of it. -/
theorem getsOn_inside {next : Program} (hnext : GetsOn initial (ready next)) (side : Side)
    (yields : Nat) : GetsOn initial (inside side yields next) := by
  intro machine others haccounts hfew hmay hroom
  cases yields with
  | zero =>
    have hgive : (LockRoom.give side).turn Program.host machine =
        .returned () (machine.withShared (machine.shared.given side)) :=
      haccounts.turn_give hfew hmay
    have hgiven : LockRoom.Accounts initial (others + (ready next).holds)
        (machine.shared.given side) := by simpa using haccounts.give
    obtain ⟨after, children, last, hturn, hgotOn⟩ :=
      hnext (machine.withShared (machine.shared.given side)) others hgiven hfew hmay hroom
    refine ⟨after, children, last, ?_, hgotOn.earlier rfl ?_⟩
    · simp only [code, Program.holding, Coroutine.pauses]
      rw [Coroutine.turn_bind, hgive]
      exact hturn
    · simp only [work]
      omega
  | succ count =>
    refine ⟨inside side count next, [], machine, rfl, gotOn_here haccounts rfl ?_⟩
    simp only [work]
    omega

/-- A side that is free is taken, and the thread goes on inside its section. -/
theorem getsOn_taking {next : Program} (hnext : GetsOn initial (ready next)) {side : Side}
    (yields : Nat) {machine : Machine Program LockRoom} {room : LockRoom}
    (haccounts : LockRoom.Accounts initial others machine.shared)
    (hfew : ∀ side, others side < maxThreads) (hmay : machine.scheduler.mayLock = true)
    (hroom : machine.scheduler.created + next.tasks ≤ maxThreads + 1)
    (htaken : machine.shared.taken? side = some room) :
    ∃ after children last,
      ((LockRoom.waits side).bind fun _ => Program.holding side yields next.code).turn Program.host
        machine = after.turn last ∧
      GotOn initial others (waiting side yields next) after children machine last := by
  obtain ⟨after, children, last, hturn, hgotOn⟩ := getsOn_inside hnext side yields
    (machine.withShared room) others (haccounts.take hfew htaken) hfew hmay hroom
  refine ⟨after, children, last, ?_, hgotOn.earlier rfl ?_⟩
  · rw [Coroutine.turn_bind, LockRoom.turn_waits, htaken]
    exact hturn
  · simp only [work]
    omega

/-- From its beginning, every program gets on. -/
theorem getsOn_ready (program : Program) : GetsOn initial (ready program) := by
  induction program with
  | done =>
    intro machine others haccounts hfew hmay hroom
    exact ⟨ended, [], machine, rfl, gotOn_here haccounts rfl (Nat.zero_lt_one)⟩
  | yield next ih =>
    intro machine others haccounts hfew hmay hroom
    refine ⟨ready next, [], machine, rfl, gotOn_here haccounts rfl ?_⟩
    simp only [work, Program.work]
    omega
  | create child next ihChild ih =>
    intro machine others haccounts hfew hmay hroom
    have hchild := child.tasks_pos
    have hnext := next.tasks_pos
    simp only [tasks, Program.tasks] at hroom
    have hcreate := machine.create_child child (by omega)
    have hroomCreated : (machine.withChild child).scheduler.created + next.tasks ≤
        maxThreads + 1 := by
      rw [machine.created_withChild]
      omega
    obtain ⟨after, children, last, hturn, hgotOn⟩ :=
      ih (machine.withChild child) others haccounts hfew hmay hroomCreated
    refine ⟨after, child :: children, last, ?_, hgotOn.withChild⟩
    simp only [code, Program.code, Coroutine.turn, hcreate]
    exact hturn
  | critical side yields next ih =>
    intro machine others haccounts hfew hmay hroom
    simp only [code, Program.code]
    rw [Coroutine.turn_bind, LockRoom.turn_take hmay, ← Coroutine.turn_bind]
    cases htaken : machine.shared.taken? side with
    | none =>
      refine ⟨waiting side yields next, [], machine, ?_, gotOn_here haccounts rfl ?_⟩
      · rw [Coroutine.turn_bind, LockRoom.turn_waits, htaken]
        rfl
      · simp only [work, Program.work]
        omega
    | some room =>
      have hothers : LockRoom.Accounts initial others machine.shared := by
        simpa using haccounts
      obtain ⟨after, children, last, hturn, hgotOn⟩ :=
        getsOn_taking ih yields hothers hfew hmay hroom htaken
      refine ⟨after, children, last, hturn, hgotOn.earlier rfl ?_⟩
      simp only [work, Program.work]
      omega

/-- A thread that can get no turn of use: it has ended, or waits for a side that is taken. -/
inductive Stuck (room : LockRoom) : Position → Prop
  | ended : Stuck room ended
  | waiting {side : Side} {yields : Nat} {next : Program} (htaken : room.taken? side = none) :
      Stuck room (waiting side yields next)

/-- A turn gets a thread on, or finds it waiting for a side that is taken and changes nothing. -/
theorem turn_cases {position : Position} {machine : Machine Program LockRoom}
    (hlive : position.state = .runnable)
    (haccounts : LockRoom.Accounts initial (others + position.holds) machine.shared)
    (hfew : ∀ side, others side < maxThreads) (hmay : machine.scheduler.mayLock = true)
    (hroom : machine.scheduler.created + position.tasks ≤ maxThreads + 1) :
    (∃ next children last, position.code.turn Program.host machine = next.turn last ∧
      GotOn initial others position next children machine last) ∨
    position.code.turn Program.host machine = position.turn machine ∧
      position.Stuck machine.shared := by
  cases position with
  | ended => cases hlive
  | ready program => exact Or.inl (getsOn_ready program machine others haccounts hfew hmay hroom)
  | inside side yields next =>
    left
    exact getsOn_inside (getsOn_ready next) side yields machine others haccounts hfew hmay hroom
  | waiting side yields next =>
    cases htaken : machine.shared.taken? side with
    | none =>
      refine Or.inr ⟨?_, .waiting htaken⟩
      simp only [code]
      rw [Coroutine.turn_bind, LockRoom.turn_waits, htaken]
      rfl
    | some room =>
      left
      have hothers : LockRoom.Accounts initial others machine.shared := by
        simpa using haccounts
      exact getsOn_taking (getsOn_ready next) yields hothers hfew hmay hroom htaken

end Position

end DriverHost
