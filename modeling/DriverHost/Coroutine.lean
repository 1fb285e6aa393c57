import DriverHost.Scheduler

/-!
# Coroutines

Kernel code, as the scheduler sees it.  Between two places where it gives the processor up,
code runs without being disturbed; so it is a tree whose nodes are the places where it
touches the shared state, waits, gives the processor up, or asks the scheduler for
something.  A wait is one node: its attempt is made again on every turn until it succeeds,
and what one turn leaves undone is again a coroutine.

Code is written once, against the shared state it needs, and run on a larger state through a
view of the part it works on.

Main results:

- Inductive type `Coroutine` with its monad.
- Definition `Coroutine.zoom` runs code on a part of a larger state.
- Definition `Coroutine.pausingBy` says what code does at the places where it would give the
  processor up.
-/

namespace DriverHost

/-- Code with entry points `ε` for the threads it starts, shared state `σ` and result `α`. -/
inductive Coroutine (ε σ α : Type) : Type 1 where
  /-- The code has returned. -/
  | done (value : α)
  /-- Try something on the shared state.  If it comes to nothing, give the processor up and
  try again on the next turn. -/
  | attempt {β : Type} (poll : Scheduler → Action σ (Option β)) (next : β → Coroutine ε σ α)
  /-- Give the processor up once. -/
  | pause (next : Coroutine ε σ α)
  /-- Create a thread that runs an entry point. -/
  | spawn (entry : ε) (next : TaskId → Coroutine ε σ α)
  /-- Go on as a task of another core. -/
  | moveTo (core : UInt64) (next : Coroutine ε σ α)
  /-- Give every runnable thread one turn and count them. -/
  | round (next : Nat → Coroutine ε σ α)
  /-- Run all threads until each has ended. -/
  | drain (next : Coroutine ε σ α)

namespace Coroutine

variable {ε σ τ α β : Type}

/-- Run one piece of code and go on with what it returned. -/
def bind : Coroutine ε σ α → (α → Coroutine ε σ β) → Coroutine ε σ β
  | done value, f => f value
  | attempt poll next, f => attempt poll fun b => (next b).bind f
  | pause next, f => pause (next.bind f)
  | spawn entry next, f => spawn entry fun task => (next task).bind f
  | moveTo core next, f => moveTo core (next.bind f)
  | round next, f => round fun count => (next count).bind f
  | drain next, f => drain (next.bind f)

instance : Monad (Coroutine ε σ) where
  pure := done
  bind := bind

/-- Returning adds nothing in front. -/
@[simp] theorem pure_bind (value : α) (f : α → Coroutine ε σ β) :
    (pure value : Coroutine ε σ α) >>= f = f value := rfl

/-- Returning adds nothing behind. -/
theorem bind_done (code : Coroutine ε σ α) : code.bind done = code := by
  induction code with
  | done value => rfl
  | attempt poll next ih => simp only [bind, ih]
  | pause next ih => simp only [bind, ih]
  | spawn entry next ih => simp only [bind, ih]
  | moveTo core next ih => simp only [bind, ih]
  | round next ih => simp only [bind, ih]
  | drain next ih => simp only [bind, ih]

/-- Three pieces run in the same way however they are grouped. -/
theorem bind_assoc {γ : Type} (code : Coroutine ε σ α) (f : α → Coroutine ε σ β)
    (g : β → Coroutine ε σ γ) : (code.bind f).bind g = code.bind fun a => (f a).bind g := by
  induction code with
  | done value => rfl
  | attempt poll next ih => simp only [bind, ih]
  | pause next ih => simp only [bind, ih]
  | spawn entry next ih => simp only [bind, ih]
  | moveTo core next ih => simp only [bind, ih]
  | round next ih => simp only [bind, ih]
  | drain next ih => simp only [bind, ih]

/-! ## Single nodes -/

/-- Do something on the shared state at once. -/
def act (action : Action σ α) : Coroutine ε σ α :=
  attempt (fun _ => some <$> action) done

/-- Look at the scheduler's table and the shared state. -/
def survey (look : Scheduler → σ → α) : Coroutine ε σ α :=
  attempt (fun scheduler s => .ok (some (look scheduler s)) s) done

/-- Wait until an attempt on the shared state succeeds. -/
def await (poll : Action σ (Option α)) : Coroutine ε σ α :=
  attempt (fun _ => poll) done

/-- End the system. -/
def fault (cause : Fault) : Coroutine ε σ α :=
  act (throw cause)

/-- Give the processor up once. -/
def yield : Coroutine ε σ Unit :=
  pause (done ())

/-- Create a thread that runs an entry point; the answer is its number. -/
def start (entry : ε) : Coroutine ε σ TaskId :=
  spawn entry done

/-- Stop with a bug check unless the running task may touch a lock. -/
def requireBootCore : Coroutine ε σ Unit :=
  attempt (fun scheduler s =>
    if scheduler.mayLock then .ok (some ()) s else .error (.bug none) s) done

/-- Go through a number of pieces of code one after the other. -/
def inOrder : List (Coroutine ε σ Unit) → Coroutine ε σ Unit
  | [] => done ()
  | code :: rest => code.bind fun _ => inOrder rest

/-! ## Working on a part of the state -/

/-- A view of a part `σ` of a state `τ`. -/
structure View (τ σ : Type) where
  /-- The part. -/
  get : τ → σ
  /-- The state with another part. -/
  set : σ → τ → τ

/-- An action on a part acts on the whole and leaves the rest alone. -/
def View.lift (view : View τ σ) (action : Action σ α) : Action τ α := fun whole =>
  match action (view.get whole) with
  | .ok value part => .ok value (view.set part whole)
  | .error cause part => .error cause (view.set part whole)

/-- A view of a part of a part. -/
def View.comp {ρ : Type} (outer : View τ σ) (inner : View σ ρ) : View τ ρ where
  get whole := inner.get (outer.get whole)
  set part whole := outer.set (inner.set part (outer.get whole)) whole

/-- Code on a part runs on the whole. -/
def zoom (view : View τ σ) : Coroutine ε σ α → Coroutine ε τ α
  | done value => done value
  | attempt poll next =>
      attempt (fun scheduler => view.lift (poll scheduler)) fun b => (next b).zoom view
  | pause next => pause (next.zoom view)
  | spawn entry next => spawn entry fun task => (next task).zoom view
  | moveTo core next => moveTo core (next.zoom view)
  | round next => round fun count => (next count).zoom view
  | drain next => drain (next.zoom view)

/-! ## What to do instead of giving the processor up -/

/-- Make an attempt again and again, with something else to do after each failure, and stop
for good when the budget for failures is spent. -/
def retry {γ : Type} (poll : Scheduler → Action σ (Option γ)) (pausing : Coroutine ε σ Unit)
    (next : Nat → γ → Coroutine ε σ α) : Nat → Coroutine ε σ α
  | 0 => attempt (fun scheduler => some <$> poll scheduler) fun
      | some value => next 0 value
      | none => fault .blocked
  | budget + 1 => attempt (fun scheduler => some <$> poll scheduler) fun
      | some value => next (budget + 1) value
      | none => pausing.bind fun _ => retry poll pausing next budget

/-- The same code, which does something else wherever it would give the processor up.  It
does so at most `budget` times, and is blocked for good where it would do so once more. -/
def pausingBy (pausing : Coroutine ε σ Unit) : Coroutine ε σ α → Nat → Coroutine ε σ α
  | done value, _ => done value
  | attempt poll next, budget =>
      retry poll pausing (fun left value => pausingBy pausing (next value) left) budget
  | pause _, 0 => fault .blocked
  | pause next, budget + 1 => pausing.bind fun _ => pausingBy pausing next budget
  | spawn entry next, budget => spawn entry fun task => pausingBy pausing (next task) budget
  | moveTo core next, budget => moveTo core (pausingBy pausing next budget)
  | round next, budget => round fun count => pausingBy pausing (next count) budget
  | drain next, budget => drain (pausingBy pausing next budget)

end Coroutine

end DriverHost
