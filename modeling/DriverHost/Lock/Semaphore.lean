import DriverHost.Coroutine

/-!
# Semaphores

A semaphore counts units.  Taking one waits while there is none; giving one back never
waits.  Looking at the count and lowering it happen without a yield between them.

Main results:

- Definitions `Semaphore.down`, `Semaphore.tryDown` and `Semaphore.up` are the code that runs.
- Lemma `take_eq_some_iff` says that a unit is taken exactly when there is one.
-/

namespace DriverHost

/-- Units that tasks take and give back. -/
structure Semaphore where
  /-- Units that nobody has. -/
  count : UInt32 := 0
deriving DecidableEq, Repr

namespace Semaphore

/-- A semaphore that is started with a signed count; a negative one counts as zero. -/
def ofInt (count : Int) : Semaphore :=
  { count := UInt32.ofNat count.toNat }

/-- Take a unit if there is one. -/
def take (semaphore : Semaphore) : Option Semaphore :=
  if semaphore.count = 0 then none else some { count := semaphore.count - 1 }

/-- Give a unit back. -/
def give (semaphore : Semaphore) : Semaphore :=
  { count := semaphore.count + 1 }

/-- A unit is taken exactly when there is one, and there is then one less. -/
theorem take_eq_some_iff {semaphore next : Semaphore} :
    semaphore.take = some next ↔
      semaphore.count ≠ 0 ∧ next = { count := semaphore.count - 1 } := by
  unfold take
  split <;> grind

/-- Wait until there is a unit and take it. -/
def down {ε : Type} : Coroutine ε Semaphore Unit := do
  Coroutine.requireBootCore
  Coroutine.await fun semaphore =>
    match semaphore.take with
    | some semaphore => .ok (some ()) semaphore
    | none => .ok none semaphore

/-- Take a unit if there is one, without waiting; the answer says whether there was. -/
def tryDown {ε : Type} : Coroutine ε Semaphore Bool := do
  Coroutine.requireBootCore
  Coroutine.act fun semaphore =>
    match semaphore.take with
    | some semaphore => .ok true semaphore
    | none => .ok false semaphore

/-- Give a unit back. -/
def up {ε : Type} : Coroutine ε Semaphore Unit := do
  Coroutine.requireBootCore
  Coroutine.act fun semaphore => .ok () semaphore.give

end Semaphore

end DriverHost
