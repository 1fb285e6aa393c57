import DriverHost.Coroutine

/-!
# Mutexes

A mutex is a word that is zero while the mutex is free.  A task that finds it taken gives the
processor up and looks again.  Looking and taking happen without a yield between them, so no
other task can come in between.

Main results:

- Definitions `Mutex.lock` and `Mutex.unlock` are the code that runs.
- Lemma `tryLock_eq_some_iff` says that only a free mutex is taken.
-/

namespace DriverHost

/-- A lock for one task at a time. -/
structure Mutex where
  /-- Zero while the mutex is free. -/
  word : UInt32 := 0
deriving DecidableEq, Repr

namespace Mutex

/-- Some task has the mutex. -/
def isLocked (mutex : Mutex) : Bool :=
  mutex.word != 0

/-- Take the mutex if it is free. -/
def tryLock (mutex : Mutex) : Option Mutex :=
  if mutex.isLocked then none else some { word := 1 }

/-- The free mutex. -/
def unlocked : Mutex := {}

/-- Taking succeeds exactly on a free mutex, and leaves it taken. -/
theorem tryLock_eq_some_iff {mutex next : Mutex} :
    mutex.tryLock = some next ↔ mutex.isLocked = false ∧ next = { word := 1 } := by
  unfold tryLock
  split <;> grind

/-- A taken mutex is locked. -/
@[simp] theorem isLocked_of_tryLock {mutex next : Mutex} (h : mutex.tryLock = some next) :
    next.isLocked = true := by
  rw [tryLock_eq_some_iff] at h
  rw [h.2]
  rfl

/-- Wait until the mutex is free and take it. -/
def lock {ε : Type} : Coroutine ε Mutex Unit := do
  Coroutine.requireBootCore
  Coroutine.await fun mutex =>
    match mutex.tryLock with
    | some mutex => .ok (some ()) mutex
    | none => .ok none mutex

/-- Give the mutex back. -/
def unlock {ε : Type} : Coroutine ε Mutex Unit := do
  Coroutine.requireBootCore
  Coroutine.act fun _ => .ok () unlocked

end Mutex

end DriverHost
