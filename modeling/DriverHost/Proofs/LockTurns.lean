import DriverHost.Lock.Mutex
import DriverHost.Lock.ReadWrite
import DriverHost.Lock.Semaphore
import DriverHost.Proofs.PartOfState
import Mathlib.Data.Nat.Bitwise

/-!
# Turns of the locks' code

What one turn of each lock operation does to its word, for a task that may touch locks.  An
operation that finds the lock taken leaves the word alone and is left with a wait, which looks
again on the next turn.

Main results:

- Theorem `Mutex.turn_lock` and theorem `Mutex.turn_unlock`.
- Theorem `Semaphore.turn_down`, theorem `Semaphore.turn_waitUnit`, theorem
  `Semaphore.turn_tryDown` and theorem `Semaphore.turn_up`.
- Theorems `ReadWriteLock.turn_readLock`, `turn_readUnlock`, `turn_writeLock` and
  `turn_writeUnlock`.
-/

namespace DriverHost

variable {ε : Type}

namespace Mutex

variable {host : Host ε Mutex} {machine : Machine ε Mutex}

/-- What is left of taking a mutex once the core was checked. -/
def waitFree : Coroutine ε Mutex Unit :=
  Coroutine.await fun mutex =>
    match mutex.tryLock with
    | some mutex => .ok (some ()) mutex
    | none => .ok none mutex

/-- Looking at the mutex takes it if it is free and changes nothing otherwise. -/
theorem turn_waitFree :
    (waitFree : Coroutine ε Mutex Unit).turn host machine =
      if machine.shared.isLocked then .yielded waitFree machine
      else .returned () (machine.withShared { word := 1 }) := by
  refine (Coroutine.turn_await _ machine).trans ?_
  cases hlocked : machine.shared.isLocked with
  | true => simp [tryLock, hlocked, waitFree]
  | false => simp [tryLock, hlocked]

/-- Taking a mutex takes it in this turn if it is free. -/
theorem turn_lock (hmay : machine.scheduler.mayLock = true) :
    (lock : Coroutine ε Mutex Unit).turn host machine =
      if machine.shared.isLocked then .yielded waitFree machine
      else .returned () (machine.withShared { word := 1 }) := by
  refine (Coroutine.turn_bind Coroutine.requireBootCore (fun _ => waitFree) machine).trans ?_
  rw [Coroutine.turn_requireBootCore, if_pos hmay]
  exact turn_waitFree

/-- On a core that may lock, a mutex is given back without a wait. -/
theorem turn_unlock (hmay : machine.scheduler.mayLock = true) :
    (unlock : Coroutine ε Mutex Unit).turn host machine =
      .returned () (machine.withShared unlocked) := by
  refine (Coroutine.turn_bind Coroutine.requireBootCore _ machine).trans ?_
  rw [Coroutine.turn_requireBootCore, if_pos hmay]
  exact Coroutine.turn_act _ machine

theorem within_waitFree : (waitFree : Coroutine ε Mutex Unit).Within fun _ _ => True :=
  ⟨fun _ _ => trivial, fun _ => trivial⟩

theorem within_lock : (lock : Coroutine ε Mutex Unit).Within fun _ _ => True :=
  ⟨fun _ _ => trivial, fun _ => within_waitFree⟩

theorem within_unlock : (unlock : Coroutine ε Mutex Unit).Within fun _ _ => True :=
  ⟨fun _ _ => trivial, fun _ => ⟨fun _ _ => trivial, fun _ => trivial⟩⟩

end Mutex

namespace Semaphore

/-- Of a unit that there is, taking it leaves exactly one less. -/
theorem toNat_pred_add_one {count : UInt32} (hsome : count ≠ 0) :
    (count - 1).toNat + 1 = count.toNat := by
  have hpositive : 0 < count.toNat := by
    rw [Nat.pos_iff_ne_zero, ← UInt32.toNat_zero]
    exact fun hzero => hsome (UInt32.toNat_inj.1 hzero)
  have hone : (1 : UInt32) ≤ count := by
    rw [UInt32.le_iff_toNat_le]
    exact hpositive
  rw [UInt32.toNat_sub_of_le _ _ hone, UInt32.toNat_one]
  omega

variable {host : Host ε Semaphore} {machine : Machine ε Semaphore}

/-- What is left of taking a unit once the core was checked. -/
def waitUnit : Coroutine ε Semaphore Unit :=
  Coroutine.await fun semaphore =>
    match semaphore.take with
    | some semaphore => .ok (some ()) semaphore
    | none => .ok none semaphore

/-- Looking for a unit takes one if there is one and changes nothing otherwise. -/
theorem turn_waitUnit :
    (waitUnit : Coroutine ε Semaphore Unit).turn host machine =
      if machine.shared.count = 0 then .yielded waitUnit machine
      else .returned () (machine.withShared { count := machine.shared.count - 1 }) := by
  refine (Coroutine.turn_await _ machine).trans ?_
  by_cases hempty : machine.shared.count = 0
  · simp [take, hempty, waitUnit]
  · simp [take, hempty]

/-- Taking a unit takes it in this turn if there is one. -/
theorem turn_down (hmay : machine.scheduler.mayLock = true) :
    (down : Coroutine ε Semaphore Unit).turn host machine =
      if machine.shared.count = 0 then .yielded waitUnit machine
      else .returned () (machine.withShared { count := machine.shared.count - 1 }) := by
  refine (Coroutine.turn_bind Coroutine.requireBootCore (fun _ => waitUnit) machine).trans ?_
  rw [Coroutine.turn_requireBootCore, if_pos hmay]
  exact turn_waitUnit

/-- Trying to take a unit takes one if there is one and changes nothing otherwise; the answer,
which comes in this turn, says whether there was. -/
theorem turn_tryDown (hmay : machine.scheduler.mayLock = true) :
    (tryDown : Coroutine ε Semaphore Bool).turn host machine =
      if machine.shared.count = 0 then .returned false machine
      else .returned true (machine.withShared { count := machine.shared.count - 1 }) := by
  refine (Coroutine.turn_bind Coroutine.requireBootCore _ machine).trans ?_
  rw [Coroutine.turn_requireBootCore, if_pos hmay]
  refine (Coroutine.turn_act _ machine).trans ?_
  by_cases hempty : machine.shared.count = 0
  · simp [take, hempty]
  · simp [take, hempty]

/-- On a core that may lock, a unit is given back without a wait. -/
theorem turn_up (hmay : machine.scheduler.mayLock = true) :
    (up : Coroutine ε Semaphore Unit).turn host machine =
      .returned () (machine.withShared machine.shared.give) := by
  refine (Coroutine.turn_bind Coroutine.requireBootCore _ machine).trans ?_
  rw [Coroutine.turn_requireBootCore, if_pos hmay]
  exact Coroutine.turn_act _ machine

theorem within_waitUnit : (waitUnit : Coroutine ε Semaphore Unit).Within fun _ _ => True :=
  ⟨fun _ _ => trivial, fun _ => trivial⟩

theorem within_down : (down : Coroutine ε Semaphore Unit).Within fun _ _ => True :=
  ⟨fun _ _ => trivial, fun _ => within_waitUnit⟩

theorem within_up : (up : Coroutine ε Semaphore Unit).Within fun _ _ => True :=
  ⟨fun _ _ => trivial, fun _ => ⟨fun _ _ => trivial, fun _ => trivial⟩⟩

end Semaphore

namespace ReadWriteLock

@[simp] theorem toNat_writerBit : writerBit.toNat = 2 ^ 31 :=
  rfl

/-- The readers are counted in the word below the writer's bit. -/
theorem toNat_readers (lock : ReadWriteLock) :
    lock.readers.toNat = lock.word.toNat % 2 ^ 31 := by
  have hmask : (~~~writerBit).toNat = 2 ^ 31 - 1 := rfl
  rw [readers, UInt32.toNat_and, hmask, Nat.and_two_pow_sub_one_eq_mod]

/-- The writer's bit is the highest one of the word. -/
theorem isWriteLocked_iff (lock : ReadWriteLock) :
    lock.isWriteLocked = true ↔ 2 ^ 31 ≤ lock.word.toNat := by
  have hword := lock.word.toNat_lt
  rw [isWriteLocked, bne_iff_ne, ne_eq, ← UInt32.toNat_inj, UInt32.toNat_and, toNat_writerBit,
    Nat.and_two_pow, Nat.testBit_eq_decide_div_mod_eq]
  by_cases hset : lock.word.toNat / 2 ^ 31 % 2 = 1 <;> simp <;> omega

/-- Dropping the write side keeps the count of readers. -/
theorem word_dropWrite (lock : ReadWriteLock) : lock.dropWrite.word = lock.readers :=
  rfl

variable {host : Host ε ReadWriteLock} {machine : Machine ε ReadWriteLock}

/-- What is left of taking a read side once the core was checked. -/
def waitRead : Coroutine ε ReadWriteLock Unit :=
  Coroutine.await fun lock =>
    match lock.tryRead with
    | some lock => .ok (some ()) lock
    | none => .ok none lock

/-- What is left of taking the write side once the core was checked. -/
def waitWrite : Coroutine ε ReadWriteLock Unit :=
  Coroutine.await fun lock =>
    match lock.tryWrite with
    | some lock => .ok (some ()) lock
    | none => .ok none lock

/-- Looking at the lock takes a read side unless a writer has it. -/
theorem turn_waitRead :
    (waitRead : Coroutine ε ReadWriteLock Unit).turn host machine =
      match machine.shared.tryRead with
      | some lock => .returned () (machine.withShared lock)
      | none => .yielded waitRead machine := by
  refine (Coroutine.turn_await _ machine).trans ?_
  cases machine.shared.tryRead <;> rfl

/-- Looking at the lock takes the write side if nobody has any side. -/
theorem turn_waitWrite :
    (waitWrite : Coroutine ε ReadWriteLock Unit).turn host machine =
      match machine.shared.tryWrite with
      | some lock => .returned () (machine.withShared lock)
      | none => .yielded waitWrite machine := by
  refine (Coroutine.turn_await _ machine).trans ?_
  cases machine.shared.tryWrite <;> rfl

/-- On a core that may lock, taking the read side is a wait for it. -/
theorem turn_readLock (hmay : machine.scheduler.mayLock = true) :
    (readLock : Coroutine ε ReadWriteLock Unit).turn host machine =
      waitRead.turn host machine := by
  refine (Coroutine.turn_bind Coroutine.requireBootCore (fun _ => waitRead) machine).trans ?_
  rw [Coroutine.turn_requireBootCore, if_pos hmay]
  rfl

/-- On a core that may lock, taking the write side is a wait for it. -/
theorem turn_writeLock (hmay : machine.scheduler.mayLock = true) :
    (writeLock : Coroutine ε ReadWriteLock Unit).turn host machine =
      waitWrite.turn host machine := by
  refine (Coroutine.turn_bind Coroutine.requireBootCore (fun _ => waitWrite) machine).trans ?_
  rw [Coroutine.turn_requireBootCore, if_pos hmay]
  rfl

/-- A read side that is counted goes back in this turn. -/
theorem turn_readUnlock (hmay : machine.scheduler.mayLock = true)
    (hread : machine.shared.readers ≠ 0) :
    (readUnlock : Coroutine ε ReadWriteLock Unit).turn host machine =
      .returned () (machine.withShared { word := machine.shared.word - 1 }) := by
  refine (Coroutine.turn_bind Coroutine.requireBootCore _ machine).trans ?_
  rw [Coroutine.turn_requireBootCore, if_pos hmay]
  refine (Coroutine.turn_act _ machine).trans ?_
  simp [dropRead, hread]

theorem within_waitRead : (waitRead : Coroutine ε ReadWriteLock Unit).Within fun _ _ => True :=
  ⟨fun _ _ => trivial, fun _ => trivial⟩

theorem within_waitWrite : (waitWrite : Coroutine ε ReadWriteLock Unit).Within fun _ _ => True :=
  ⟨fun _ _ => trivial, fun _ => trivial⟩

theorem within_readLock : (readLock : Coroutine ε ReadWriteLock Unit).Within fun _ _ => True :=
  ⟨fun _ _ => trivial, fun _ => within_waitRead⟩

theorem within_writeLock : (writeLock : Coroutine ε ReadWriteLock Unit).Within fun _ _ => True :=
  ⟨fun _ _ => trivial, fun _ => within_waitWrite⟩

theorem within_readUnlock : (readUnlock : Coroutine ε ReadWriteLock Unit).Within fun _ _ => True :=
  ⟨fun _ _ => trivial, fun _ => ⟨fun _ _ => trivial, fun _ => trivial⟩⟩

theorem within_writeUnlock :
    (writeUnlock : Coroutine ε ReadWriteLock Unit).Within fun _ _ => True :=
  ⟨fun _ _ => trivial, fun _ => ⟨fun _ _ => trivial, fun _ => trivial⟩⟩

/-- On a core that may lock, the write side is given back without a wait and without a check. -/
theorem turn_writeUnlock (hmay : machine.scheduler.mayLock = true) :
    (writeUnlock : Coroutine ε ReadWriteLock Unit).turn host machine =
      .returned () (machine.withShared machine.shared.dropWrite) := by
  refine (Coroutine.turn_bind Coroutine.requireBootCore _ machine).trans ?_
  rw [Coroutine.turn_requireBootCore, if_pos hmay]
  exact Coroutine.turn_act _ machine

end ReadWriteLock

end DriverHost
