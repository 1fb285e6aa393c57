import DriverHost.FragmentPool
import DriverHost.Proofs.LockTurns
import DriverHost.Proofs.Masks
import Mathlib.Data.Nat.Bitwise

/-!
# Turns of the fragment pool's code

The pool's bitmap is read as the set of the free fragments, and each turn of taking or returning
a fragment is a change of that set.  No task keeps the guard from one turn to the next, so a task
that takes a fragment only ever waits for the semaphore, and one that returns a fragment does not
wait at all.

Main results:

- Theorem `FragmentPool.takeLowest_cases`: the lowest free fragment is taken, if there is one.
- Theorem `FragmentPool.turn_acquire` and theorem `FragmentPool.turn_waiting`: a turn of taking a
  fragment.
- Theorem `FragmentPool.turn_release` and theorem `FragmentPool.turn_returning`: a turn of
  returning a fragment.
-/

namespace DriverHost

namespace FragmentPool

variable {ε : Type}

/-! ## The bitmap -/

/-- The fragment is free. -/
def isFree (pool : FragmentPool) (index : Nat) : Bool :=
  pool.free.toNat.testBit index

/-- The bit of a fragment is a power of two. -/
theorem toNat_bit {index : Nat} (hindex : index < 64) : (bit index).toNat = 2 ^ index := by
  have hpower : 2 ^ index < 2 ^ 64 := Nat.pow_lt_pow_right (by decide) hindex
  rw [bit, UInt64.toNat_shiftLeft, UInt64.toNat_ofNat', UInt64.toNat_one, Nat.shiftLeft_eq,
    Nat.one_mul]
  have hsmall : index % 2 ^ 64 % 64 = index := by omega
  rw [hsmall, Nat.mod_eq_of_lt hpower]

/-- Of the pool's bits, that of a fragment is set exactly if the fragment is free. -/
theorem and_bit_eq_zero_iff {pool : FragmentPool} {index : Nat} (hindex : index < 64) :
    pool.free &&& bit index = 0 ↔ pool.isFree index = false := by
  rw [← UInt64.toNat_inj, UInt64.toNat_and, toNat_bit hindex, UInt64.toNat_zero, isFree,
    Nat.and_two_pow]
  cases pool.free.toNat.testBit index <;> simp

/-- Clearing the bit of a fragment takes it from the free ones. -/
theorem testBit_and_not_bit {free : UInt64} {index : Nat} (hindex : index < 64) (other : Nat) :
    (free &&& ~~~bit index).toNat.testBit other =
      (free.toNat.testBit other && decide (other ≠ index)) := by
  have hcleared : (free &&& ~~~bit index).toNat.testBit other =
      (free.toNat.testBit other && (decide (other < 64) && !(bit index).toNat.testBit other)) := by
    simp only [← UInt64.toNat_toBitVec, UInt64.toBitVec_and, UInt64.toBitVec_not,
      BitVec.testBit_toNat, BitVec.getLsbD_and, BitVec.getLsbD_not]
  rw [hcleared, toNat_bit hindex, Nat.testBit_two_pow]
  by_cases hother : other < 64
  · simp [hother, eq_comm]
  · have hhigh : free.toNat.testBit other = false := by
      apply Nat.testBit_lt_two_pow
      exact Nat.lt_of_lt_of_le free.toNat_lt (Nat.pow_le_pow_right (by decide) (by omega))
    simp [hhigh]

/-- Setting the bit of a fragment adds it to the free ones. -/
theorem testBit_or_bit {free : UInt64} {index : Nat} (hindex : index < 64) (other : Nat) :
    (free ||| bit index).toNat.testBit other =
      (free.toNat.testBit other || decide (other = index)) := by
  rw [UInt64.toNat_or, toNat_bit hindex, Nat.testBit_or, Nat.testBit_two_pow]
  simp only [eq_comm]

/-- At first the fragments below the count are free. -/
theorem testBit_allFree {count : Nat} (hcount : count ≤ 64) (index : Nat) :
    (allFree count).toNat.testBit index = decide (index < count) := by
  have hpower : 2 ^ count ≤ 2 ^ 64 := Nat.pow_le_pow_right (by decide) hcount
  have hpos := Nat.two_pow_pos count
  rw [allFree, Nat.one_shiftLeft, UInt64.toNat_ofNat', Nat.mod_eq_of_lt (by omega),
    Nat.testBit_two_pow_sub_one]

/-- The lowest free fragment is taken; a pool without one has a bug. -/
theorem takeLowest_cases (pool : FragmentPool) :
    (∃ index, index < 64 ∧ pool.isFree index = true ∧
      (∀ lower < index, pool.isFree lower = false) ∧
      pool.takeLowest = .ok (index, { pool with free := pool.free &&& ~~~bit index })) ∨
    (∀ index < 64, pool.isFree index = false) ∧ pool.takeLowest = .error (.bug none) := by
  cases hlowest : lowestBit 64 pool.free.toNat with
  | some index =>
    have hfound := hlowest
    rw [lowestBit, List.find?_range_eq_some] at hfound
    obtain ⟨hfree, hmem, hlower⟩ := hfound
    refine Or.inl ⟨index, List.mem_range.1 hmem, hfree, ?_, ?_⟩
    · intro lower hlt
      simpa [isFree] using hlower lower hlt
    · exact takeLowest_eq_ok_iff.2 ⟨hlowest, rfl⟩
  | none =>
    refine Or.inr ⟨?_, by simp only [takeLowest, hlowest]⟩
    intro index hindex
    have hnone := List.find?_eq_none.1 hlowest index (List.mem_range.2 hindex)
    simpa [isFree] using hnone

/-! ## Parts of the pool -/

theorem lawful_availableView : availableView.Lawful :=
  ⟨fun _ => rfl, fun _ _ => rfl, fun _ _ _ => rfl⟩

theorem lawful_guardView : guardView.Lawful :=
  ⟨fun _ => rfl, fun _ _ => rfl, fun _ _ _ => rfl⟩

/-- Acquiring a fragment starts no threads, runs no rounds and stays on its core. -/
theorem within_acquire : (acquire : Coroutine ε FragmentPool Nat).Within fun _ _ => True := by
  refine (Semaphore.within_down.zoom fun _ _ => trivial).bind fun _ => ?_
  refine (Mutex.within_lock.zoom fun _ _ => trivial).bind fun _ => ?_
  refine Coroutine.Within.bind ⟨fun _ _ => trivial, fun _ => trivial⟩ fun _ => ?_
  exact (Mutex.within_unlock.zoom fun _ _ => trivial).bind fun _ => trivial

section Turns

variable {host : Host ε FragmentPool} (machine : Machine ε FragmentPool)

/-- Looking for a free fragment counts one less, or waits while there is none. -/
theorem turn_waitUnit_zoom :
    (Semaphore.waitUnit.zoom availableView : Coroutine ε FragmentPool Unit).turn host machine =
      if machine.shared.available.count = 0 then
        .yielded (Semaphore.waitUnit.zoom availableView) machine
      else .returned () (machine.withShared { machine.shared with
        available := { count := machine.shared.available.count - 1 } }) := by
  have hcount : (machine.part availableView).shared.count = machine.shared.available.count := rfl
  rw [Coroutine.turn_zoom lawful_availableView Semaphore.within_waitUnit,
    Semaphore.turn_waitUnit, hcount]
  by_cases hempty : machine.shared.available.count = 0
  · rw [if_pos hempty, if_pos hempty]
    rfl
  · rw [if_neg hempty, if_neg hempty]
    rfl

/-- Taking a unit of the semaphore does the same once the core was checked. -/
theorem turn_down_zoom (hmay : machine.scheduler.mayLock = true) :
    (Semaphore.down.zoom availableView : Coroutine ε FragmentPool Unit).turn host machine =
      (Semaphore.waitUnit.zoom availableView).turn host machine := by
  have hpart : (machine.part availableView).scheduler.mayLock = true := hmay
  rw [Coroutine.turn_zoom lawful_availableView Semaphore.within_down, Semaphore.turn_down hpart,
    Coroutine.turn_zoom lawful_availableView Semaphore.within_waitUnit, Semaphore.turn_waitUnit]

/-- Looking at the guard takes it if it is free, and waits otherwise. -/
theorem turn_waitFree_zoom :
    (Mutex.waitFree.zoom guardView : Coroutine ε FragmentPool Unit).turn host machine =
      if machine.shared.guard.isLocked then .yielded (Mutex.waitFree.zoom guardView) machine
      else .returned () (machine.withShared { machine.shared with guard := { word := 1 } }) := by
  have hguard : (machine.part guardView).shared.isLocked = machine.shared.guard.isLocked := rfl
  rw [Coroutine.turn_zoom lawful_guardView Mutex.within_waitFree, Mutex.turn_waitFree, hguard]
  by_cases hlocked : machine.shared.guard.isLocked = true
  · rw [if_pos hlocked, if_pos hlocked]
    rfl
  · rw [if_neg hlocked, if_neg hlocked]
    rfl

/-- Taking the guard does the same once the core was checked. -/
theorem turn_lock_zoom (hmay : machine.scheduler.mayLock = true) :
    (Mutex.lock.zoom guardView : Coroutine ε FragmentPool Unit).turn host machine =
      (Mutex.waitFree.zoom guardView).turn host machine := by
  have hpart : (machine.part guardView).scheduler.mayLock = true := hmay
  rw [Coroutine.turn_zoom lawful_guardView Mutex.within_lock, Mutex.turn_lock hpart,
    Coroutine.turn_zoom lawful_guardView Mutex.within_waitFree, Mutex.turn_waitFree]

/-- On a core that may lock, the guard is opened without a wait and nothing else of the pool
changes. -/
theorem turn_unlock_zoom (hmay : machine.scheduler.mayLock = true) :
    (Mutex.unlock.zoom guardView : Coroutine ε FragmentPool Unit).turn host machine =
      .returned () (machine.withShared { machine.shared with guard := Mutex.unlocked }) := by
  have hpart : (machine.part guardView).scheduler.mayLock = true := hmay
  rw [Coroutine.turn_zoom lawful_guardView Mutex.within_unlock, Mutex.turn_unlock hpart]
  rfl

/-- On a core that may lock, the count goes up by one without a wait and nothing else of the pool
changes. -/
theorem turn_up_zoom (hmay : machine.scheduler.mayLock = true) :
    (Semaphore.up.zoom availableView : Coroutine ε FragmentPool Unit).turn host machine =
      .returned () (machine.withShared { machine.shared with
        available := machine.shared.available.give }) := by
  have hpart : (machine.part availableView).scheduler.mayLock = true := hmay
  rw [Coroutine.turn_zoom lawful_availableView Semaphore.within_up, Semaphore.turn_up hpart]
  rfl

/-! ## Taking a fragment -/

/-- A pool from which a fragment was taken. -/
def taken (pool : FragmentPool) (index : Nat) : FragmentPool :=
  { pool with
    free := pool.free &&& ~~~bit index
    available := { count := pool.available.count - 1 }
    guard := Mutex.unlocked }

/-- Taking a fragment takes its own bit and no other. -/
theorem isFree_taken (pool : FragmentPool) {index : Nat} (hindex : index < 64) (other : Nat) :
    (pool.taken index).isFree other = (pool.isFree other && decide (other ≠ index)) :=
  testBit_and_not_bit hindex other

/-- Clear the bit of the lowest free fragment. -/
def clearLowest : Action FragmentPool Nat := fun pool =>
  match pool.takeLowest with
  | .ok (index, pool) => .ok index pool
  | .error cause => .error cause pool

/-- Take the lowest free fragment under the guard. -/
def takeBit : Coroutine ε FragmentPool Nat :=
  (Mutex.lock.zoom guardView).bind fun _ =>
    (Coroutine.act clearLowest).bind fun index =>
      (Mutex.unlock.zoom guardView).bind fun _ => .done index

/-- What is left of taking a fragment once the core was checked. -/
def waiting : Coroutine ε FragmentPool Nat :=
  (Semaphore.waitUnit.zoom availableView).bind fun _ => takeBit

/-- Waiting for a fragment starts no threads, runs no rounds and stays on its core. -/
theorem within_waiting : (waiting : Coroutine ε FragmentPool Nat).Within fun _ _ => True := by
  refine (Semaphore.within_waitUnit.zoom fun _ _ => trivial).bind fun _ => ?_
  refine (Mutex.within_lock.zoom fun _ _ => trivial).bind fun _ => ?_
  refine Coroutine.Within.bind ⟨fun _ _ => trivial, fun _ => trivial⟩ fun _ => ?_
  exact (Mutex.within_unlock.zoom fun _ _ => trivial).bind fun _ => trivial

/-- Under a free guard the lowest free fragment is taken in this turn. -/
theorem turn_takeBit (hmay : machine.scheduler.mayLock = true)
    (hguard : ¬ machine.shared.guard.isLocked = true) {index : Nat}
    (hlowest : lowestBit 64 machine.shared.free.toNat = some index) :
    (takeBit : Coroutine ε FragmentPool Nat).turn host machine =
      .returned index (machine.withShared { machine.shared with
        free := machine.shared.free &&& ~~~bit index, guard := Mutex.unlocked }) := by
  rw [takeBit, Coroutine.turn_bind, turn_lock_zoom machine hmay, turn_waitFree_zoom,
    if_neg hguard]
  simp only [Coroutine.carryOn]
  rw [Coroutine.turn_bind, Coroutine.turn_act]
  simp only [clearLowest, Machine.withShared_shared, takeLowest, hlowest, Coroutine.carryOn]
  rw [Coroutine.turn_bind, turn_unlock_zoom]
  · rfl
  · exact hmay

/-- Looking for a free fragment takes the lowest one if one is counted, and waits otherwise. -/
theorem turn_waiting (hmay : machine.scheduler.mayLock = true)
    (hguard : ¬ machine.shared.guard.isLocked = true) {index : Nat}
    (hlowest : machine.shared.available.count ≠ 0 →
      lowestBit 64 machine.shared.free.toNat = some index) :
    (waiting : Coroutine ε FragmentPool Nat).turn host machine =
      if machine.shared.available.count = 0 then .yielded waiting machine
      else .returned index (machine.withShared (machine.shared.taken index)) := by
  rw [waiting, Coroutine.turn_bind, turn_waitUnit_zoom]
  by_cases hempty : machine.shared.available.count = 0
  · rw [if_pos hempty, if_pos hempty]
    rfl
  · rw [if_neg hempty, if_neg hempty]
    simp only [Coroutine.carryOn]
    rw [turn_takeBit]
    · rfl
    · exact hmay
    · exact hguard
    · exact hlowest hempty

/-- Taking a fragment begins with checking the core. -/
theorem turn_acquire (hmay : machine.scheduler.mayLock = true) :
    (acquire : Coroutine ε FragmentPool Nat).turn host machine = waiting.turn host machine := by
  have hacquire : (acquire : Coroutine ε FragmentPool Nat) =
      (Semaphore.down.zoom availableView).bind fun _ => takeBit := rfl
  rw [hacquire, waiting, Coroutine.turn_bind, Coroutine.turn_bind, turn_down_zoom machine hmay]

/-! ## Returning a fragment -/

/-- A pool to which a fragment was returned. -/
def returned (pool : FragmentPool) (index : Nat) : FragmentPool :=
  { pool with
    free := pool.free ||| bit index
    available := pool.available.give
    guard := Mutex.unlocked }

/-- Returning a fragment sets its own bit and no other. -/
theorem isFree_returned (pool : FragmentPool) {index : Nat} (hindex : index < 64) (other : Nat) :
    (pool.returned index).isFree other = (pool.isFree other || decide (other = index)) :=
  testBit_or_bit hindex other

/-- The fragment is one of the pool's and somebody has it. -/
def IsLent (pool : FragmentPool) (index : Nat) : Prop :=
  index < pool.count ∧ pool.free &&& bit index = 0

instance (pool : FragmentPool) (index : Nat) : Decidable (pool.IsLent index) :=
  inferInstanceAs (Decidable (_ ∧ _))

/-- Check that the pool has a fragment with this index. -/
def checkIndex (index : Nat) : Action FragmentPool Unit := fun pool =>
  if index < pool.count then .ok () pool else .error (.bug none) pool

/-- Set the bit of a fragment. -/
def setBit (index : Nat) : Action FragmentPool Unit := fun pool =>
  match pool.putBack index with
  | .ok pool => .ok () pool
  | .error cause => .error cause pool

/-- Put a fragment back under a guard that was taken. -/
def giveBit (index : Nat) : Coroutine ε FragmentPool Unit :=
  (Coroutine.act (setBit index)).bind fun _ =>
    (Mutex.unlock.zoom guardView).bind fun _ => Semaphore.up.zoom availableView

/-- Putting a lent fragment back succeeds in this turn. -/
theorem turn_giveBit (hmay : machine.scheduler.mayLock = true) {index : Nat}
    (hlent : machine.shared.free &&& bit index = 0) :
    (giveBit index : Coroutine ε FragmentPool Unit).turn host machine =
      .returned () (machine.withShared (machine.shared.returned index)) := by
  rw [giveBit, Coroutine.turn_bind, Coroutine.turn_act]
  simp only [setBit, putBack, hlent, if_true, Coroutine.carryOn]
  rw [Coroutine.turn_bind, turn_unlock_zoom]
  · simp only [Coroutine.carryOn]
    rw [turn_up_zoom]
    · rfl
    · exact hmay
  · exact hmay

/-- Putting back a fragment that is free is a bug. -/
theorem turn_giveBit_free {index : Nat} (hfree : machine.shared.free &&& bit index ≠ 0) :
    ∃ last, (giveBit index : Coroutine ε FragmentPool Unit).turn host machine =
      .failed (.bug none) last := by
  rw [giveBit, Coroutine.turn_bind, Coroutine.turn_act]
  simp only [setBit, putBack, hfree, if_false]
  exact ⟨_, rfl⟩

/-- Returning a fragment checks its index, takes the guard and puts the fragment back. -/
theorem release_eq (index : Nat) :
    (release index : Coroutine ε FragmentPool Unit) =
      (Coroutine.act (checkIndex index)).bind fun _ =>
        (Mutex.lock.zoom guardView).bind fun _ => giveBit index :=
  rfl

/-- What is left of returning a fragment once its index and the core were checked. -/
def returning (index : Nat) : Coroutine ε FragmentPool Unit :=
  (Mutex.waitFree.zoom guardView).bind fun _ => giveBit index

/-- A lent fragment goes back if the guard is free, and waits for it otherwise. -/
theorem turn_returning (hmay : machine.scheduler.mayLock = true) {index : Nat}
    (hlent : machine.shared.IsLent index) :
    (returning index : Coroutine ε FragmentPool Unit).turn host machine =
      if machine.shared.guard.isLocked then .yielded (returning index) machine
      else .returned () (machine.withShared (machine.shared.returned index)) := by
  rw [returning, Coroutine.turn_bind, turn_waitFree_zoom]
  by_cases hlocked : machine.shared.guard.isLocked = true
  · rw [if_pos hlocked, if_pos hlocked]
    rfl
  · rw [if_neg hlocked, if_neg hlocked]
    simp only [Coroutine.carryOn]
    rw [turn_giveBit]
    · rfl
    · exact hmay
    · exact hlent.2

/-- Returning a free fragment passes the same checks and stops at its bit. -/
theorem turn_release_free (hmay : machine.scheduler.mayLock = true)
    (hguard : ¬ machine.shared.guard.isLocked = true) {index : Nat}
    (hindex : index < machine.shared.count)
    (hfree : machine.shared.free &&& bit index ≠ 0) :
    ∃ last, (release index : Coroutine ε FragmentPool Unit).turn host machine =
      .failed (.bug none) last := by
  rw [release_eq, Coroutine.turn_bind, Coroutine.turn_act]
  simp only [checkIndex, hindex, if_true, Coroutine.carryOn, Machine.withShared_self]
  rw [Coroutine.turn_bind, turn_lock_zoom machine hmay, turn_waitFree_zoom, if_neg hguard]
  simp only [Coroutine.carryOn]
  exact turn_giveBit_free _ hfree

/-- Returning a lent fragment begins with checks that it passes. -/
theorem turn_release (hmay : machine.scheduler.mayLock = true) {index : Nat}
    (hlent : machine.shared.IsLent index) :
    (release index : Coroutine ε FragmentPool Unit).turn host machine =
      (returning index).turn host machine := by
  rw [release_eq, Coroutine.turn_bind, Coroutine.turn_act]
  simp only [checkIndex, hlent.1, if_true, Coroutine.carryOn, Machine.withShared_self]
  rw [returning, Coroutine.turn_bind, Coroutine.turn_bind, turn_lock_zoom machine hmay]

end Turns

theorem within_giveBit (index : Nat) :
    (giveBit index : Coroutine ε FragmentPool Unit).Within fun _ _ => True := by
  refine Coroutine.Within.bind ⟨fun _ _ => trivial, fun _ => trivial⟩ fun _ => ?_
  refine (Mutex.within_unlock.zoom fun _ _ => trivial).bind fun _ => ?_
  exact Semaphore.within_up.zoom fun _ _ => trivial

theorem within_returning (index : Nat) :
    (returning index : Coroutine ε FragmentPool Unit).Within fun _ _ => True :=
  (Mutex.within_waitFree.zoom fun _ _ => trivial).bind fun _ => within_giveBit index

/-- Releasing a fragment starts no threads, runs no rounds and stays on its core. -/
theorem within_release (index : Nat) :
    (release index : Coroutine ε FragmentPool Unit).Within fun _ _ => True := by
  refine Coroutine.Within.bind ⟨fun _ _ => trivial, fun _ => trivial⟩ fun _ => ?_
  exact (Mutex.within_lock.zoom fun _ _ => trivial).bind fun _ => within_giveBit index

end FragmentPool

end DriverHost
