import DriverHost.Alignment
import DriverHost.Interrupt
import DriverHost.Lock.Mutex
import DriverHost.Lock.Semaphore

/-!
# Fragments

A transfer into memory that does not begin and end on a cache line borrows a fragment: two
lines of memory of their own, one for the beginning and one for the end.  A pool of at most
sixty-four fragments keeps a bit for each one that is free.  A semaphore counts the free
ones, so that a task waits without looking at the bits, and a mutex guards the bits.

Main results:

- Definitions `FragmentPool.ofMemory`, `acquire` and `release` are the code that runs.
- Lemma `takeLowest_eq_ok_iff` says that the lowest free fragment is handed out.
-/

namespace DriverHost

/-- Fragments in memory, the ones that are free, and what guards them. -/
structure FragmentPool where
  /-- The address of the first fragment. -/
  base : UInt64 := 0
  /-- Bytes of a fragment. -/
  fragmentSize : UInt64 := 0
  /-- How many fragments there are. -/
  count : Nat := 0
  /-- A bit for each free fragment. -/
  free : UInt64 := 0
  /-- Counts the free fragments. -/
  available : Semaphore := {}
  /-- Guards the bits. -/
  guard : Mutex := {}
deriving DecidableEq, Repr

namespace FragmentPool

/-- The largest pool. -/
def maxFragments : Nat := 64

/-- The bit of a fragment. -/
def bit (index : Nat) : UInt64 :=
  1 <<< UInt64.ofNat index

/-- The bits of the first fragments, all of them for the largest pool. -/
def allFree (count : Nat) : UInt64 :=
  UInt64.ofNat (1 <<< count - 1)

/-- Hand a number of fragments of two cache lines each to the pool, all of them free.  A task
in the middle of taking or returning one keeps its guard. -/
def refill (pool : FragmentPool) (base : UInt64) (count : Nat) (cacheLine : UInt64) :
    Except Fault FragmentPool := do
  bugIf (count == 0 || maxFragments < count)
  bugIf (!isPowerOfTwo cacheLine)
  let fragmentSize ← mulWords 2 cacheLine
  return { pool with
    base, fragmentSize, count
    free := allFree count
    available := { count := UInt32.ofNat count } }

/-- Bytes of a cache line. -/
def cacheLine (pool : FragmentPool) : UInt64 :=
  pool.fragmentSize / 2

/-- The address of a fragment. -/
def address (pool : FragmentPool) (index : UInt64) : Except Fault UInt64 := do
  addWords pool.base (← mulWords index pool.fragmentSize)

/-- Fragments that nobody has. -/
def freeCount (pool : FragmentPool) : UInt32 :=
  pool.available.count

/-- Take the lowest free fragment, a bug if there is none. -/
def takeLowest (pool : FragmentPool) : Except Fault (Nat × FragmentPool) :=
  match lowestBit 64 pool.free.toNat with
  | none => .error (.bug none)
  | some index => .ok (index, { pool with free := pool.free &&& ~~~bit index })

/-- Mark a fragment free, a bug if it is. -/
def putBack (pool : FragmentPool) (index : Nat) : Except Fault FragmentPool :=
  if pool.free &&& bit index = 0 then .ok { pool with free := pool.free ||| bit index }
  else .error (.bug none)

/-- The lowest free fragment is the one that is handed out, and it is then taken. -/
theorem takeLowest_eq_ok_iff {pool next : FragmentPool} {index : Nat} :
    pool.takeLowest = .ok (index, next) ↔
      lowestBit 64 pool.free.toNat = some index ∧
        next = { pool with free := pool.free &&& ~~~bit index } := by
  unfold takeLowest
  cases lowestBit 64 pool.free.toNat <;> grind

/-- The part of a pool that counts the free fragments. -/
def availableView : Coroutine.View FragmentPool Semaphore where
  get pool := pool.available
  set available pool := { pool with available }

/-- The part of a pool that guards the bits. -/
def guardView : Coroutine.View FragmentPool Mutex where
  get pool := pool.guard
  set guard pool := { pool with guard }

/-- Wait until a fragment is free and take it; the answer is its index. -/
def acquire {ε : Type} : Coroutine ε FragmentPool Nat := do
  Semaphore.down.zoom availableView
  Mutex.lock.zoom guardView
  let index ← Coroutine.act fun pool =>
    match pool.takeLowest with
    | .ok (index, pool) => .ok index pool
    | .error cause => .error cause pool
  Mutex.unlock.zoom guardView
  return index

/-- Return a fragment. -/
def release {ε : Type} (index : Nat) : Coroutine ε FragmentPool Unit := do
  Coroutine.act fun pool =>
    if index < pool.count then .ok () pool else .error (.bug none) pool
  Mutex.lock.zoom guardView
  Coroutine.act fun pool =>
    match pool.putBack index with
    | .ok pool => .ok () pool
    | .error cause => .error cause pool
  Mutex.unlock.zoom guardView
  Semaphore.up.zoom availableView

end FragmentPool

end DriverHost
