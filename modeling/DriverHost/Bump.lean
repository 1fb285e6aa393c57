import DriverHost.Alignment
import DriverHost.Memory

/-!
# Bump allocation

A bump allocator carves blocks off a range of addresses in the order they are asked for and
never takes one back.  A request that cannot be met leaves it as it was and says why: either
its size cannot be described together with its alignment, or the rest of the range is too
small.  Address zero is never handed out.

The kernel heap is such an allocator.  Its blocks are aligned to sixteen bytes and take at
least one byte, so every request has an address of its own.

Main results:

- Definitions `Bump.layout`, `Bump.allocate` and `Bump.remaining`.
- Definitions `Heap.allocate` and `Heap.allocateZeroed`, with `AllocError.message`.
-/

namespace DriverHost

/-- Why an allocator handed out no block. -/
inductive AllocError where
  /-- The rest of the range is too small. -/
  | exhausted (name : String) (size left : UInt64)
  /-- No block has this size at the alignment asked for. -/
  | oversized (name : String) (size : UInt64)
deriving DecidableEq, Repr

/-- The wording of an allocation error. -/
def AllocError.message : AllocError → String
  | .exhausted name size left =>
      name ++ " exhausted: " ++ toString size.toNat ++ " bytes requested, " ++
        toString left.toNat ++ " left"
  | .oversized name size =>
      name ++ " cannot describe a block of " ++ toString size.toNat ++ " bytes"

/-- A size with an alignment. -/
structure Layout where
  size : UInt64
  alignment : UInt64
deriving DecidableEq, Repr

/-- An allocator over the addresses from `next` up to `stop`, which it does not reach. -/
structure Bump where
  /-- The first address not handed out. -/
  next : UInt64
  /-- The end of the range. -/
  stop : UInt64
  /-- The name that errors carry. -/
  name : String
deriving DecidableEq, Repr

namespace Bump

/-- The layout of a block, if its size rounded up to the alignment is at most the largest
signed number. -/
def layout (pool : Bump) (size alignment : UInt64) : Except AllocError Layout :=
  if isPowerOfTwo alignment ∧ size.toNat + alignment.toNat ≤ 1 <<< 63 then .ok ⟨size, alignment⟩
  else .error (.oversized pool.name size)

/-- Bytes of the range not handed out. -/
def remaining (pool : Bump) : UInt64 :=
  if pool.next ≤ pool.stop then pool.stop - pool.next else 0

/-- Hand out the next block of a layout: it starts at the first aligned address and must end
inside the range. -/
def allocate (pool : Bump) (layout : Layout) :
    Except Fault (Except AllocError (UInt64 × Bump)) := do
  let start ← alignUp pool.next layout.alignment
  let exhausted := AllocError.exhausted pool.name layout.size pool.remaining
  let stop := start + layout.size
  if stop < start ∨ pool.stop < stop ∨ start = 0 then
    return .error exhausted
  else
    return .ok (start, { pool with next := stop })

end Bump

/-! ## The kernel heap -/

namespace Heap

/-- The alignment of every block of the heap. -/
def blockAlignment : UInt64 := 16

/-- The heap over a range of addresses. -/
def ofRange (start stop : UInt64) : Bump :=
  { next := start, stop, name := "kmalloc" }

/-- The layout of a block of the heap, which takes at least one byte. -/
def layout (heap : Bump) (size : UInt64) : Except AllocError Layout :=
  heap.layout (max size 1) blockAlignment

/-- A block of at least the size. -/
def allocate (heap : Bump) (size : UInt64) :
    Except Fault (Except AllocError (UInt64 × Bump)) :=
  match layout heap size with
  | .error e => .ok (.error e)
  | .ok shape => heap.allocate shape

/-- A cleared block of at least the size, with the memory it was cleared in. -/
def allocateZeroed (heap : Bump) (memory : Memory) (size : UInt64) :
    Except Fault (Except AllocError (UInt64 × Bump × Memory)) := do
  match ← allocate heap size with
  | .error e => return .error e
  | .ok (start, heap) =>
    return .ok (start, heap, memory.clear start (max size 1).toNat)

end Heap

/-- A cleared block of a layout, with the memory it was cleared in. -/
def Bump.allocateZeroed (pool : Bump) (memory : Memory) (layout : Layout) :
    Except Fault (Except AllocError (UInt64 × Bump × Memory)) := do
  match ← pool.allocate layout with
  | .error e => return .error e
  | .ok (start, pool) => return .ok (start, pool, memory.clear start layout.size.toNat)

end DriverHost
