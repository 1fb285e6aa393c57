import DriverHost.Script.World

/-!
# Operations on allocators

Main results:

- Definition `HeapOp.perform`.
-/

namespace DriverHost.Script

/-- An allocation's result as an answer. -/
def blockReply (result : Except AllocError UInt64) : Reply :=
  match result with
  | .ok start => .number start.toNat
  | .error e => .refused (.block e)

/-- Work on the script's own allocator with its memory. -/
def onPool (allocate : Bump → Memory → Layout →
    Except Fault (Except AllocError (UInt64 × Bump × Memory)))
    (size alignment : UInt64) : Action World Reply := fun world =>
  let pool := world.outside.pool
  match pool.layout size alignment with
  | .error e => .ok (.refused (.block e)) world
  | .ok layout =>
      match allocate pool world.board.device layout with
      | .error cause => .error cause world
      | .ok (.error e) => .ok (.refused (.block e)) world
      | .ok (.ok (start, pool, device)) =>
          .ok (.number start.toNat)
            { world with
              board := { world.board with device }
              outside := { world.outside with pool } }

/-- An allocation that leaves the memory alone. -/
def allocateOnly (pool : Bump) (memory : Memory) (layout : Layout) :
    Except Fault (Except AllocError (UInt64 × Bump × Memory)) := do
  match ← pool.allocate layout with
  | .error e => return .error e
  | .ok (start, pool) => return .ok (start, pool, memory)

/-- Perform an operation on the kernel heap or on the script's own allocator. -/
def HeapOp.perform : HeapOp → Code Reply
  | allocate size => do
      let result ← Coroutine.act (Kernel.allocate size)
      return blockReply result
  | allocateZeroed size => do
      let result ← Coroutine.act (Kernel.allocateZeroed size)
      return blockReply result
  | free => return .nothing
  | left => Coroutine.act (look fun world => .number world.heap.remaining.toNat)
  | poolNew start stop name => do
      Coroutine.act (onBench fun bench => { bench with pool := { next := start, stop, name } })
      return .nothing
  | poolLeft => Coroutine.act (look fun world => .number world.outside.pool.remaining.toNat)
  | poolLayout size alignment =>
      Coroutine.act (look fun world =>
        match world.outside.pool.layout size alignment with
        | .ok layout => .layout layout
        | .error e => .refused (.block e))
  | poolAllocate size alignment => Coroutine.act (onPool allocateOnly size alignment)
  | poolAllocateZeroed size alignment =>
      Coroutine.act (onPool Bump.allocateZeroed size alignment)
  | poolFree => return .nothing

end DriverHost.Script
