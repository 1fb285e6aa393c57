import DriverHost.Kernel
import DriverHost.Proofs.BringUp
import DriverHost.Proofs.HeaderBlocks

/-!
# Runs of allocations

An allocator keeps nothing but its cursor, and every block it hands out begins at the cursor or
behind it and ends where the cursor stands afterwards.  So the blocks of a run follow each other
through the range, and a request that was refused might as well not have been made.  The kernel
heap is such an allocator, whose requests ask for at least one byte, aligned to sixteen.

Main results:

- Definition `BlockRequest.serve` and definition `HeapRequest.serve`: one request to an allocator
  and one to the kernel heap.
- Structure `Serves`: what an answer says about the state behind it.
- Structure `HandsOut`: what a run of requests leaves, with theorem `Serves.handsOut`.
- Theorem `blocks_aligned_and_apart`: both allocators hand blocks out that way.
-/

namespace DriverHost

variable {ρ σ η κ : Type}

/-! ## Requests and blocks -/

/-- An allocator with the memory its blocks lie in. -/
structure Storage where
  pool : Bump
  memory : Memory

/-- A request for a block. -/
structure BlockRequest where
  size : UInt64
  alignment : UInt64
  /-- The block is to be cleared. -/
  cleared : Bool := false
deriving DecidableEq

/-- A block that was handed out for a request. -/
structure Block extends BlockRequest where
  start : UInt64
deriving DecidableEq

namespace Block

/-- The first address behind a block. -/
def stop (block : Block) : Nat :=
  block.start.toNat + block.size.toNat

/-- An address lies in a block. -/
def Covers (block : Block) (address : UInt64) : Prop :=
  (address - block.start).toNat < block.size.toNat

instance (block : Block) (address : UInt64) : Decidable (block.Covers address) :=
  inferInstanceAs (Decidable (_ < _))

end Block

/-- Serve a request, after finding a layout for it. -/
def BlockRequest.serve (request : BlockRequest) : Action Storage (Except AllocError UInt64) :=
  fun storage =>
    match storage.pool.layout request.size request.alignment with
    | .error e => .ok (.error e) storage
    | .ok layout =>
        if request.cleared then
          match storage.pool.allocateZeroed storage.memory layout with
          | .error cause => .error cause storage
          | .ok (.error e) => .ok (.error e) storage
          | .ok (.ok (start, pool, memory)) => .ok (.ok start) ⟨pool, memory⟩
        else
          match storage.pool.allocate layout with
          | .error cause => .error cause storage
          | .ok (.error e) => .ok (.error e) storage
          | .ok (.ok (start, pool)) => .ok (.ok start) { storage with pool }

/-- A request to the kernel heap. -/
structure HeapRequest where
  size : UInt64
  /-- The block is to be cleared. -/
  cleared : Bool := false
deriving DecidableEq

namespace HeapRequest

/-- The request in the terms of the allocator behind the heap. -/
def shape (request : HeapRequest) : BlockRequest where
  size := max request.size 1
  alignment := Heap.blockAlignment
  cleared := request.cleared

/-- Serve a request to the kernel heap. -/
def serve (request : HeapRequest) : Action (Kernel η κ) (Except AllocError UInt64) :=
  if request.cleared then Kernel.allocateZeroed request.size else Kernel.allocate request.size

end HeapRequest

/-- The heap of a kernel with the memory of its board. -/
def Kernel.storageView : Coroutine.View (Kernel η κ) Storage where
  get kernel := ⟨kernel.heap, kernel.board.device⟩
  set storage kernel :=
    { kernel with heap := storage.pool, board := { kernel.board with device := storage.memory } }

/-- Serve requests one after the other, and put each down with its answer. -/
def serveAll {α : Type} (serve : ρ → Action σ α) : List ρ → Action σ (List (ρ × α))
  | [] => return []
  | request :: rest => do
      let answer ← serve request
      let served ← serveAll serve rest
      return (request, answer) :: served

/-- The blocks that were handed out for requests. -/
def blocksOf (shape : ρ → BlockRequest) (served : List (ρ × Except AllocError UInt64)) :
    List Block :=
  served.filterMap fun entry =>
    match entry.2 with
    | .ok start => some ⟨shape entry.1, start⟩
    | .error _ => none

@[simp] theorem blocksOf_given (shape : ρ → BlockRequest) (request : ρ) (start : UInt64)
    (served : List (ρ × Except AllocError UInt64)) :
    blocksOf shape ((request, .ok start) :: served) =
      ⟨shape request, start⟩ :: blocksOf shape served :=
  rfl

/-- A refused request adds no block. -/
@[simp] theorem blocksOf_refused (shape : ρ → BlockRequest) (request : ρ) (e : AllocError)
    (served : List (ρ × Except AllocError UInt64)) :
    blocksOf shape ((request, .error e) :: served) = blocksOf shape served :=
  rfl

/-- A block was handed out for one of the requests. -/
theorem exists_of_mem_blocksOf {shape : ρ → BlockRequest}
    {served : List (ρ × Except AllocError UInt64)} {block : Block}
    (hblock : block ∈ blocksOf shape served) :
    ∃ request, (request, .ok block.start) ∈ served ∧ block.toBlockRequest = shape request := by
  obtain ⟨⟨request, answer⟩, hmem, hentry⟩ := List.mem_filterMap.1 hblock
  cases answer with
  | error e => cases hentry
  | ok start =>
    cases hentry
    exact ⟨request, hmem, rfl⟩

/-! ## One request -/

/-- What is left of a pool after its cursor has moved. -/
theorem Bump.toNat_remaining (pool : Bump) :
    pool.remaining.toNat = pool.stop.toNat - pool.next.toNat := by
  rw [remaining]
  split
  · next hle => exact UInt64.toNat_sub_of_le _ _ hle
  · next hle =>
    rw [UInt64.le_iff_toNat_le] at hle
    rw [UInt64.toNat_zero]
    omega

/-- A block was handed out for a request. -/
structure Given (block : Block) (before after : Storage) : Prop where
  nonnull : block.start ≠ 0
  aligned : block.alignment.toNat ∣ block.start.toNat
  above : before.pool.next.toNat ≤ block.start.toNat
  inside : block.stop ≤ before.pool.stop.toNat
  next : after.pool.next.toNat = block.stop
  stop : after.pool.stop = before.pool.stop
  memory : ∀ address, after.memory.byte address =
    if block.cleared = true ∧ block.Covers address then 0 else before.memory.byte address

/-- An allocator serves each request by a new block or leaves its state as it was. -/
structure Serves (serve : ρ → Action σ (Except AllocError UInt64)) (shape : ρ → BlockRequest)
    (storage : σ → Storage) : Prop where
  given : ∀ {request start before after}, serve request before = .ok (.ok start) after →
    Given ⟨shape request, start⟩ (storage before) (storage after)
  refused : ∀ {request e before after}, serve request before = .ok (.error e) after →
    after = before

/-- A block that the pool allocates is given, with its memory cleared if the request asks for that
and left alone otherwise. -/
theorem Given.of_allocate {pool next : Bump} {layout : Layout} {start : UInt64} {cleared : Bool}
    {before after : Memory} (hallocate : pool.allocate layout = .ok (.ok (start, next)))
    (hmemory : after = if cleared then before.clear start layout.size.toNat else before) :
    Given ⟨⟨layout.size, layout.alignment, cleared⟩, start⟩ ⟨pool, before⟩ ⟨next, after⟩ := by
  obtain ⟨hstart, hnonnull, hinside, rfl⟩ := Bump.allocate_eq_ok hallocate
  obtain ⟨haligned, habove, -⟩ := alignUp_eq_ok hstart
  have htop := pool.stop.toNat_lt
  have hnext : (start + layout.size).toNat = start.toNat + layout.size.toNat := by
    rw [UInt64.toNat_add]
    omega
  refine ⟨hnonnull, haligned, habove, hinside, hnext, rfl, fun address => ?_⟩
  subst hmemory
  cases cleared with
  | false => simp
  | true => simp [Memory.clear, Memory.byte_store, Block.Covers]

/-- An allocator serves requests. -/
theorem serves_block : Serves BlockRequest.serve id id where
  given := by
    intro request start before after hserve
    rw [BlockRequest.serve] at hserve
    split at hserve
    · cases hserve
    · next layout hlayout =>
      obtain rfl := Bump.layout_eq_ok hlayout
      split at hserve
      · next hcleared =>
        split at hserve
        · cases hserve
        · cases hserve
        · next place pool memory hallocate =>
          cases hserve
          obtain ⟨answer, hanswer, hallocate⟩ := bind_eq_ok_iff.1 hallocate
          cases answer with
          | error e => simp [pure, Except.pure] at hallocate
          | ok block =>
            simp only [pure, Except.pure, Except.ok.injEq, Prod.mk.injEq] at hallocate
            obtain ⟨rfl, rfl, rfl⟩ := hallocate
            exact Given.of_allocate hanswer (by rw [hcleared]; rfl)
      · next hcleared =>
        split at hserve
        · cases hserve
        · cases hserve
        · next place pool hallocate =>
          cases hserve
          exact Given.of_allocate hallocate (if_neg hcleared).symm
  refused := by
    intro request e before after hserve
    rw [BlockRequest.serve] at hserve
    grind

/-- The kernel heap serves a request as an allocator does. -/
theorem HeapRequest.serve_eq (request : HeapRequest) (kernel : Kernel η κ) :
    request.serve kernel = Kernel.storageView.lift request.shape.serve kernel := by
  obtain ⟨size, cleared⟩ := request
  have hlayout : Heap.layout kernel.heap size =
      kernel.heap.layout (max size 1) Heap.blockAlignment := rfl
  simp only [HeapRequest.serve, HeapRequest.shape, Coroutine.View.lift, BlockRequest.serve,
    Kernel.storageView]
  cases cleared with
  | false =>
    simp only [Bool.false_eq_true, if_false, Kernel.allocate, Heap.allocate, hlayout]
    cases kernel.heap.layout (max size 1) Heap.blockAlignment with
    | error e => rfl
    | ok layout =>
      simp only
      rcases kernel.heap.allocate layout with cause | e | block <;> rfl
  | true =>
    simp only [if_true, Kernel.allocateZeroed, Heap.allocateZeroed, Heap.allocate, hlayout]
    cases hshape : kernel.heap.layout (max size 1) Heap.blockAlignment with
    | error e => rfl
    | ok layout =>
      obtain rfl := Bump.layout_eq_ok hshape
      simp only [Bump.allocateZeroed]
      rcases kernel.heap.allocate ⟨max size 1, Heap.blockAlignment⟩ with cause | e | block <;> rfl

/-- So the kernel heap serves requests too. -/
theorem serves_heap :
    Serves (HeapRequest.serve (η := η) (κ := κ)) HeapRequest.shape Kernel.storageView.get where
  given := by
    intro request start before after hserve
    rw [HeapRequest.serve_eq, Coroutine.View.lift] at hserve
    split at hserve
    · next answer left hblock =>
      cases hserve
      exact serves_block.given hblock
    · cases hserve
  refused := by
    intro request e before after hserve
    rw [HeapRequest.serve_eq, Coroutine.View.lift] at hserve
    split at hserve
    · next answer left hblock =>
      cases hserve
      rw [serves_block.refused hblock]
      rfl
    · cases hserve

/-! ## Whole runs -/

section Runs

variable {serve : ρ → Action σ (Except AllocError UInt64)} {shape : ρ → BlockRequest}
  {storage : σ → Storage}

/-- A run is one request and then a run. -/
theorem serveAll_cons_eq_ok {request : ρ} {rest : List ρ} {before after : σ}
    {served : List (ρ × Except AllocError UInt64)} :
    serveAll serve (request :: rest) before = .ok served after ↔
      ∃ answer between later, serve request before = .ok answer between ∧
        serveAll serve rest between = .ok later after ∧ served = (request, answer) :: later := by
  rw [serveAll, Action.bind_eq_ok_iff]
  constructor
  · rintro ⟨answer, between, hanswer, hrest⟩
    obtain ⟨later, last, hlater, hserved⟩ := Action.bind_eq_ok_iff.1 hrest
    obtain ⟨rfl, rfl⟩ := Action.pure_eq_ok_iff.1 hserved
    exact ⟨answer, between, later, hanswer, hlater, rfl⟩
  · rintro ⟨answer, between, later, hanswer, hlater, rfl⟩
    refine ⟨answer, between, hanswer, Action.bind_eq_ok_iff.2 ⟨later, after, hlater, rfl⟩⟩

/-- The blocks of a run lie one behind the other between the cursor at its beginning and the
cursor at its end, and nothing but the cleared ones was written. -/
structure InOrder (blocks : List Block) (before after : Storage) : Prop where
  nonnull : ∀ block ∈ blocks, block.start ≠ 0
  aligned : ∀ block ∈ blocks, block.alignment.toNat ∣ block.start.toNat
  above : ∀ block ∈ blocks, before.pool.next.toNat ≤ block.start.toNat
  inside : ∀ block ∈ blocks, block.stop ≤ before.pool.stop.toNat
  ascending : blocks.Pairwise fun first second => first.stop ≤ second.start.toNat
  next : before.pool.next.toNat ≤ after.pool.next.toNat
  stop : after.pool.stop = before.pool.stop
  cleared : ∀ block ∈ blocks, block.cleared = true → ∀ address, block.Covers address →
    after.memory.byte address = 0
  others : ∀ address, (∀ block ∈ blocks, block.cleared = true → ¬ block.Covers address) →
    after.memory.byte address = before.memory.byte address

theorem InOrder.nil (storage : Storage) : InOrder [] storage storage := by
  constructor <;> simp

/-- A block that was handed out comes before those of the rest of the run. -/
theorem InOrder.cons {block : Block} {blocks : List Block} {before between after : Storage}
    (hgiven : Given block before between) (hrest : InOrder blocks between after) :
    InOrder (block :: blocks) before after where
  nonnull := List.forall_mem_cons.2 ⟨hgiven.nonnull, hrest.nonnull⟩
  aligned := List.forall_mem_cons.2 ⟨hgiven.aligned, hrest.aligned⟩
  above := by
    refine List.forall_mem_cons.2 ⟨hgiven.above, fun later hlater => ?_⟩
    have habove := hrest.above later hlater
    rw [hgiven.next, Block.stop] at habove
    have hfirst := hgiven.above
    omega
  inside := by
    rw [← hgiven.stop]
    exact List.forall_mem_cons.2 ⟨hgiven.stop ▸ hgiven.inside, hrest.inside⟩
  ascending := by
    refine List.pairwise_cons.2 ⟨fun later hlater => ?_, hrest.ascending⟩
    rw [← hgiven.next]
    exact hrest.above later hlater
  next := by
    have hnext := hrest.next
    rw [hgiven.next, Block.stop] at hnext
    have habove := hgiven.above
    omega
  stop := hrest.stop.trans hgiven.stop
  cleared := by
    refine List.forall_mem_cons.2 ⟨fun hcleared address hcovers => ?_, hrest.cleared⟩
    -- No later block covers the address, but one that did would only clear it again.
    by_cases hagain : ∃ later ∈ blocks, later.cleared = true ∧ later.Covers address
    · obtain ⟨later, hlater, hclears, hinside⟩ := hagain
      exact hrest.cleared later hlater hclears address hinside
    · rw [hrest.others address fun later hlater hclears hinside =>
        hagain ⟨later, hlater, hclears, hinside⟩, hgiven.memory, if_pos ⟨hcleared, hcovers⟩]
  others := by
    intro address houtside
    obtain ⟨hfirst, hlater⟩ := List.forall_mem_cons.1 houtside
    rw [hrest.others address hlater, hgiven.memory, if_neg]
    rintro ⟨hcleared, hcovers⟩
    exact hfirst hcleared hcovers

/-- The blocks of a whole sequence of requests stand in the order in which they were given,
whatever was refused in between. -/
theorem Serves.inOrder (hserves : Serves serve shape storage) {requests : List ρ}
    {before after : σ} {served : List (ρ × Except AllocError UInt64)}
    (hrun : serveAll serve requests before = .ok served after) :
    InOrder (blocksOf shape served) (storage before) (storage after) := by
  induction requests generalizing before served with
  | nil =>
    cases hrun
    exact .nil _
  | cons request rest ih =>
    obtain ⟨answer, between, later, hanswer, hlater, rfl⟩ := serveAll_cons_eq_ok.1 hrun
    cases answer with
    | ok start => exact .cons (hserves.given hanswer) (ih hlater)
    | error e =>
      obtain rfl := hserves.refused hanswer
      rw [blocksOf_refused]
      exact ih hlater

/-- Without some of the requests that were refused, a run gives the same answers to all others. -/
theorem Serves.dropping (hserves : Serves serve shape storage) {requests : List ρ}
    {before after : σ} {served kept : List (ρ × Except AllocError UInt64)}
    (hrun : serveAll serve requests before = .ok served after) (hkept : kept.Sublist served)
    (hblocks : blocksOf shape kept = blocksOf shape served) :
    serveAll serve (kept.map Prod.fst) before = .ok kept after := by
  induction requests generalizing before served kept with
  | nil =>
    cases hrun
    cases hkept
    rfl
  | cons request rest ih =>
    obtain ⟨answer, between, later, hanswer, hlater, rfl⟩ := serveAll_cons_eq_ok.1 hrun
    cases hkept with
    | cons _ hkept =>
      cases answer with
      | ok start =>
        have hfewer : (blocksOf shape kept).length ≤ (blocksOf shape later).length :=
          (hkept.filterMap _).length_le
        rw [hblocks, blocksOf_given, List.length_cons] at hfewer
        omega
      | error e =>
        obtain rfl := hserves.refused hanswer
        exact ih hlater hkept hblocks
    | @cons_cons keptLater _ _ hkept =>
      have hrest : blocksOf shape keptLater = blocksOf shape later := by
        cases answer with
        | ok start => exact (List.cons.inj hblocks).2
        | error e => exact hblocks
      exact serveAll_cons_eq_ok.2 ⟨answer, between, _, hanswer, ih hlater hkept hrest, rfl⟩

/-- What a run of requests leaves. -/
structure HandsOut (serve : ρ → Action σ (Except AllocError UInt64)) (shape : ρ → BlockRequest)
    (storage : σ → Storage) (before : σ) (served : List (ρ × Except AllocError UInt64))
    (after : σ) : Prop where
  inOrder : InOrder (blocksOf shape served) (storage before) (storage after)
  apart : (blocksOf shape served).Pairwise fun first second =>
    Memory.Apart first.start first.size.toNat second.start second.size.toNat
  remaining : (storage after).pool.remaining ≤ (storage before).pool.remaining
  /-- A range whose end lies in front of its beginning has no block. -/
  inverted : (storage before).pool.stop < (storage before).pool.next →
    blocksOf shape served = []
  /-- Requests that are all refused change nothing. -/
  refused : blocksOf shape served = [] → after = before
  /-- Without some of the requests that were refused, the others get the same answers. -/
  dropping : ∀ kept : List (ρ × Except AllocError UInt64), kept.Sublist served →
    blocksOf shape kept = blocksOf shape served →
      serveAll serve (kept.map Prod.fst) before = .ok kept after

/-- Blocks given in order share no byte: each one starts behind the end of the ones before it. -/
theorem InOrder.apart {blocks : List Block} {before after : Storage}
    (horder : InOrder blocks before after) :
    blocks.Pairwise fun first second =>
      Memory.Apart first.start first.size.toNat second.start second.size.toNat := by
  refine horder.ascending.imp_of_mem fun {first second} _ hsecond hle => ?_
  have htop := before.pool.stop.toNat_lt
  have hinside := horder.inside second hsecond
  rw [Block.stop] at hle hinside
  exact .of_le hle (by omega)

/-- A pool never gets back what it has handed out. -/
theorem InOrder.remaining_le {blocks : List Block} {before after : Storage}
    (horder : InOrder blocks before after) :
    after.pool.remaining ≤ before.pool.remaining := by
  have hnext := horder.next
  rw [UInt64.le_iff_toNat_le, Bump.toNat_remaining, Bump.toNat_remaining, horder.stop]
  omega

/-- A way of serving requests that hands out one block at a time hands out all of a sequence of
them. -/
theorem Serves.handsOut (hserves : Serves serve shape storage) {requests : List ρ}
    {before after : σ} {served : List (ρ × Except AllocError UInt64)}
    (hrun : serveAll serve requests before = .ok served after) :
    HandsOut serve shape storage before served after where
  inOrder := hserves.inOrder hrun
  apart := (hserves.inOrder hrun).apart
  remaining := (hserves.inOrder hrun).remaining_le
  inverted := by
    intro hinverted
    rw [List.eq_nil_iff_forall_not_mem]
    intro block hblock
    have habove := (hserves.inOrder hrun).above block hblock
    have hinside := (hserves.inOrder hrun).inside block hblock
    rw [UInt64.lt_iff_toNat_lt] at hinverted
    rw [Block.stop] at hinside
    omega
  refused := by
    intro hnone
    cases hserves.dropping hrun (List.nil_sublist served) hnone.symm
    rfl
  dropping := fun _ hkept hblocks => hserves.dropping hrun hkept hblocks

end Runs

/-- Wherever the range of an allocator lies and whatever is asked of it, the blocks it hands out
begin at multiples of their alignments, lie in the range one behind the other, and are cleared
exactly where that was asked for; requests that are refused leave no trace.  The same holds of
the kernel heap, whose blocks all begin at different multiples of sixteen. -/
theorem blocks_aligned_and_apart (η κ : Type) :
    (∀ (requests : List BlockRequest) (before after : Storage)
      (served : List (BlockRequest × Except AllocError UInt64)),
      serveAll BlockRequest.serve requests before = .ok served after →
        HandsOut BlockRequest.serve id id before served after) ∧
    ∀ (requests : List HeapRequest) (before after : Kernel η κ)
      (served : List (HeapRequest × Except AllocError UInt64)),
      serveAll HeapRequest.serve requests before = .ok served after →
        HandsOut HeapRequest.serve HeapRequest.shape Kernel.storageView.get before served after ∧
        (∀ block ∈ blocksOf HeapRequest.shape served, 16 ∣ block.start.toNat) ∧
        (blocksOf HeapRequest.shape served).Pairwise fun first second =>
          first.start ≠ second.start := by
  refine ⟨fun requests before after served hrun => serves_block.handsOut hrun, ?_⟩
  intro requests before after served hrun
  have hout := serves_heap.handsOut hrun
  refine ⟨hout, ?_, ?_⟩
  · intro block hblock
    obtain ⟨request, -, hshape⟩ := exists_of_mem_blocksOf hblock
    have haligned := hout.inOrder.aligned block hblock
    rw [hshape] at haligned
    exact haligned
  · refine hout.inOrder.ascending.imp_of_mem fun {first second} hfirst _ hle hsame => ?_
    obtain ⟨request, -, hshape⟩ := exists_of_mem_blocksOf hfirst
    have hsize : 1 ≤ first.size.toNat := by
      rw [hshape, HeapRequest.shape, UInt64.toNat_max]
      exact Nat.le_max_right _ _
    rw [Block.stop, hsame] at hle
    omega

/-- A pool of 256 bytes in memory that is not clear. -/
def smallStorage : Storage where
  pool := { next := 256, stop := 512, name := "pool" }
  memory := ⟨fun _ => 0xaa⟩

/-- A kernel whose heap is a page. -/
def smallHeap : Kernel Empty Unit where
  board := { device := ⟨fun _ => 0xaa⟩ }
  heap := Heap.ofRange 0x2000008 0x2001000
  interrupts := { base := 0x3f00b000 }
  outside := ()

/-- Requests of which the third is refused in the small pool, and the last is for no bytes. -/
def poolRequests : List BlockRequest :=
  [⟨128, 1, false⟩, ⟨100, 32, true⟩, ⟨29, 1, false⟩, ⟨28, 1, false⟩, ⟨0, 64, false⟩]

/-- Requests of which the second is for no bytes, and the last is too large to be described. -/
def heapRequests : List HeapRequest :=
  [⟨3, false⟩, ⟨0, false⟩, ⟨100, true⟩, ⟨0xfffffffffffffff7, false⟩]

/-- The request for no bytes gets the end of the pool, which the block in front of it fills up;
from the heap it gets a byte of its own. -/
theorem blocks_aligned_and_apart_of_small :
    (∃ served after,
      serveAll BlockRequest.serve poolRequests smallStorage = .ok served after ∧
      blocksOf id served = [⟨⟨128, 1, false⟩, 256⟩, ⟨⟨100, 32, true⟩, 384⟩,
        ⟨⟨28, 1, false⟩, 484⟩, ⟨⟨0, 64, false⟩, 512⟩] ∧
      HandsOut BlockRequest.serve id id smallStorage served after) ∧
    ∃ served after,
      serveAll HeapRequest.serve heapRequests smallHeap = .ok served after ∧
      blocksOf HeapRequest.shape served = [⟨⟨3, 16, false⟩, 0x2000010⟩,
        ⟨⟨1, 16, false⟩, 0x2000020⟩, ⟨⟨100, 16, true⟩, 0x2000030⟩] ∧
      HandsOut HeapRequest.serve HeapRequest.shape Kernel.storageView.get smallHeap served
        after :=
  ⟨⟨_, _, rfl, rfl, (blocks_aligned_and_apart Empty Unit).1 poolRequests _ _ _ rfl⟩,
    ⟨_, _, rfl, rfl, ((blocks_aligned_and_apart Empty Unit).2 heapRequests _ _ _ rfl).1⟩⟩

end DriverHost
