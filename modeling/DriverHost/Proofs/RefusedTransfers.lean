import DriverHost.Proofs.Answers
import DriverHost.Proofs.BringUp
import DriverHost.Proofs.WriteTransfers

/-!
# Transfers that are refused

Whether a buffer is described is settled before anything is done about it.  A length that does not
fit the header is refused first, then a page list that does not fit the rest of the heap, and either
refusal leaves the machine as it was.  The transfer that was to be prepared keeps everything, a page
list of an earlier call too, and only the log tells of the call.  Where neither applies the call
cannot be refused any more, whoever acts while it waits for a fragment.

Main results:

- Structure `Heap.Placed`: a heap over a range that begins above zero and ends at or below
  `2 ^ 64 - 16`, and theorem `Heap.allocate_of_placed`: when it hands out a block.
- Definition `PageList.refusal`: why a buffer is refused, from the heap and the sizes alone.
- Theorem `Kernel.refused_bulk_leaves_no_trace`: the calls that describe buffers and prepare
  transfers.
-/

namespace DriverHost

/-! ## Room in the heap -/

namespace Heap

variable {heap next : Bump} {start stop size : UInt64}

/-- A heap over a range that begins above zero and ends at or below `2 ^ 64 - 16`, wherever in the
range its cursor stands. -/
structure Placed (heap : Bump) : Prop where
  above : 0 < heap.next.toNat
  cursor : heap.next.toNat ≤ 2 ^ 64 - 16
  stop : heap.stop.toNat ≤ 2 ^ 64 - 16

/-- The heap over a range that is placed well is placed well as long as nothing has been taken. -/
theorem placed_ofRange (hstart : 0 < start.toNat) (horder : start ≤ stop)
    (hstop : stop.toNat ≤ 2 ^ 64 - 16) : Placed (ofRange start stop) :=
  ⟨hstart, Nat.le_trans (UInt64.le_iff_toNat_le.1 horder) hstop, hstop⟩

/-- The heap stays where it is, whatever is allocated. -/
theorem Placed.of_allocate (hplaced : Placed heap)
    (hallocate : Heap.allocate heap size = .ok (.ok (start, next))) : Placed next := by
  rw [Heap.allocate] at hallocate
  cases hlayout : Heap.layout heap size with
  | error e => simp [hlayout] at hallocate
  | ok shape =>
    rw [hlayout] at hallocate
    obtain ⟨-, hnonnull, hinside, rfl⟩ := Bump.allocate_eq_ok hallocate
    have hstart : start.toNat ≠ 0 := fun hzero => hnonnull (UInt64.toNat_inj.1 hzero)
    have hstop := hplaced.stop
    have htop := heap.stop.toNat_lt
    refine ⟨?_, ?_, hstop⟩ <;> simp only [UInt64.toNat_add] <;> omega

/-- Where the next block of a heap begins, in its range or behind it. -/
def firstBlock (heap : Bump) : Nat :=
  (heap.next.toNat + 15) / 16 * 16

/-- In a heap that is placed well, the first aligned address is found without overflow. -/
theorem Placed.exists_firstBlock (hplaced : Placed heap) :
    ∃ first, alignUp heap.next blockAlignment = .ok first ∧ first.toNat = firstBlock heap := by
  have hsixteen : blockAlignment.toNat = 16 := rfl
  have hcursor := hplaced.cursor
  have hroom : heap.next.toNat + blockAlignment.toNat ≤ UInt64.size := by
    have hsize : UInt64.size = 2 ^ 64 := rfl
    omega
  obtain ⟨first, hfirst⟩ := exists_alignUp ⟨4, rfl⟩ hroom
  obtain ⟨⟨blocks, haligned⟩, habove, hbelow⟩ := alignUp_eq_ok hfirst
  refine ⟨first, hfirst, ?_⟩
  rw [hsixteen] at haligned
  rw [firstBlock]
  omega

/-- A block of a placed heap is handed out exactly if it fits between the first aligned address and
the end of the range. -/
theorem allocate_of_placed (hplaced : Placed heap) (size : UInt64) (hsome : 1 ≤ size.toNat)
    (hsize : size.toNat ≤ 2 ^ 62) :
    ∃ first : UInt64, first.toNat = firstBlock heap ∧
      Heap.allocate heap size =
        if heap.stop.toNat < firstBlock heap + size.toNat then
          .ok (.error (.exhausted heap.name size heap.remaining))
        else .ok (.ok (first, { heap with next := first + size })) := by
  obtain ⟨first, hup, hfirst⟩ := hplaced.exists_firstBlock
  have hmax : max size 1 = size := by
    rw [← UInt64.toNat_inj, UInt64.toNat_max, UInt64.toNat_one]
    omega
  have hlayout : Heap.layout heap size = .ok ⟨size, blockAlignment⟩ := by
    have hsixteen : blockAlignment.toNat = 16 := rfl
    rw [Heap.layout, hmax, Bump.layout, if_pos]
    exact ⟨by decide, by omega⟩
  refine ⟨first, hfirst, ?_⟩
  have hcursor := hplaced.cursor
  have habove := hplaced.above
  have hstop := hplaced.stop
  have hlower : heap.next.toNat ≤ firstBlock heap := by
    rw [firstBlock]
    omega
  have hupper : firstBlock heap ≤ 2 ^ 64 - 16 := by
    rw [firstBlock]
    omega
  have hnonnull : first ≠ 0 := by
    rintro rfl
    rw [UInt64.toNat_zero] at hfirst
    omega
  -- The end of the block wraps only where the block is past the end of the range anyway.
  have hexhausted : (first + size < first ∨ heap.stop < first + size ∨ first = 0) ↔
      heap.stop.toNat < firstBlock heap + size.toNat := by
    simp only [hnonnull, or_false, UInt64.lt_iff_toNat_lt, UInt64.toNat_add, hfirst]
    omega
  simp only [Heap.allocate, hlayout, Bump.allocate, hup, bind, Except.bind, pure, Except.pure,
    hexhausted]

end Heap

/-! ## Refusals -/

/-- A fragment is free, counted, and not being taken by anybody. -/
structure FragmentPool.AtHand (pool : FragmentPool) : Prop where
  guard : pool.guard.isLocked = false
  counted : pool.available.count ≠ 0
  free : ∃ index, index < 64 ∧ pool.isFree index = true

/-- A pool with a fragment at hand has a lowest free one. -/
theorem FragmentPool.AtHand.exists_lowest {pool : FragmentPool} (hatHand : pool.AtHand) :
    ∃ index, lowestBit 64 pool.free.toNat = some index := by
  rcases pool.takeLowest_cases with ⟨index, -, -, -, htake⟩ | ⟨hnone, -⟩
  · exact ⟨index, (takeLowest_eq_ok_iff.1 htake).1⟩
  · obtain ⟨index, hindex, hfree⟩ := hatHand.free
    rw [hnone index hindex] at hfree
    cases hfree

namespace PageList

variable {ε τ : Type} {busOf : UInt64 → UInt32} {buffer length : UInt64} {direction : Direction}

/-- Why a buffer is not described, if it is not: its length does not fit the header, or the rest of
the heap has no room for the header and a word for each of its pages. -/
def refusal (heap : Bump) (buffer length : UInt64) : Option PageListError :=
  let pages := max 1 ((buffer.toNat % 4096 + length.toNat + 4095) / 4096)
  if 2 ^ 32 - 1 < length.toNat then some (.tooLarge length)
  else if heap.stop.toNat < Heap.firstBlock heap + (8 + 4 * pages) then
    some (.noMemory pages (.exhausted heap.name (UInt64.ofNat (8 + 4 * pages)) heap.remaining))
  else none

/-- What answer a page list of the buffer is. -/
def Describes (busOf : UInt64 → UInt32) (buffer length : UInt64) (direction : Direction)
    (list : PageList) : Prop :=
  ∃ descriptor fragment, list = describing busOf buffer length direction descriptor fragment

/-- Laying a page list out is refused for the reasons that there are, and only for these. -/
theorem lay_of_placed (busOf : UInt64 → UInt32) (direction : Direction) (state : TransferState)
    (hplaced : Heap.Placed state.heap)
    (hline : isPowerOfTwo state.fragments.cacheLine = true)
    (hfits : buffer.toNat + length.toNat ≤ 2 ^ 64) :
    match refusal state.heap buffer length with
    | some e => lay busOf buffer length direction state = .ok (.error e)
    | none => ∃ descriptor inside heap memory,
        misaligned (pageOffset buffer) length state.fragments.cacheLine = .ok inside ∧
        lay busOf buffer length direction state =
          .ok (.ok (describing busOf buffer length direction descriptor none,
            direction == .read && inside, { state with heap, memory })) := by
  have hpages : pageCount (pageOffset buffer) length =
      max 1 ((buffer.toNat % 4096 + length.toNat + 4095) / 4096) := by
    rw [pageCount, toNat_pageOffset]
  rw [lay_eq hfits, refusal, ← hpages]
  have hlimit : UInt32.size = 2 ^ 32 := rfl
  by_cases hlarge : 2 ^ 32 - 1 < length.toNat
  · have hsize : UInt32.size ≤ length.toNat := by omega
    simp only [if_pos hlarge, if_pos hsize]
  · have hsize : ¬ UInt32.size ≤ length.toNat := by omega
    simp only [if_neg hlarge, if_neg hsize]
    have hcount : pageCount (pageOffset buffer) length ≤ 2 ^ 20 + 1 := pageCount_le (by omega)
    have hbytes := toNat_descriptorSize hcount
    have hword : UInt64.ofNat (8 + 4 * pageCount (pageOffset buffer) length) =
        descriptorSize (pageCount (pageOffset buffer) length) := by
      rw [← hbytes, UInt64.ofNat_toNat]
    obtain ⟨first, hfirst, hallocate⟩ := Heap.allocate_of_placed hplaced
      (descriptorSize (pageCount (pageOffset buffer) length)) (by omega) (by omega)
    obtain ⟨inside, hinside⟩ := misaligned_of_isPowerOfTwo (pageOffset buffer) length hline
    rw [hbytes] at hallocate
    rw [hallocate]
    by_cases hroom : state.heap.stop.toNat <
        Heap.firstBlock state.heap + (8 + 4 * pageCount (pageOffset buffer) length)
    · simp only [if_pos hroom, hword]
    · simp only [if_neg hroom, hinside]
      exact ⟨first, inside, _, _, rfl, rfl⟩

/-! ## Describing a buffer -/

section Calls

variable {host : Host ε τ} {view : Coroutine.View τ TransferState} {machine : Machine ε τ}

/-- A refused buffer leaves the machine as it was, and nothing is waited for. -/
theorem endsIn_create_of_lay_error (hview : view.Lawful) {e : PageListError}
    (hlay : lay busOf buffer length direction (view.get machine.shared) = .ok (.error e)) :
    Coroutine.EndsIn host machine ((create busOf buffer length direction).zoom view) (.error e)
      machine := by
  have hact : view.lift (layDown busOf buffer length direction) machine.shared =
      .ok (.error e) machine.shared := by
    simp only [Coroutine.View.lift, layDown, hlay, hview.set_get]
  rw [create_eq, Coroutine.zoom_bind, Coroutine.zoom_act]
  exact (Coroutine.EndsIn.act hact).bind (.done host machine _)

/-- Once its page list is laid out a buffer is not refused any more, whoever acts while a fragment
is waited for: the code behind goes on with a page list of the buffer. -/
theorem of_mayAnswer_create {β : Type} {f : Except PageListError PageList → Coroutine ε τ β}
    {property : β → Prop} {descriptor : UInt64} {borrows : Bool} {next : TransferState}
    (hlay : lay busOf buffer length direction (view.get machine.shared) =
      .ok (.ok (describing busOf buffer length direction descriptor none, borrows, next)))
    (hf : ∀ list, Describes busOf buffer length direction list → (f (.ok list)).Returns property)
    {answer : β} (hanswer : Coroutine.MayAnswer host machine
      (((create busOf buffer length direction).zoom view).bind f) answer) : property answer := by
  have hact : view.lift (layDown busOf buffer length direction) machine.shared =
      .ok (.ok (describing busOf buffer length direction descriptor none, borrows))
        (view.set next machine.shared) := by
    simp only [Coroutine.View.lift, layDown, hlay]
  have hheader : ∀ fragment,
      (finishHeader (describing busOf buffer length direction descriptor none) length direction
        fragment : Coroutine ε TransferState _).Returns fun answer =>
          ∃ list, Describes busOf buffer length direction list ∧ answer = .ok list := by
    intro fragment
    exact (Coroutine.returns_true _).bind fun _ _ => ⟨_, ⟨descriptor, fragment, rfl⟩, rfl⟩
  have hcreate := (Coroutine.returns_true (takeFragment borrows)).bind fun fragment _ =>
    hheader fragment
  rw [create_eq, Coroutine.zoom_bind, Coroutine.zoom_act, Coroutine.bind_assoc] at hanswer
  refine (hanswer.behind (.act hact)).of_returns ((hcreate.zoom view).bind ?_)
  rintro _ ⟨list, hlist, rfl⟩
  exact hf list hlist

/-- A description that has been laid out answers with its page list, however often it waits. -/
theorem describes_of_mayAnswer {descriptor : UInt64} {borrows : Bool} {next : TransferState}
    (hlay : lay busOf buffer length direction (view.get machine.shared) =
      .ok (.ok (describing busOf buffer length direction descriptor none, borrows, next)))
    {answer : Except PageListError PageList} (hanswer : Coroutine.MayAnswer host machine
      ((create busOf buffer length direction).zoom view) answer) :
    ∃ list, Describes busOf buffer length direction list ∧ answer = .ok list := by
  have hdone : ∀ list, Describes busOf buffer length direction list →
      (Coroutine.done (.ok list) : Coroutine ε τ (Except PageListError PageList)).Returns
        fun answer => ∃ list, Describes busOf buffer length direction list ∧ answer = .ok list :=
    fun list hlist => ⟨list, hlist, rfl⟩
  rw [← Coroutine.bind_done ((create busOf buffer length direction).zoom view)] at hanswer
  exact of_mayAnswer_create hlay hdone hanswer

/-- It is described at once if it needs no fragment or one is at hand. -/
theorem endsIn_create (host : Host ε τ) (hview : view.Lawful) {descriptor : UInt64}
    {borrows : Bool} {next : TransferState}
    (hlay : lay busOf buffer length direction (view.get machine.shared) =
      .ok (.ok (describing busOf buffer length direction descriptor none, borrows, next)))
    (hready : borrows = true → machine.scheduler.mayLock = true ∧ next.fragments.AtHand) :
    ∃ list last, Coroutine.EndsIn host machine
      ((create busOf buffer length direction).zoom view) (.ok list) last := by
  have hturn : ((create busOf buffer length direction).zoom view).turn host machine = _ :=
    Coroutine.turn_zoom hview within_create machine
  have hpart : (machine.part view).shared = view.get machine.shared := rfl
  rw [turn_create_of_lay, hpart, hlay] at hturn
  cases borrows with
  | false => exact ⟨_, _, .of_turn hturn⟩
  | true =>
    obtain ⟨hmay, hatHand⟩ := hready rfl
    obtain ⟨index, hlowest⟩ := hatHand.exists_lowest
    obtain ⟨laid, hlaid⟩ : ∃ laid, laid = (machine.part view).withShared next := ⟨_, rfl⟩
    have hmayLaid : laid.scheduler.mayLock = true := by
      rw [hlaid]
      exact hmay
    have hfragments : laid.shared.fragments = next.fragments := by rw [hlaid]; rfl
    rw [← hfragments] at hatHand hlowest
    have hguard : ¬ laid.shared.fragments.guard.isLocked = true := by
      rw [hatHand.guard]
      exact Bool.false_ne_true
    simp only [← hlaid] at hturn
    rw [turn_takeFragment hmayLaid, turn_waitingFragment hmayLaid hguard fun _ => hlowest,
      if_neg hatHand.counted] at hturn
    exact ⟨_, _, .of_turn hturn⟩

end Calls

end PageList

/-! ## Preparing a transfer -/

namespace Kernel

variable {ε η κ : Type} {host : Host ε (Kernel η κ)} {machine : Machine ε (Kernel η κ)}
  {busOf : UInt64 → UInt32} {bulk : Bulk} {handle : MemoryHandle} {buffer size : UInt64}
  {direction : BulkDirection}

/-- A handle that will not be used is remarked on. -/
def remark (handle : MemoryHandle) : Coroutine ε (Kernel η κ) Unit :=
  if handle ≠ MemoryHandle.invalid then
    Coroutine.act (report .warning
      ("bulk memory handle " ++ MemoryHandle.text handle ++ " ignored"))
  else pure ()

/-- What preparing a transfer answers once the buffer has been described or refused. -/
def prepared (bulk : Bulk) (handle : MemoryHandle) :
    Except PageListError PageList → Coroutine ε (Kernel η κ) (TransferStatus × Bulk)
  | .error e =>
      (Coroutine.act (report .warning ("create_pagelist failed: " ++ e.message))).bind
        fun _ => .done (.error, bulk)
  | .ok list => .done (.success, bulk.withPageList handle list)

/-- Preparing a transfer makes its remark, describes the buffer within the kernel's state and then
answers the engine. -/
theorem prepareBulk_eq :
    (prepareBulk busOf bulk handle buffer size direction :
      Coroutine ε (Kernel η κ) (TransferStatus × Bulk)) =
      (remark handle).bind fun _ =>
        ((PageList.create busOf buffer size direction.direction).zoom transferView).bind
          (prepared bulk handle) := by
  have hanswered : ∀ answer : Except PageListError PageList,
      (match answer with
        | .error e => do
            Coroutine.act (report .warning ("create_pagelist failed: " ++ e.message))
            return (.error, bulk)
        | .ok list => return (.success, bulk.withPageList handle list) :
        Coroutine ε (Kernel η κ) (TransferStatus × Bulk)) = prepared bulk handle answer := by
    intro answer
    cases answer <;> rfl
  rw [prepareBulk, remark]
  by_cases hhandle : handle ≠ MemoryHandle.invalid
  · simp only [if_pos hhandle]
    refine congrArg (Coroutine.bind _) (funext fun _ => ?_)
    exact congrArg (Coroutine.bind _) (funext hanswered)
  · simp only [if_neg hhandle]
    exact congrArg (Coroutine.bind _) (funext hanswered)

/-- The remark on a handle goes to the console. -/
theorem endsIn_remark (host : Host ε (Kernel η κ)) (machine : Machine ε (Kernel η κ))
    (handle : MemoryHandle) :
    ∃ kernel, OnlyReported machine.shared kernel ∧
      Coroutine.EndsIn host machine (remark handle) () (machine.withShared kernel) := by
  rw [remark]
  by_cases hhandle : handle ≠ MemoryHandle.invalid
  · rw [if_pos hhandle]
    exact ⟨_, onlyReported_log _ _ _ _, .act rfl⟩
  · rw [if_neg hhandle]
    exact ⟨_, .refl machine.shared, .done host machine ()⟩

/-- So does the report of a refusal. -/
theorem endsIn_prepared_error (host : Host ε (Kernel η κ)) (machine : Machine ε (Kernel η κ))
    (bulk : Bulk) (handle : MemoryHandle) (e : PageListError) :
    ∃ kernel, OnlyReported machine.shared kernel ∧
      Coroutine.EndsIn host machine (prepared bulk handle (.error e)) (.error, bulk)
        (machine.withShared kernel) := by
  have hreport : Coroutine.EndsIn host machine
      (Coroutine.act (report .warning ("create_pagelist failed: " ++ e.message))) () _ := .act rfl
  exact ⟨_, onlyReported_log _ _ _ _, hreport.bind (.done host _ _)⟩

/-- A preparation ends at once if its three parts do. -/
theorem endsIn_prepareBulk {middle later last : Machine ε (Kernel η κ)}
    {answer : Except PageListError PageList} {result : TransferStatus × Bulk}
    (hremark : Coroutine.EndsIn host machine (remark handle) () middle)
    (hcreate : Coroutine.EndsIn host middle
      ((PageList.create busOf buffer size direction.direction).zoom transferView) answer later)
    (hprepared : Coroutine.EndsIn host later (prepared bulk handle answer) result last) :
    Coroutine.EndsIn host machine (prepareBulk busOf bulk handle buffer size direction) result
      last := by
  rw [prepareBulk_eq]
  exact hremark.bind (hcreate.bind hprepared)

/-- A preparation whose page list can be laid out is not refused any more. -/
theorem prepared_of_mayAnswer {kernel : Kernel η κ} {descriptor : UInt64} {borrows : Bool}
    {next : TransferState}
    (hlay : PageList.lay busOf buffer size direction.direction (transferView.get kernel) =
      .ok (.ok (PageList.describing busOf buffer size direction.direction descriptor none, borrows,
        next)))
    (hremark : Coroutine.EndsIn host machine (remark handle) () (machine.withShared kernel))
    {answer : TransferStatus × Bulk} (hanswer : Coroutine.MayAnswer host machine
      (prepareBulk busOf bulk handle buffer size direction) answer) :
    ∃ list, PageList.Describes busOf buffer size direction.direction list ∧
      answer = (.success, bulk.withPageList handle list) := by
  have hprepared : ∀ list, PageList.Describes busOf buffer size direction.direction list →
      (prepared bulk handle (.ok list) : Coroutine ε (Kernel η κ) (TransferStatus × Bulk)).Returns
        fun answer => ∃ list, PageList.Describes busOf buffer size direction.direction list ∧
          answer = (.success, bulk.withPageList handle list) :=
    fun list hlist => ⟨list, hlist, rfl⟩
  have hthere : PageList.lay busOf buffer size direction.direction
      (transferView.get (machine.withShared kernel).shared) = _ := hlay
  rw [prepareBulk_eq] at hanswer
  exact PageList.of_mayAnswer_create hthere hprepared (hanswer.behind hremark)

/-- Calls that describe a buffer and prepare a transfer for it.  If there is a reason to refuse the
buffer, both answer at once: the first leaves the machine as it was, and the second the transfer,
and of the machine all but the console.  If there is none, neither is ever refused: whatever
happens during a wait for a fragment, an answer is a page list for the buffer, which the transfer
then has together with the handle.  Without a wait there is such an answer. -/
theorem refused_bulk_leaves_no_trace (host : Host ε (Kernel η κ)) (busOf : UInt64 → UInt32)
    (bulk : Bulk) (handle : MemoryHandle) (direction : BulkDirection)
    (machine : Machine ε (Kernel η κ)) (hplaced : Heap.Placed machine.shared.heap)
    (hfilled : machine.shared.platform.fragments.Filled)
    (hfits : buffer.toNat + size.toNat ≤ 2 ^ 64) :
    let creates := (PageList.create busOf buffer size direction.direction).zoom transferView
    let prepares := prepareBulk busOf bulk handle buffer size direction
    match PageList.refusal machine.shared.heap buffer size with
    | some e =>
        Coroutine.EndsIn host machine creates (.error e) machine ∧
          ∃ kernel, OnlyReported machine.shared kernel ∧
            Coroutine.EndsIn host machine prepares (.error, bulk) (machine.withShared kernel)
    | none =>
        (∀ answer, Coroutine.MayAnswer host machine creates answer →
          ∃ list, PageList.Describes busOf buffer size direction.direction list ∧
            answer = .ok list) ∧
        (∀ answer, Coroutine.MayAnswer host machine prepares answer →
          ∃ list, PageList.Describes busOf buffer size direction.direction list ∧
            answer = (.success,
              { bulk with handle, data := list.busAddress, pageList := some list })) ∧
        ((direction = .receive →
            PageList.misaligned (pageOffset buffer) size
                machine.shared.platform.fragments.cacheLine = .ok false ∨
              machine.scheduler.mayLock = true ∧ machine.shared.platform.fragments.AtHand) →
          (∃ list last, Coroutine.EndsIn host machine creates (.ok list) last) ∧
            ∃ after last, Coroutine.EndsIn host machine prepares (.success, after) last) := by
  intro creates prepares
  obtain ⟨kernel, hreported, hremark⟩ := endsIn_remark host machine handle
  -- The remark leaves all that the layout looks at.
  have hview : transferView.get kernel = transferView.get machine.shared := by
    obtain ⟨console, rfl⟩ := hreported
    rfl
  have hlays := PageList.lay_of_placed busOf direction.direction (transferView.get machine.shared)
    hplaced hfilled.isPowerOfTwo_cacheLine hfits
  have hheap : (transferView.get machine.shared).heap = machine.shared.heap := rfl
  rw [hheap] at hlays
  cases hrefusal : PageList.refusal machine.shared.heap buffer size with
  | some e =>
    rw [hrefusal] at hlays
    refine ⟨PageList.endsIn_create_of_lay_error lawful_transferView hlays, ?_⟩
    rw [← hview] at hlays
    obtain ⟨left, hleft, hprepared⟩ :=
      endsIn_prepared_error host (machine.withShared kernel) bulk handle e
    refine ⟨left, hreported.trans hleft, endsIn_prepareBulk hremark ?_ hprepared⟩
    exact PageList.endsIn_create_of_lay_error lawful_transferView hlays
  | none =>
    rw [hrefusal] at hlays
    obtain ⟨descriptor, inside, heap, memory, hinside, hlay⟩ := hlays
    have hagain := (congrArg (PageList.lay busOf buffer size direction.direction) hview).trans hlay
    refine ⟨fun answer hanswer => PageList.describes_of_mayAnswer hlay hanswer,
      fun answer hanswer => prepared_of_mayAnswer hagain hremark hanswer, fun hready => ?_⟩
    have hborrows : (direction.direction == .read && inside) = true →
        machine.scheduler.mayLock = true ∧ machine.shared.platform.fragments.AtHand := by
      intro hboth
      cases direction with
      | transmit => cases hboth
      | receive =>
        rcases hready rfl with hwhole | hatHand
        · cases hinside.symm.trans hwhole
          cases hboth
        · exact hatHand
    obtain ⟨list, last, hcreate⟩ := PageList.endsIn_create host lawful_transferView hlay hborrows
    have hlater : ∃ again later, Coroutine.EndsIn host (machine.withShared kernel) creates
        (.ok again) later := PageList.endsIn_create host lawful_transferView hagain hborrows
    obtain ⟨again, later, hlater⟩ := hlater
    exact ⟨⟨list, last, hcreate⟩, _, later,
      endsIn_prepareBulk hremark hlater (.done host later _)⟩

/-- A kernel with a filled pool and a heap that ends at an address. -/
def tightKernel (stop : UInt64) : Kernel Empty Unit where
  board := { device := Memory.zeroed }
  heap := Heap.ofRange 0x2000004 stop
  interrupts := { base := 0x3f00b000 }
  platform := { fragments := PageList.oneFragment.fragments }
  outside := ()

/-- A transfer that still has the page list of an earlier call. -/
def heldBulk : Bulk where
  handle := 3
  data := 0x1000
  size := 64
  direction := .transmit
  pageList := some (PageList.describing PageList.lowered 0x3000010 64 .write 0x2000 none)

/-- Twelve bytes behind the next boundary are one byte too many for a heap that has twenty-three
left, and fit one that has twenty-four. -/
theorem prepareBulk_refused_by_a_byte :
    (∃ kernel, OnlyReported (tightKernel 0x200001b) kernel ∧
      Coroutine.EndsIn (Host.still Empty (Kernel Empty Unit)) { shared := tightKernel 0x200001b }
        (prepareBulk PageList.lowered heldBulk 0 0x3000010 64 .transmit) (.error, heldBulk)
        { shared := kernel }) ∧
    ∃ after last,
      Coroutine.EndsIn (Host.still Empty (Kernel Empty Unit)) { shared := tightKernel 0x200001c }
        (prepareBulk PageList.lowered heldBulk 0 0x3000010 64 .transmit) (.success, after)
        last := by
  have hfits : (0x3000010 : UInt64).toNat + (64 : UInt64).toNat ≤ 2 ^ 64 := by decide
  have hfilled : ∀ stop, (tightKernel stop).platform.fragments.Filled :=
    fun stop => ⟨{}, _, 0x1c00000, 1, 64, rfl, rfl⟩
  constructor
  · have hcalls := refused_bulk_leaves_no_trace (Host.still Empty (Kernel Empty Unit))
      PageList.lowered heldBulk 0 .transmit { shared := tightKernel 0x200001b }
      (Heap.placed_ofRange (by decide) (by decide) (by decide)) (hfilled _) hfits
    have hrefusal : PageList.refusal (tightKernel 0x200001b).heap 0x3000010 64 =
        some (.noMemory 1 (.exhausted "kmalloc" 12 23)) := by decide +kernel
    simp only [hrefusal] at hcalls
    exact hcalls.2
  · have hcalls := refused_bulk_leaves_no_trace (Host.still Empty (Kernel Empty Unit))
      PageList.lowered heldBulk 0 .transmit { shared := tightKernel 0x200001c }
      (Heap.placed_ofRange (by decide) (by decide) (by decide)) (hfilled _) hfits
    have hrefusal : PageList.refusal (tightKernel 0x200001c).heap 0x3000010 64 = none := by decide
    simp only [hrefusal] at hcalls
    exact (hcalls.2.2 fun hreceive => by cases hreceive).2

end Kernel

end DriverHost
