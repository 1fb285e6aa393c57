import DriverHost.Proofs.Answers
import DriverHost.Proofs.TransferCalls

/-!
# Transfers that never borrow

A buffer that the device reads is described without a fragment, so what the pool of fragments
holds should not matter to it.  It does not once the pool has been filled, whether or not a
fragment is left: answer, heap and memory come from heap and memory alone, nothing is waited for,
and the pool stays as it was.  A pool that was never filled has lines of no bytes, and the test
whether the buffer is made of whole lines, which comes before the direction is looked at, stops
the system instead of giving a page list.

Main results:

- Definition `FragmentPool.Filled`: a pool that was filled, whoever has its fragments now.
- Definition `PageList.writeAnswer`: what describing such a buffer comes to, from heap and memory.
- Theorem `PageList.write_ignores_pool_unless_unfilled`: a filled pool is not asked, and an
  unfilled one turns every page list into a fault.
-/

namespace DriverHost

/-! ## The pool -/

namespace FragmentPool

/-- The pool was filled at some time.  Its fragments may be lent or free, and its guard taken. -/
def Filled (pool : FragmentPool) : Prop :=
  ∃ (before filled : FragmentPool) (base : UInt64) (count : Nat) (line : UInt64),
    before.refill base count line = .ok filled ∧
      pool = { filled with free := pool.free, available := pool.available, guard := pool.guard }

/-- Filling a pool settles a line size that buffers can be tested against. -/
theorem isPowerOfTwo_cacheLine_refill {pool filled : FragmentPool} {base line : UInt64}
    {count : Nat} (hfill : pool.refill base count line = .ok filled) :
    isPowerOfTwo filled.cacheLine = true := by
  obtain ⟨_, -, hfill⟩ := bind_eq_ok_iff.1 hfill
  obtain ⟨_, hpower, hfill⟩ := bind_eq_ok_iff.1 hfill
  obtain ⟨size, hsize, hfill⟩ := bind_eq_ok_iff.1 hfill
  cases hfill
  have hline : isPowerOfTwo line = true := by
    by_contra hother
    simp [bugIf, hother] at hpower
  rw [mulWords, ensureWord_eq_ok_iff] at hsize
  have htwo : (2 : UInt64).toNat = 2 := rfl
  -- The fragment's size did not overflow, so half of it is the line again.
  have hhalf : size / 2 = line := by
    rw [← UInt64.toNat_inj, UInt64.toNat_div, hsize, htwo]
    exact Nat.mul_div_cancel_left _ (by decide)
  rw [cacheLine, hhalf]
  exact hline

/-- A pool that has been filled has a line that alignments can be checked against. -/
theorem Filled.isPowerOfTwo_cacheLine {pool : FragmentPool} (hfilled : pool.Filled) :
    isPowerOfTwo pool.cacheLine = true := by
  obtain ⟨_, filled, _, _, _, hfill, hpool⟩ := hfilled
  have hsize : pool.fragmentSize = filled.fragmentSize := by
    rw [hpool]
  rw [cacheLine, hsize]
  exact isPowerOfTwo_cacheLine_refill hfill

/-- A pool that has not been filled has no such line: its size is zero. -/
theorem isPowerOfTwo_cacheLine_unfilled {pool : FragmentPool}
    (hunfilled : pool.fragmentSize = 0) : isPowerOfTwo pool.cacheLine = false := by
  rw [cacheLine, hunfilled]
  decide

end FragmentPool

/-! ## Runs -/

namespace PageRun

/-- A page is added to runs without leaving one empty. -/
theorem pages_ne_zero_extend {runs : List PageRun} {page : UInt32}
    (hruns : ∀ run ∈ runs, run.pages ≠ 0) : ∀ run ∈ extend runs page, run.pages ≠ 0 := by
  intro run hmem
  cases runs with
  | nil =>
    rw [List.mem_singleton.1 hmem]
    exact (by decide : (1 : UInt16) ≠ 0)
  | cons last before =>
    simp only [extend] at hmem
    by_cases hjoins : page = last.following ∧ last.pages ≤ maxFurtherPages
    · rw [if_pos hjoins] at hmem
      rcases List.mem_cons.1 hmem with rfl | hbefore
      · intro hzero
        have hlonger := (toNat_longer hjoins.2).1
        have hnone : last.pages + 1 = 0 := hzero
        rw [hnone] at hlonger
        cases hlonger
      · exact hruns run (List.mem_cons_of_mem _ hbefore)
    · rw [if_neg hjoins] at hmem
      rcases List.mem_cons.1 hmem with rfl | hold
      · exact (by decide : (1 : UInt16) ≠ 0)
      · exact hruns run hold

theorem pages_ne_zero_foldl_extend (pages : List UInt32) {runs : List PageRun}
    (hruns : ∀ run ∈ runs, run.pages ≠ 0) :
    ∀ run ∈ pages.foldl extend runs, run.pages ≠ 0 := by
  induction pages generalizing runs with
  | nil => exact hruns
  | cons page rest ih => exact ih (pages_ne_zero_extend hruns)

/-- Runs that have pages have words. -/
theorem mapM_encode {runs : List PageRun} (hruns : ∀ run ∈ runs, run.pages ≠ 0) :
    runs.mapM encode = .ok (runs.map word) := by
  induction runs with
  | nil => rfl
  | cons run rest ih =>
    rw [List.mapM_cons, encode_of_pages_ne_zero (hruns run List.mem_cons_self),
      ih fun other hmem => hruns other (List.mem_cons_of_mem _ hmem)]
    rfl

end PageRun

/-- Whatever the pages are, their runs have words. -/
theorem mapM_encode_runsOf (pages : List UInt32) :
    (runsOf pages).mapM PageRun.encode = .ok ((runsOf pages).map PageRun.word) := by
  apply PageRun.mapM_encode
  intro run hmem
  exact PageRun.pages_ne_zero_foldl_extend pages (by simp) run (List.mem_reverse.1 hmem)

/-! ## Code that ends at once -/

/-- Boot code that would meet a fault in its first turn as a thread meets it too. -/
theorem Machine.boot_of_failed {ε σ α : Type} {host : Host ε σ} {machine last : Machine ε σ}
    {code : Coroutine ε σ α} {cause : Fault} (hcode : code.Within fun _ _ => True)
    (hturn : code.turn host machine = .failed cause last) (limit : Nat) :
    boot host limit code machine = .failed cause last := by
  induction code generalizing machine with
  | done value => cases hturn
  | attempt poll next ih =>
    rw [Coroutine.turn_attempt] at hturn
    rw [boot, attemptWithRounds]
    cases hpoll : poll machine.scheduler machine.shared with
    | error cause shared =>
      rw [hpoll] at hturn
      cases hturn
      rfl
    | ok found shared =>
      rw [hpoll] at hturn
      cases found with
      | none => cases hturn
      | some found => exact ih found (hcode.2 found) hturn
  | pause next ih => cases hturn
  | spawn entry next ih => exact hcode.elim
  | moveTo core next ih => exact hcode.elim
  | round next ih => exact hcode.elim
  | drain next ih => exact hcode.elim

namespace PageList

variable {ε : Type} {host : Host ε TransferState} {busOf : UInt64 → UInt32}
  {buffer length : UInt64}

/-- The machine after a call left another heap and another memory, its pool of fragments being
what it was. -/
def leaving (machine : Machine ε TransferState) (heap : Bump) (memory : Memory) :
    Machine ε TransferState :=
  machine.withShared { machine.shared with heap, memory }

/-- Code ends at once, in one turn of a thread and without a round of the boot context.  What it
comes to is a fault, or an answer with a heap and a memory; all else of the machine, its pool of
fragments too, is as it was. -/
def EndsAtOnce {α : Type} (host : Host ε TransferState) (machine : Machine ε TransferState)
    (code : Coroutine ε TransferState α) : Except Fault (α × Bump × Memory) → Prop
  | .ok (value, heap, memory) =>
      code.turn host machine = .returned value (leaving machine heap memory) ∧
        ∀ limit, Machine.boot host limit code machine = .ok value (leaving machine heap memory)
  | .error cause =>
      code.turn host machine = .failed cause machine ∧
        ∀ limit, Machine.boot host limit code machine = .failed cause machine

/-- Code whose first turn returns has ended at once. -/
theorem endsAtOnce_ok {α : Type} {machine : Machine ε TransferState}
    {code : Coroutine ε TransferState α} {value : α} {heap : Bump} {memory : Memory}
    (hturn : code.turn host machine = .returned value (leaving machine heap memory)) :
    EndsAtOnce host machine code (.ok (value, heap, memory)) :=
  ⟨hturn, Machine.boot_of_returned hturn⟩

/-- Code whose first turn meets a fault has ended at once. -/
theorem endsAtOnce_error {α : Type} {machine : Machine ε TransferState}
    {code : Coroutine ε TransferState α} {cause : Fault} (hcode : code.Within fun _ _ => True)
    (hturn : code.turn host machine = .failed cause machine) :
    EndsAtOnce host machine code (.error cause) :=
  ⟨hturn, Machine.boot_of_failed hcode hturn⟩

/-! ## Answers -/

/-- Memory with the page list of a buffer that the device reads. -/
def writeDescribed (busOf : UInt64 → UInt32) (buffer length : UInt64) (memory : Memory)
    (descriptor : UInt64) : Memory :=
  storeHeader
    (storeRuns memory descriptor ((runsOf (bufferPages busOf buffer length)).map PageRun.word))
    descriptor length.toUInt32 Direction.write.plainKind (pageOffset buffer).toUInt16

/-- What describing a buffer that the device reads comes to, from heap and memory alone. -/
def writeAnswer (busOf : UInt64 → UInt32) (buffer length : UInt64) (heap : Bump)
    (memory : Memory) : Except Fault (Except PageListError PageList × Bump × Memory) :=
  let pages := pageCount (pageOffset buffer) length
  if UInt32.size ≤ length.toNat then .ok (.error (.tooLarge length), heap, memory)
  else
    match Heap.allocate heap (descriptorSize pages) with
    | .error cause => .error cause
    | .ok (.error source) => .ok (.error (.noMemory pages source), heap, memory)
    | .ok (.ok (descriptor, heap)) =>
        .ok (.ok (describing busOf buffer length .write descriptor none), heap,
          writeDescribed busOf buffer length memory descriptor)

/-- What is left of an answer where the lines of the pool have no size: there is no page list. -/
def withoutLines : Except Fault (Except PageListError PageList × Bump × Memory) →
    Except Fault (Except PageListError PageList × Bump × Memory)
  | .ok (.ok _, _, _) => .error badAlignment
  | answer => answer

/-! ## Layouts -/

/-- Every page of a buffer inside the address space has an address. -/
theorem pageAddresses_of_fits (hfits : buffer.toNat + length.toNat ≤ 2 ^ 64) :
    pageAddresses busOf (pageBase buffer) (pageCount (pageOffset buffer) length) =
      .ok (bufferPages busOf buffer length) := by
  have hinside : (pageBase buffer).toNat +
      (pageCount (pageOffset buffer) length - 1) * pageSize.toNat < UInt64.size := by
    have hpage : pageSize.toNat = 4096 := rfl
    have hsize : UInt64.size = 2 ^ 64 := rfl
    have hbuffer := buffer.toNat_lt
    rw [pageCount, toNat_pageOffset, toNat_pageBase, hpage, hsize]
    omega
  cases haddresses : pageAddresses busOf (pageBase buffer)
      (pageCount (pageOffset buffer) length) with
  | ok addresses => rw [(pageAddresses_eq_ok haddresses).1]
  | error cause =>
    rw [pageAddresses, if_pos hinside] at haddresses
    cases haddresses

/-- Whether a buffer is misaligned can be told if the line is a power of two. -/
theorem misaligned_of_isPowerOfTwo (offset length : UInt64) {line : UInt64}
    (hpower : isPowerOfTwo line = true) : ∃ inside, misaligned offset length line = .ok inside := by
  have haligned : ∀ value, ∃ answer, isAligned value line = .ok answer :=
    fun value => ⟨_, isAligned_eq_ok ((isPowerOfTwo_iff line).1 hpower)⟩
  obtain ⟨begins, hbegins⟩ := haligned offset
  obtain ⟨ends, hends⟩ := haligned (offset + length)
  cases begins with
  | true =>
    refine ⟨!ends, ?_⟩
    simp [misaligned, hbegins, hends, bind, Except.bind, pure, Except.pure]
  | false =>
    refine ⟨true, ?_⟩
    simp [misaligned, hbegins, bind, Except.bind, pure, Except.pure]

/-- Against any other line the check itself is a fault. -/
theorem misaligned_of_not_isPowerOfTwo (offset length : UInt64) {line : UInt64}
    (hpower : isPowerOfTwo line = false) : misaligned offset length line = .error badAlignment := by
  simp [misaligned, isAligned, alignMask, hpower, bind, Except.bind]

/-- Laying a page list out, in its four outcomes. -/
theorem lay_eq (hfits : buffer.toNat + length.toNat ≤ 2 ^ 64) (direction : Direction)
    (state : TransferState) :
    lay busOf buffer length direction state =
      if UInt32.size ≤ length.toNat then .ok (.error (.tooLarge length))
      else
        match Heap.allocate state.heap (descriptorSize (pageCount (pageOffset buffer) length)) with
        | .error cause => .error cause
        | .ok (.error source) =>
            .ok (.error (.noMemory (pageCount (pageOffset buffer) length) source))
        | .ok (.ok (descriptor, heap)) =>
            match misaligned (pageOffset buffer) length state.fragments.cacheLine with
            | .error cause => .error cause
            | .ok inside =>
                .ok (.ok (describing busOf buffer length direction descriptor none,
                  direction == .read && inside,
                  { state with
                    heap
                    memory := storeRuns state.memory descriptor
                      ((runsOf (bufferPages busOf buffer length)).map PageRun.word) })) := by
  unfold lay
  by_cases hlarge : UInt32.size ≤ length.toNat
  · rw [if_pos hlarge, if_pos hlarge]
    rfl
  · rw [if_neg hlarge, if_neg hlarge]
    simp only [bind, Except.bind, pageAddresses_of_fits hfits, mapM_encode_runsOf]
    cases Heap.allocate state.heap (descriptorSize (pageCount (pageOffset buffer) length)) with
    | error cause => rfl
    | ok allocated =>
      cases allocated with
      | error source => rfl
      | ok block =>
        simp only
        cases misaligned (pageOffset buffer) length state.fragments.cacheLine <;> rfl

/-- Of the pool, a buffer that the device reads needs a line size only. -/
theorem lay_write (hfits : buffer.toNat + length.toNat ≤ 2 ^ 64) (state : TransferState) :
    lay busOf buffer length .write state =
      if UInt32.size ≤ length.toNat then .ok (.error (.tooLarge length))
      else
        match Heap.allocate state.heap (descriptorSize (pageCount (pageOffset buffer) length)) with
        | .error cause => .error cause
        | .ok (.error source) =>
            .ok (.error (.noMemory (pageCount (pageOffset buffer) length) source))
        | .ok (.ok (descriptor, heap)) =>
            if isPowerOfTwo state.fragments.cacheLine then
              .ok (.ok (describing busOf buffer length .write descriptor none, false,
                { state with
                  heap
                  memory := storeRuns state.memory descriptor
                    ((runsOf (bufferPages busOf buffer length)).map PageRun.word) }))
            else .error badAlignment := by
  rw [lay_eq hfits]
  by_cases hpower : isPowerOfTwo state.fragments.cacheLine = true
  · obtain ⟨inside, hinside⟩ := misaligned_of_isPowerOfTwo (pageOffset buffer) length hpower
    simp only [if_pos hpower, hinside]
    rfl
  · simp only [if_neg hpower, misaligned_of_not_isPowerOfTwo _ _ (Bool.eq_false_iff.2 hpower)]

/-! ## Descriptions -/

/-- Describing a buffer that the device reads takes one turn and asks the pool for its line size
only. -/
theorem endsAtOnce_create_write (host : Host ε TransferState) (busOf : UInt64 → UInt32)
    (hfits : buffer.toNat + length.toNat ≤ 2 ^ 64) (machine : Machine ε TransferState) :
    EndsAtOnce host machine (create busOf buffer length .write)
      (if isPowerOfTwo machine.shared.fragments.cacheLine then
        writeAnswer busOf buffer length machine.shared.heap machine.shared.memory
      else withoutLines
        (writeAnswer busOf buffer length machine.shared.heap machine.shared.memory)) := by
  have hturn := turn_create_of_lay host busOf buffer length .write machine
  rw [lay_write hfits] at hturn
  -- Only the last of the four ways a layout ends depends on the line size.
  by_cases hlarge : UInt32.size ≤ length.toNat
  · simp only [if_pos hlarge] at hturn
    simp only [writeAnswer, if_pos hlarge, withoutLines, ite_self]
    exact endsAtOnce_ok hturn
  · simp only [if_neg hlarge] at hturn
    cases hallocate : Heap.allocate machine.shared.heap
        (descriptorSize (pageCount (pageOffset buffer) length)) with
    | error cause =>
      simp only [hallocate] at hturn
      simp only [writeAnswer, if_neg hlarge, hallocate, withoutLines, ite_self]
      exact endsAtOnce_error within_create hturn
    | ok allocated =>
      cases allocated with
      | error source =>
        simp only [hallocate] at hturn
        simp only [writeAnswer, if_neg hlarge, hallocate, withoutLines, ite_self]
        exact endsAtOnce_ok hturn
      | ok block =>
        obtain ⟨descriptor, heap⟩ := block
        simp only [hallocate] at hturn
        simp only [writeAnswer, if_neg hlarge, hallocate, withoutLines]
        by_cases hpower : isPowerOfTwo machine.shared.fragments.cacheLine = true
        · simp only [if_pos hpower] at hturn ⊢
          exact endsAtOnce_ok hturn
        · simp only [if_neg hpower] at hturn ⊢
          exact endsAtOnce_error within_create hturn

/-- Describing a buffer that the device reads ends at once.  Once the pool was filled, in any way
and whoever has its fragments, the answer, the heap and the memory come from heap and memory
alone.  Before that the system stops where it would have given a page list. -/
theorem write_ignores_pool_unless_unfilled (host : Host ε TransferState)
    (busOf : UInt64 → UInt32) {buffer length : UInt64}
    (hfits : buffer.toNat + length.toNat ≤ 2 ^ 64) (machine : Machine ε TransferState) :
    let answer := writeAnswer busOf buffer length machine.shared.heap machine.shared.memory
    (machine.shared.fragments.Filled →
      EndsAtOnce host machine (create busOf buffer length .write) answer) ∧
    (machine.shared.fragments.fragmentSize = 0 →
      EndsAtOnce host machine (create busOf buffer length .write) (withoutLines answer)) := by
  have hends := endsAtOnce_create_write host busOf hfits machine
  refine ⟨fun hfilled => ?_, fun hunfilled => ?_⟩
  · rw [if_pos hfilled.isPowerOfTwo_cacheLine] at hends
    exact hends
  · rw [if_neg (Bool.eq_false_iff.1 (FragmentPool.isPowerOfTwo_cacheLine_unfilled hunfilled))]
      at hends
    exact hends

/-- Zeroed memory with a heap and a pool that was never filled. -/
def unfilledPool : TransferState where
  memory := Memory.zeroed
  heap := Heap.ofRange 0x2000000 0x2100000
  fragments := {}

/-- The same with a pool whose only fragment is lent. -/
def exhaustedPool : TransferState :=
  { unfilledPool with
    fragments := { base := 0x1c00000, fragmentSize := 128, count := 1 } }

/-- A page that the device reads is described where no fragment is left, and stops the system
where the pool was never filled. -/
theorem write_of_page_exhausted_and_unfilled :
    (∃ (list : PageList) (last : Machine Empty TransferState),
      (create lowered 0x3000010 64 .write).turn (Host.still Empty TransferState)
          { shared := exhaustedPool } = .returned (.ok list) last ∧
        list.fragment = none ∧ last.shared.fragments = exhaustedPool.fragments) ∧
    (create lowered 0x3000010 64 .write).turn (Host.still Empty TransferState)
      { shared := unfilledPool } = .failed badAlignment { shared := unfilledPool } := by
  have hfits : (0x3000010 : UInt64).toNat + (64 : UInt64).toNat ≤ 2 ^ 64 := by decide
  have hfilled : exhaustedPool.fragments.Filled := ⟨{}, _, 0x1c00000, 1, 64, rfl, rfl⟩
  have hanswer : ∃ list heap memory,
      writeAnswer lowered 0x3000010 64 exhaustedPool.heap exhaustedPool.memory =
        .ok (.ok list, heap, memory) ∧ list.fragment = none := ⟨_, _, _, rfl, rfl⟩
  obtain ⟨list, heap, memory, hanswer, hplain⟩ := hanswer
  constructor
  · have hends := (write_ignores_pool_unless_unfilled (Host.still Empty TransferState) lowered
      hfits { shared := exhaustedPool }).1 hfilled
    simp only [hanswer] at hends
    exact ⟨list, _, hends.1, hplain, rfl⟩
  · have hends := (write_ignores_pool_unless_unfilled (Host.still Empty TransferState) lowered
      hfits { shared := unfilledPool }).2 rfl
    have hsame : writeAnswer lowered 0x3000010 64 unfilledPool.heap unfilledPool.memory =
        .ok (.ok list, heap, memory) := hanswer
    simp only [hsame, withoutLines] at hends
    exact hends.1

end PageList

end DriverHost
