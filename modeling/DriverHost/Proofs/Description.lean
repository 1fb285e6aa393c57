import DriverHost.PageList
import DriverHost.Proofs.FragmentTurns
import DriverHost.Proofs.MemoryBlocks
import DriverHost.Proofs.PageRuns

/-!
# What a page list says about its buffer

Building a page list writes the runs of the buffer's pages behind the header, may wait for a
fragment, and then writes the header.  Whatever other tasks do during the wait, as long as they
leave the page list's block alone, the finished page list names every page of the buffer.

Main results:

- Definition `PageList.bufferPages`: the pages that a buffer touches, in order.
- Theorem `PageList.runs_create`: a successful description is a layout, a wait and a header.
- Theorem `PageList.runs_of_create`: the runs in memory are those of the buffer's pages.
- Theorem `PageList.create_describes_every_page`: the runs in memory expand to the pages of the
  buffer, and the header holds the length and the offset.
-/

namespace DriverHost

namespace PageList

variable {ε : Type} {host : Host ε TransferState}
  {between : Machine ε TransferState → Machine ε TransferState → Prop}
  {busOf : UInt64 → UInt32} {buffer length : UInt64} {direction : Direction}

/-! ## The pages of a buffer -/

/-- The bus addresses of the pages that a buffer touches, counted from the page it begins in;
an empty buffer still has that page. -/
def bufferPages (busOf : UInt64 → UInt32) (buffer length : UInt64) : List UInt32 :=
  (List.range (max 1 ((buffer.toNat % 4096 + length.toNat + 4095) / 4096))).map fun index =>
    busOf (UInt64.ofNat (buffer.toNat - buffer.toNat % 4096 + index * 4096))

/-- A buffer takes as many pages as the count in its page list says. -/
theorem length_bufferPages :
    (bufferPages busOf buffer length).length = pageCount (pageOffset buffer) length := by
  rw [bufferPages, List.length_map, List.length_range, pageCount, toNat_pageOffset]

/-- The page addresses that are described are those of the buffer, and none lies past the top
of the address space. -/
theorem pageAddresses_eq_ok {addresses : List UInt32}
    (haddresses : pageAddresses busOf (pageBase buffer)
      (pageCount (pageOffset buffer) length) = .ok addresses) :
    addresses = bufferPages busOf buffer length ∧ buffer.toNat + length.toNat ≤ 2 ^ 64 := by
  have hcount : pageCount (pageOffset buffer) length =
      max 1 ((buffer.toNat % 4096 + length.toNat + 4095) / 4096) := by
    rw [pageCount, toNat_pageOffset]
  have hbase := toNat_pageBase buffer
  rw [pageAddresses] at haddresses
  split at haddresses
  · next hfits =>
    have hpage : pageSize.toNat = 4096 := rfl
    have hsize : UInt64.size = 2 ^ 64 := rfl
    rw [hcount, hbase, hpage, hsize] at hfits
    cases haddresses
    refine ⟨?_, by omega⟩
    rw [bufferPages, hcount]
    apply List.map_congr_left
    intro index _
    have haddress : pageBase buffer + UInt64.ofNat index * pageSize =
        UInt64.ofNat (buffer.toNat - buffer.toNat % 4096 + index * 4096) := by
      rw [UInt64.ofNat_add, UInt64.ofNat_mul, ← hbase, UInt64.ofNat_toNat]
      rfl
    rw [haddress]
  · cases haddresses

/-- The addresses of a buffer's pages are page addresses wherever pages are kept whole. -/
theorem aligned_of_mem_bufferPages
    (haligned : ∀ address : UInt64, address.toNat % 4096 = 0 → (busOf address).toNat % 4096 = 0) :
    ∀ page ∈ bufferPages busOf buffer length, page.toNat % 4096 = 0 := by
  intro page hpage
  obtain ⟨index, _, rfl⟩ := List.mem_map.1 hpage
  apply haligned
  rw [UInt64.toNat_ofNat']
  omega

/-! ## The steps of a description -/

/-- The page list of a buffer at a place in memory, with the fragment it has. -/
def describing (busOf : UInt64 → UInt32) (buffer length : UInt64) (direction : Direction)
    (descriptor : UInt64) (fragment : Option Nat) : PageList :=
  { descriptor, busAddress := busOf descriptor, buffer, length, direction, fragment
    offset := pageOffset buffer
    pages := pageCount (pageOffset buffer) length
    runCount := (runsOf (bufferPages busOf buffer length)).length }

/-- A successful layout has a length that fits, a block of the heap and a word for each run of
the buffer's pages; a read needs a fragment if it is misaligned. -/
theorem lay_eq_ok {state next : TransferState} {list : PageList} {borrows : Bool}
    (hlay : lay busOf buffer length direction state = .ok (.ok (list, borrows, next))) :
    ∃ descriptor heap words,
      length.toNat < 2 ^ 32 ∧ buffer.toNat + length.toNat ≤ 2 ^ 64 ∧
      (runsOf (bufferPages busOf buffer length)).mapM PageRun.encode = .ok words ∧
      list = describing busOf buffer length direction descriptor none ∧
      next = { state with heap, memory := storeRuns state.memory descriptor words } ∧
      Heap.allocate state.heap (descriptorSize (pageCount (pageOffset buffer) length)) =
        .ok (.ok (descriptor, heap)) ∧
      ∃ inside, misaligned (pageOffset buffer) length state.fragments.cacheLine = .ok inside ∧
        borrows = (direction == .read && inside) := by
  unfold lay at hlay
  by_cases hlarge : UInt32.size ≤ length.toNat
  · rw [if_pos hlarge] at hlay
    simp [pure, Except.pure] at hlay
  · rw [if_neg hlarge] at hlay
    obtain ⟨allocated, hallocate, hlay⟩ := bind_eq_ok_iff.1 hlay
    cases allocated with
    | error source => simp [pure, Except.pure] at hlay
    | ok block =>
      rcases block with ⟨descriptor, heap⟩
      obtain ⟨addresses, haddresses, hlay⟩ := bind_eq_ok_iff.1 hlay
      obtain ⟨words, hwords, hlay⟩ := bind_eq_ok_iff.1 hlay
      obtain ⟨inside, hinside, hlay⟩ := bind_eq_ok_iff.1 hlay
      obtain ⟨rfl, hfits⟩ := pageAddresses_eq_ok haddresses
      simp only [pure, Except.pure, Except.ok.injEq, Prod.mk.injEq] at hlay
      obtain ⟨rfl, rfl, rfl⟩ := hlay
      exact ⟨descriptor, heap, words, Nat.lt_of_not_le hlarge, hfits, hwords, rfl, rfl, hallocate,
        inside, hinside, rfl⟩

/-- Wait for a fragment if the transfer needs one. -/
def takeFragment (borrows : Bool) : Coroutine ε TransferState (Option Nat) :=
  if borrows then some <$> FragmentPool.acquire.zoom TransferState.fragmentView else pure none

/-- Write the header of a page list that has its fragment. -/
def finishHeader (list : PageList) (length : UInt64) (direction : Direction)
    (fragment : Option Nat) : Coroutine ε TransferState (Except PageListError PageList) :=
  (Coroutine.act fun state => .ok () { state with
    memory := storeHeader state.memory list.descriptor length.toUInt32
      (kindOf direction fragment) list.offset.toUInt16 }).bind
    fun _ => pure (.ok { list with fragment })

/-- A description in its three steps. -/
theorem create_eq :
    (create busOf buffer length direction : Coroutine ε TransferState _) =
      (Coroutine.act (layDown busOf buffer length direction)).bind fun
        | .error e => pure (.error e)
        | .ok (list, borrows) =>
            (takeFragment borrows).bind (finishHeader list length direction) := by
  have hstep : ∀ list borrows,
      (if borrows then do
        let fragment ← some <$> FragmentPool.acquire.zoom TransferState.fragmentView
        finishHeader list length direction fragment
      else do
        let fragment ← (pure none : Coroutine ε TransferState (Option Nat))
        finishHeader list length direction fragment) =
      (takeFragment borrows).bind (finishHeader list length direction) := by
    intro list borrows
    cases borrows <;> rfl
  unfold create
  refine congrArg (Coroutine.bind _) (funext fun answer => ?_)
  cases answer with
  | error e => rfl
  | ok answer => exact hstep answer.1 answer.2

/-- A successful description is a successful layout, a wait for a fragment if one is needed, and
the header. -/
theorem runs_create {machine last : Machine ε TransferState} {list : PageList}
    (hrun : Coroutine.Runs host between (create busOf buffer length direction) machine
      (.ok (.ok list)) last) :
    ∃ descriptor heap words borrows fragment reached,
      length.toNat < 2 ^ 32 ∧ buffer.toNat + length.toNat ≤ 2 ^ 64 ∧
      (runsOf (bufferPages busOf buffer length)).mapM PageRun.encode = .ok words ∧
      Coroutine.Runs host between (takeFragment borrows)
        (machine.withShared { machine.shared with
          heap, memory := storeRuns machine.shared.memory descriptor words })
        (.ok fragment) reached ∧
      list = describing busOf buffer length direction descriptor fragment ∧
      last = reached.withShared { reached.shared with
        memory := storeHeader reached.shared.memory descriptor length.toUInt32
          (kindOf direction fragment) (pageOffset buffer).toUInt16 } := by
  rw [create_eq] at hrun
  obtain ⟨answer, middle, hlaid, hrest⟩ := hrun.split_ok
  obtain ⟨next, haction, rfl⟩ := hlaid.act_ok
  cases answer with
  | error e =>
    have hend := hrest.of_done
    simp at hend
  | ok answer =>
    rcases answer with ⟨laid, borrows⟩
    have hlay : lay busOf buffer length direction machine.shared =
        .ok (.ok (laid, borrows, next)) := by
      simp only [layDown] at haction
      split at haction <;> simp_all
    obtain ⟨descriptor, heap, words, hlength, hfits, hwords, rfl, rfl, -, -⟩ := lay_eq_ok hlay
    obtain ⟨fragment, reached, htake, hheader⟩ := hrest.split_ok
    obtain ⟨_, written, hwrite, hdone⟩ := hheader.split_ok
    obtain ⟨_, hstore, rfl⟩ := hwrite.act_ok
    cases hstore
    have hend := hdone.of_done
    simp only [Except.ok.injEq] at hend
    exact ⟨descriptor, heap, words, borrows, fragment, reached, hlength, hfits, hwords, htake,
      hend⟩

/-! ## The wait -/

/-- Waiting for a fragment leaves a block of memory as it was, if the other tasks do. -/
theorem agreeOn_takeFragment {descriptor : UInt64} {size : Nat} {borrows : Bool}
    {machine reached : Machine ε TransferState} {result : Except Fault (Option Nat)}
    (hothers : ∀ given taken, between given taken →
      Memory.AgreeOn given.shared.memory taken.shared.memory descriptor size)
    (hrun : Coroutine.Runs host between (takeFragment borrows) machine result reached) :
    Memory.AgreeOn machine.shared.memory reached.shared.memory descriptor size := by
  have hwithin : (takeFragment borrows : Coroutine ε TransferState _).Within
      fun first second => Memory.AgreeOn first.memory second.memory descriptor size := by
    cases borrows with
    | false => exact trivial
    | true =>
      refine Coroutine.Within.bind (Coroutine.Within.zoom ?_ FragmentPool.within_acquire)
        fun _ => trivial
      intro whole part
      exact Memory.AgreeOn.refl _ _ _
  exact hrun.keeps
    (fun now => Memory.AgreeOn machine.shared.memory now.shared.memory descriptor size) hwithin
    (fun _ _ hbefore haccess => hbefore.trans haccess)
    (fun _ _ hbefore hbetween => hbefore.trans (hothers _ _ hbetween)) (Memory.AgreeOn.refl _ _ _)

/-! ## The block of a page list -/

/-- The header covers the first eight bytes of the block and no more. -/
theorem byte_storeHeader (memory : Memory) (descriptor : UInt64) (length : UInt32)
    (kind offset : UInt16) {place : Nat} (hbehind : 8 ≤ place) (hplace : place < 2 ^ 64) :
    (storeHeader memory descriptor length kind offset).byte (Memory.addressAt descriptor place) =
      memory.byte (Memory.addressAt descriptor place) := by
  have hword : (memory.setWord descriptor length).byte (Memory.addressAt descriptor place) =
      memory.byte (Memory.addressAt descriptor place) := by
    rw [Memory.setWord, Memory.byte_store, Memory.toNat_addressAt_sub descriptor hplace,
      if_neg (by omega)]
  rw [storeHeader]
  exact (Memory.byte_setHalf_at _ descriptor offset 6 (by decide) hplace (by omega)).trans
    ((Memory.byte_setHalf_at _ descriptor kind 4 (by decide) hplace (by omega)).trans hword)

/-- The header holds its length and its offset. -/
theorem read_storeHeader (memory : Memory) (descriptor : UInt64) (length : UInt32)
    (kind offset : UInt16) :
    (storeHeader memory descriptor length kind offset).word descriptor = length ∧
      (storeHeader memory descriptor length kind offset).half (descriptor + 6) = offset := by
  refine ⟨?_, Memory.half_setHalf _ _ _⟩
  refine Eq.trans ?_ (Memory.word_setWord memory descriptor length)
  apply Memory.word_congr
  intro place hplace
  rw [storeHeader]
  exact (Memory.byte_setHalf_at _ descriptor offset 6 (by decide) (by omega) (by omega)).trans
    (Memory.byte_setHalf_at _ descriptor kind 4 (by decide) (by omega) (by omega))

/-- The words behind the header are read back wherever the bytes they were written as are
still there. -/
theorem words_of_storeRuns (memory : Memory) {final : Memory} {descriptor : UInt64}
    {words : List UInt32}
    (hfits : 4 * words.length ≤ 2 ^ 64)
    (hbytes : ∀ place, 8 ≤ place → place < 8 + 4 * words.length →
      final.byte (Memory.addressAt descriptor place) =
        (storeRuns memory descriptor words).byte (Memory.addressAt descriptor place)) :
    final.words (descriptor + headerSize) words.length = words := by
  have hsame : final.words (Memory.addressAt descriptor 8) words.length =
      (storeRuns memory descriptor words).words (Memory.addressAt descriptor 8) words.length :=
    Memory.words_congr hbytes
  exact hsame.trans (Memory.words_storeBytes memory (descriptor + headerSize) hfits)

/-- The other tasks leave the block of a page list alone. -/
def LeftAlone (between : Machine ε TransferState → Machine ε TransferState → Prop)
    (list : PageList) : Prop :=
  ∀ given taken, between given taken →
    Memory.AgreeOn given.shared.memory taken.shared.memory list.descriptor (8 + 4 * list.pages)

/-- The runs of a finished page list are read back as they were found, if the other tasks left its
block alone during the wait for a fragment. -/
theorem runs_of_create
    (haligned : ∀ address : UInt64, address.toNat % 4096 = 0 → (busOf address).toNat % 4096 = 0)
    {machine last : Machine ε TransferState} {list : PageList} (halone : LeftAlone between list)
    (hrun : Coroutine.Runs host between (create busOf buffer length direction) machine
      (.ok (.ok list)) last) :
    list.runs last.shared.memory = runsOf (bufferPages busOf buffer length) := by
  obtain ⟨descriptor, heap, words, borrows, fragment, reached, hlength, -, hwords, htake, rfl,
    rfl⟩ := runs_create hrun
  have hagree := agreeOn_takeFragment halone htake
  have hwell : ∀ run ∈ runsOf (bufferPages busOf buffer length), run.WellFormed :=
    wellFormed_of_mem_runsOf (aligned_of_mem_bufferPages haligned)
  have hdecode := PageRun.map_decode_of_mapM_encode hwell hwords
  have hcount : words.length = (runsOf (bufferPages busOf buffer length)).length := by
    rw [← hdecode, List.length_map]
  have hfewer := length_runsOf_le (bufferPages busOf buffer length)
  have hpages : (bufferPages busOf buffer length).length < 2 ^ 32 := by
    rw [bufferPages, List.length_map, List.length_range]
    omega
  -- The header lies in front of the words, and the others left the block alone.
  have hread : (storeHeader reached.shared.memory descriptor length.toUInt32
      (kindOf direction fragment) (pageOffset buffer).toUInt16).words (descriptor + headerSize)
      words.length = words := by
    refine words_of_storeRuns machine.shared.memory (by omega) ?_
    intro place hbehind hplace
    rw [byte_storeHeader _ _ _ _ _ hbehind (by omega)]
    apply hagree
    have hblock : (describing busOf buffer length direction descriptor fragment).pages =
        (bufferPages busOf buffer length).length := length_bufferPages.symm
    omega
  simp only [Machine.withShared_shared, runs, describing, ← hcount]
  rw [hread, hdecode]

/-- A finished page list names every page of its buffer in order, in runs of 1 to 4096 pages,
and its header holds the length and the offset.  The other tasks may do anything during the
wait for a fragment but write to the page list's block. -/
theorem create_describes_every_page
    (haligned : ∀ address : UInt64, address.toNat % 4096 = 0 → (busOf address).toNat % 4096 = 0)
    {machine last : Machine ε TransferState} {list : PageList}
    (hrun : Coroutine.Runs host
      (fun given taken => Memory.AgreeOn given.shared.memory taken.shared.memory list.descriptor
        (8 + 4 * list.pages))
      (create busOf buffer length direction) machine (.ok (.ok list)) last) :
    pagesOf (list.runs last.shared.memory) = bufferPages busOf buffer length ∧
      (∀ run ∈ list.runs last.shared.memory, 1 ≤ run.pages.toNat ∧ run.pages.toNat ≤ 4096) ∧
      (last.shared.memory.word list.descriptor).toNat = length.toNat ∧
      (last.shared.memory.half (list.descriptor + 6)).toNat = buffer.toNat % 4096 := by
  have hruns := runs_of_create haligned (fun _ _ hbetween => hbetween) hrun
  obtain ⟨descriptor, heap, words, borrows, fragment, reached, hlength, -, -, -, rfl, rfl⟩ :=
    runs_create hrun
  have hwell : ∀ run ∈ runsOf (bufferPages busOf buffer length), run.WellFormed :=
    wellFormed_of_mem_runsOf (aligned_of_mem_bufferPages haligned)
  have hheader := read_storeHeader reached.shared.memory descriptor length.toUInt32
    (kindOf direction fragment) (pageOffset buffer).toUInt16
  rw [hruns]
  refine ⟨pagesOf_runsOf _, ?_, ?_, ?_⟩
  · intro run hmem
    exact ⟨(hwell run hmem).nonempty, (hwell run hmem).bounded⟩
  · refine (congrArg UInt32.toNat hheader.1).trans ?_
    rw [UInt64.toNat_toUInt32]
    exact Nat.mod_eq_of_lt hlength
  · refine (congrArg UInt16.toNat hheader.2).trans ?_
    rw [UInt64.toNat_toUInt16, toNat_pageOffset]
    omega

/-- A translation that moves every address down by a page, so that some pages wrap. -/
def lowered (address : UInt64) : UInt32 :=
  address.toUInt32 - 0x1000

/-- Zeroed memory with a heap and a pool of one free fragment. -/
def oneFragment : TransferState where
  memory := Memory.zeroed
  heap := Heap.ofRange 0x2000000 0x2100000
  fragments :=
    { base := 0x1c00000, fragmentSize := 128, count := 1, free := 1, available := { count := 1 } }

set_option maxRecDepth 4000 in
/-- The pages of a buffer that wrap around the top of the bus are one run. -/
theorem create_describes_wrapping_buffer :
    ∃ (list : PageList) (last : Machine Empty TransferState),
      (create lowered 0x100000fc5 5000 .read).turn (Host.still Empty TransferState)
        { shared := oneFragment } = .returned (.ok list) last ∧
      list.fragment = some 0 ∧ list.runCount = 1 ∧
      pagesOf (list.runs last.shared.memory) = [0xfffff000, 0, 0x1000] := by
  have haligned : ∀ address : UInt64, address.toNat % 4096 = 0 →
      (lowered address).toNat % 4096 = 0 := by
    intro address haddress
    have hpage : (0x1000 : UInt32).toNat = 4096 := rfl
    rw [lowered, UInt32.toNat_sub, UInt64.toNat_toUInt32, hpage]
    omega
  have hturn : ∃ (list : PageList) (last : Machine Empty TransferState),
      (create lowered 0x100000fc5 5000 .read).turn (Host.still Empty TransferState)
        { shared := oneFragment } = .returned (.ok list) last ∧
      list.fragment = some 0 ∧ list.runCount = 1 := ⟨_, _, rfl, rfl, rfl⟩
  have hpages : bufferPages lowered 0x100000fc5 5000 = [0xfffff000, 0, 0x1000] := by decide
  obtain ⟨list, last, hreturned, hfragment, hcount⟩ := hturn
  have hall := create_describes_every_page haligned (.returned hreturned)
  exact ⟨list, last, hreturned, hfragment, hcount, hall.1.trans hpages⟩

end PageList

end DriverHost
