import DriverHost.Proofs.TransferCalls
import DriverHost.Proofs.WatchedRun

/-!
# Writes to the block of a page list

Describing a buffer takes a block of the heap for the page list and writes the runs behind its
header at once; the header follows when the transfer has its fragment.  The block has room for a
word for each page and there are no more runs than pages, so nothing outside the block is written,
however many turns the description takes and whatever others do between them.  Completing a
transfer writes to its buffer, and clearing a block of the heap to that block.

Main results:

- Theorem `PageList.sameOutside_copied`: completing a transfer writes to its buffer at most.
- Theorem `PageList.turn_create_owned` and inductive type `PageList.Heads`: what the first turn of
  a description and all its turns come to.
- Theorem `PageList.create_owns_block`: a description writes to its own new block only.
-/

namespace DriverHost

/-! ## Memory outside a block -/

namespace Memory

/-- A copy changes nothing outside its target. -/
theorem sameOutside_copy (memory : Memory) (source target : UInt64) (size : Nat) :
    SameOutside target size memory (memory.copy source target size) := by
  intro address houtside
  rw [byte_copy, if_neg houtside]

/-- A copy into a block stays inside it. -/
theorem sameOutside_copy_at (memory : Memory) (source start : UInt64) {place count size : Nat}
    (hinside : place + count ≤ size) (hsize : size ≤ 2 ^ 64) :
    SameOutside start size memory (memory.copy source (addressAt start place) count) := by
  intro address houtside
  rw [← addressAt_sub start address,
    byte_copy_at _ _ _ (by omega) (UInt64.toNat_lt (address - start)), if_neg (by omega)]

theorem sameOutside_clear (memory : Memory) (start : UInt64) (size : Nat) :
    SameOutside start size memory (memory.clear start size) := by
  intro address houtside
  rw [clear, byte_store, if_neg houtside]

end Memory

/-! ## Turns of restricted code -/

/-- A turn leaves code that is as restricted as the code it began with. -/
theorem Coroutine.Within.of_turn {ε σ α : Type} {host : Host ε σ} {relation : σ → σ → Prop}
    {code rest : Coroutine ε σ α} {machine given : Machine ε σ} (hcode : code.Within relation)
    (hturn : code.turn host machine = .yielded rest given) : rest.Within relation := by
  have hkeeps := @hcode.turn_keeps _ _ _ host relation (fun _ => True) (fun _ _ _ _ => trivial)
    code machine trivial
  rw [hturn] at hkeeps
  exact hkeeps.2

/-- What turns lead code to, when others do anything to the machine between them. -/
inductive Coroutine.LeadsTo {ε σ α : Type} (host : Host ε σ) (code : Coroutine ε σ α)
    (machine : Machine ε σ) : Coroutine ε σ α → Machine ε σ → Prop
  | begins : LeadsTo host code machine code machine
  | resumes {rest given later left taken} (hbefore : LeadsTo host code machine rest given)
      (hturn : rest.turn host given = .yielded later left) :
      LeadsTo host code machine later taken

/-! ## Cleared blocks -/

/-- A request for no bytes is one for a single byte. -/
theorem Heap.allocate_max (heap : Bump) (size : UInt64) :
    Heap.allocate heap (max size 1) = Heap.allocate heap size := by
  have hmax : max (max size 1) 1 = max size 1 := by
    rw [← UInt64.toNat_inj, UInt64.toNat_max, UInt64.toNat_max, Nat.max_assoc, Nat.max_self]
  rw [Heap.allocate, Heap.allocate, Heap.layout, Heap.layout, hmax]

/-- A cleared block is one of the heap's, and nothing else is cleared. -/
theorem Heap.allocateZeroed_eq_ok {heap next : Bump} {memory cleared : Memory}
    {size start : UInt64}
    (hallocate : Heap.allocateZeroed heap memory size = .ok (.ok (start, next, cleared))) :
    heap.next.toNat ≤ start.toNat ∧ start.toNat + (max size 1).toNat ≤ next.next.toNat ∧
      Memory.SameOutside start (max size 1).toNat memory cleared := by
  obtain ⟨answer, hanswer, hallocate⟩ := bind_eq_ok_iff.1 hallocate
  cases answer with
  | error e => simp [pure, Except.pure] at hallocate
  | ok block =>
    obtain ⟨place, heap⟩ := block
    simp only [pure, Except.pure, Except.ok.injEq, Prod.mk.injEq] at hallocate
    obtain ⟨rfl, rfl, rfl⟩ := hallocate
    rw [← Heap.allocate_max] at hanswer
    obtain ⟨habove, hbelow⟩ := Heap.allocate_eq_ok hanswer
    exact ⟨habove, hbelow, Memory.sameOutside_clear memory place _⟩

namespace PageList

variable {ε : Type} {host : Host ε TransferState} {machine : Machine ε TransferState}
  {busOf : UInt64 → UInt32} {buffer length : UInt64} {direction : Direction}

/-! ## Page lists in their blocks -/

/-- Memories that agree on the block of a page list read the same kind from it. -/
theorem kind_congr {list : PageList} {before after : Memory}
    (hagree : Memory.AgreeOn before after list.descriptor list.blockSize) :
    list.kind after = list.kind before := by
  have hheader : 4 + 2 ≤ list.blockSize := by
    rw [blockSize]
    omega
  exact Memory.half_congr hagree hheader

/-- Memories that agree on the block of a page list read the same runs from it. -/
theorem runs_congr {list : PageList} {before after : Memory}
    (hfew : list.runCount ≤ list.pages)
    (hagree : Memory.AgreeOn before after list.descriptor list.blockSize) :
    list.runs after = list.runs before := by
  have hwords : after.words (Memory.addressAt list.descriptor 8) list.runCount =
      before.words (Memory.addressAt list.descriptor 8) list.runCount := by
    apply Memory.words_congr
    intro place _ hplace
    apply hagree
    rw [blockSize]
    omega
  exact congrArg (List.map PageRun.decode) hwords

/-! ## Completing a transfer -/

/-- A copy out of a fragment, whatever the pool is, stays inside the buffer if no more bytes than
the buffer has are reported. -/
theorem sameOutside_copyFragment {list : PageList} {index : Nat} {actual : UInt64}
    {state : TransferState} {memory : Memory} (hsound : list.Sound)
    (hactual : actual.toNat ≤ list.length.toNat)
    (hsum : list.offset.toNat + actual.toNat < 2 ^ 64)
    (hcopy : copyFragment list index actual state = .ok memory) :
    Memory.SameOutside list.buffer list.length.toNat state.memory memory := by
  have hfits := hsound.fits
  have hoffset : list.offset.toNat ≤ list.buffer.toNat := by
    rw [hsound.offset, toNat_pageOffset]
    exact Nat.mod_le _ _
  obtain ⟨fragment, -, hcopy⟩ := bind_eq_ok_iff.1 hcopy
  generalize state.fragments.cacheLine = line at hcopy
  -- The beginning, if it is copied at all, is no longer than what arrived.
  have hbegun : Memory.SameOutside list.buffer list.length.toNat state.memory
      (if headLength list.offset line = 0 then state.memory
        else state.memory.copy fragment list.buffer
          (min (headLength list.offset line) actual).toNat) := by
    by_cases hnone : headLength list.offset line = 0
    · rw [if_pos hnone]
      exact .refl _ _ _
    · rw [if_neg hnone]
      refine (Memory.sameOutside_copy _ _ _ _).mono ?_
      rw [toNat_min]
      omega
  by_cases hends : headLength list.offset line < actual ∧ tailLength list.offset actual line ≠ 0
  · simp only [if_pos hends] at hcopy
    obtain ⟨down, hdown, hcopy⟩ := bind_eq_ok_iff.1 hcopy
    obtain ⟨target, htarget, hcopy⟩ := bind_eq_ok_iff.1 hcopy
    cases hcopy
    obtain ⟨mask, hmask, -⟩ := bind_eq_ok_iff.1 hdown
    have hpower := isPowerOfTwo_of_alignMask hmask
    have hhead := toNat_headLength hpower list.offset
    have htail := toNat_tailLength hpower hsum
    have hreach : headBytes list.offset.toNat line.toNat < actual.toNat := by
      rw [← hhead]
      exact UInt64.lt_iff_toNat_lt.1 hends.1
    have hpartial : (tailLength list.offset actual line).toNat ≠ 0 := by
      rw [ne_eq, ← UInt64.toNat_zero, UInt64.toNat_inj]
      exact hends.2
    have hparts := headBytes_add_tailBytes_le (Nat.pos_of_isPowerOfTwo hpower) hreach
    obtain ⟨also, halso, hplace⟩ := tailTarget_eq_ok hpower hoffset hsum hreach (by omega)
    cases hdown.symm.trans halso
    cases htarget.symm.trans hplace
    refine hbegun.trans (Memory.sameOutside_copy_at _ _ _ ?_ ?_)
    · omega
    · omega
  · simp only [if_neg hends] at hcopy
    cases hcopy
    exact hbegun

/-- Completing a transfer writes to its buffer at most, if no more bytes than the buffer has are
reported. -/
theorem sameOutside_copied {list : PageList} {index : Nat} {actual : Int32}
    {state : TransferState} {memory : Memory} (hsound : list.Sound)
    (hcount : actual.toInt ≤ list.length.toNat)
    (hcopied : copied list index actual state = .ok memory) :
    Memory.SameOutside list.buffer list.length.toNat state.memory memory := by
  rw [copied] at hcopied
  by_cases hnegative : actual < 0
  · rw [if_pos hnegative] at hcopied
    cases hcopied
    exact .refl _ _ _
  · rw [if_neg hnegative] at hcopied
    have hbound := toNat_toInt_lt actual
    have hword : (UInt64.ofNat actual.toInt.toNat).toNat = actual.toInt.toNat :=
      UInt64.toNat_ofNat_of_lt' (Nat.lt_trans hbound (by decide))
    have hoffset : list.offset.toNat < 4096 := by
      rw [hsound.offset, toNat_pageOffset]
      omega
    exact sameOutside_copyFragment hsound (by omega) (by omega) hcopied

/-! ## The turns of a description -/

/-- What a turn on the pool of fragments comes to: memory and heap stay as they are, and what is
left is again work on the pool. -/
inductive OnPool {α : Type} (machine : Machine ε TransferState) : Turn ε TransferState α → Prop
  | returned {value last} (hmemory : last.shared.memory = machine.shared.memory)
      (hheap : last.shared.heap = machine.shared.heap) : OnPool machine (.returned value last)
  | yielded {pooled : Coroutine ε FragmentPool α} {last}
      (hpooled : pooled.Within fun _ _ => True)
      (hmemory : last.shared.memory = machine.shared.memory)
      (hheap : last.shared.heap = machine.shared.heap) :
      OnPool machine (.yielded (pooled.zoom TransferState.fragmentView) last)
  | failed {cause last} (hmemory : last.shared.memory = machine.shared.memory)
      (hheap : last.shared.heap = machine.shared.heap) : OnPool machine (.failed cause last)

/-- Code on the fragment pool leaves the memory and the heap as they are. -/
theorem onPool_turn {α : Type} {pooled : Coroutine ε FragmentPool α}
    (hpooled : pooled.Within fun _ _ => True) (host : Host ε TransferState)
    (machine : Machine ε TransferState) :
    OnPool machine ((pooled.zoom TransferState.fragmentView).turn host machine) := by
  rw [Coroutine.turn_zoom lawful_fragmentView hpooled]
  cases hturn : pooled.turn (.still ε FragmentPool) (machine.part TransferState.fragmentView) with
  | returned value left => exact .returned rfl rfl
  | failed cause left => exact .failed rfl rfl
  | yielded rest left => exact .yielded (hpooled.of_turn hturn) rfl rfl

/-- Completing a transfer writes to its buffer, and goes on with work on the pool. -/
theorem onPool_turn_finish {list : PageList} {actual : Int32} (hsound : list.Sound)
    (hcount : actual.toInt ≤ list.length.toNat) (host : Host ε TransferState)
    (machine : Machine ε TransferState) :
    ∃ memory, Memory.SameOutside list.buffer list.length.toNat machine.shared.memory memory ∧
      OnPool (machine.withShared { machine.shared with memory })
        ((finish list actual).turn host machine) := by
  cases hfragment : list.fragment with
  | none =>
    rw [finish_eq_done hfragment]
    exact ⟨machine.shared.memory, .refl _ _ _, .returned rfl rfl⟩
  | some index =>
    rw [finish_eq hfragment, Coroutine.turn_bind, Coroutine.turn_act, copyBack]
    cases hcopied : copied list index actual machine.shared with
    | error cause => exact ⟨machine.shared.memory, .refl _ _ _, .failed rfl rfl⟩
    | ok memory =>
      exact ⟨memory, sameOutside_copied hsound hcount hcopied,
        onPool_turn (FragmentPool.within_release index) host _⟩

/-- What is left of a description that takes a fragment: work on the pool, and the header. -/
def heading (laid : PageList) (pooled : Coroutine ε FragmentPool Nat) :
    Coroutine ε TransferState (Except PageListError PageList) :=
  (pooled.zoom TransferState.fragmentView).bind fun index =>
    finishHeader laid laid.length laid.direction (some index)

/-- A description that waits for its fragment starts no threads, runs no rounds and stays on its
core. -/
theorem within_heading {laid : PageList} {pooled : Coroutine ε FragmentPool Nat}
    (hpooled : pooled.Within fun _ _ => True) : (heading laid pooled).Within fun _ _ => True :=
  (hpooled.zoom fun _ _ => trivial).bind fun _ => within_finishHeader _

/-- What a turn of a description comes to once its page list is laid out: only the turn that
returns the page list writes, and what it writes is the header. -/
inductive Heads (laid : PageList) (machine : Machine ε TransferState) :
    Turn ε TransferState (Except PageListError PageList) → Prop
  | headed {fragment last}
      (hmemory : last.shared.memory = storeHeader machine.shared.memory laid.descriptor
        laid.length.toUInt32 (kindOf laid.direction fragment) laid.offset.toUInt16)
      (hheap : last.shared.heap = machine.shared.heap) :
      Heads laid machine (.returned (.ok { laid with fragment }) last)
  | waits {pooled last} (hpooled : pooled.Within fun _ _ => True)
      (hmemory : last.shared.memory = machine.shared.memory)
      (hheap : last.shared.heap = machine.shared.heap) :
      Heads laid machine (.yielded (heading laid pooled) last)
  | failed {cause last} (hmemory : last.shared.memory = machine.shared.memory)
      (hheap : last.shared.heap = machine.shared.heap) : Heads laid machine (.failed cause last)

/-- A turn that waits for the fragment writes nothing, and the one that gets it writes the header
alone. -/
theorem heads_turn_heading {laid : PageList} {pooled : Coroutine ε FragmentPool Nat}
    (hpooled : pooled.Within fun _ _ => True) (host : Host ε TransferState)
    (machine : Machine ε TransferState) :
    Heads laid machine ((heading laid pooled).turn host machine) := by
  have hpool := onPool_turn hpooled host machine
  rw [heading, Coroutine.turn_bind]
  generalize (pooled.zoom TransferState.fragmentView).turn host machine = turn at hpool ⊢
  cases hpool with
  | returned hmemory hheap =>
    refine .headed ?_ hheap
    rw [← hmemory]
  | yielded hpooled hmemory hheap => exact .waits hpooled hmemory hheap
  | failed hmemory hheap => exact .failed hmemory hheap

/-- The first turn of a description changes nothing, or goes on in a new block of the heap. -/
theorem turn_create_owned (host : Host ε TransferState) (busOf : UInt64 → UInt32)
    (buffer length : UInt64) (direction : Direction) (machine : Machine ε TransferState) :
    (∃ cause, (create busOf buffer length direction).turn host machine =
      .failed cause machine) ∨
    (∃ e, (create busOf buffer length direction).turn host machine =
      .returned (.error e) machine) ∨
    ∃ descriptor after,
      LaidDown machine.shared after (describing busOf buffer length direction descriptor none) ∧
      Heads (describing busOf buffer length direction descriptor none) (machine.withShared after)
        ((create busOf buffer length direction).turn host machine) := by
  rw [turn_create_of_lay]
  cases hlay : lay busOf buffer length direction machine.shared with
  | error cause => exact Or.inl ⟨cause, rfl⟩
  | ok answer =>
    cases answer with
    | error e => exact Or.inr (Or.inl ⟨e, rfl⟩)
    | ok answer =>
      obtain ⟨laid, borrows, after⟩ := answer
      have hlaid := laidDown_of_lay hlay
      obtain ⟨descriptor, -, -, -, -, -, rfl, -⟩ := lay_eq_ok hlay
      refine Or.inr (Or.inr ⟨descriptor, after, hlaid, ?_⟩)
      cases borrows with
      | false => exact .headed rfl rfl
      | true =>
        have hwaits : (takeFragment true).bind (finishHeader
            (describing busOf buffer length direction descriptor none) length direction) =
            heading (describing busOf buffer length direction descriptor none)
              (FragmentPool.acquire : Coroutine ε FragmentPool Nat) :=
          Coroutine.bind_assoc _ _ _
        simp only [hwaits]
        exact heads_turn_heading FragmentPool.within_acquire host _

/-! ## Whole descriptions -/

/-- What a turn of a description owes to all others: it writes to the block only, and a page list
that it returns is in the block, has no more runs than pages, and has its kind in the header. -/
structure OwesBlock (descriptor : UInt64) (pages : Nat) (direction : Direction)
    (given : Machine ε TransferState)
    (turn : Turn ε TransferState (Except PageListError PageList)) : Prop where
  outside : Memory.SameOutside descriptor (8 + 4 * pages) given.shared.memory
    (Coroutine.Turn.last turn).shared.memory
  returns : ∀ list last, turn = .returned (.ok list) last →
    list.descriptor = descriptor ∧ list.pages = pages ∧ list.runCount ≤ list.pages ∧
      list.kind last.shared.memory = kindOf direction list.fragment

/-- A description writes to its own block only.  Its first turn meets a fault or is refused and
changes nothing, or takes a block above all that the heap gave out before; that turn and every
later one, whatever others did to the machine before it, then writes to this block only. -/
def OwnsBlock (host : Host ε TransferState) (busOf : UInt64 → UInt32) (buffer length : UInt64)
    (direction : Direction) (machine : Machine ε TransferState) : Prop :=
  let code : Coroutine ε TransferState (Except PageListError PageList) :=
    create busOf buffer length direction
  let pages := pageCount (pageOffset buffer) length
  (∃ cause, code.turn host machine = .failed cause machine) ∨
  (∃ e, code.turn host machine = .returned (.error e) machine) ∨
  ∃ descriptor : UInt64, machine.shared.heap.next.toNat ≤ descriptor.toNat ∧
    descriptor.toNat + (8 + 4 * pages) ≤
      (Coroutine.Turn.last (code.turn host machine)).shared.heap.next.toNat ∧
    ∀ rest given, code.LeadsTo host machine rest given →
      OwesBlock descriptor pages direction given (rest.turn host given)

/-- A turn that writes at most the header writes inside the block, and the page list that it
returns is in it. -/
theorem Heads.owesBlock {laid : PageList} {given : Machine ε TransferState}
    {turn : Turn ε TransferState (Except PageListError PageList)} (hheads : Heads laid given turn)
    (hfew : laid.runCount ≤ laid.pages) :
    OwesBlock laid.descriptor laid.pages laid.direction given turn := by
  cases hheads with
  | @headed fragment last hmemory hheap =>
    refine ⟨?_, ?_⟩
    · rw [Coroutine.Turn.last, hmemory]
      exact (sameOutside_storeHeader _ _ _ _ _).mono (by omega)
    · intro list reached hreturned
      cases hreturned
      refine ⟨rfl, rfl, hfew, ?_⟩
      rw [hmemory]
      exact kind_storeHeader _ _ _ _ _
  | waits hpooled hmemory hheap =>
    refine ⟨?_, fun list reached hreturned => nomatch hreturned⟩
    rw [Coroutine.Turn.last, hmemory]
    exact .refl _ _ _
  | failed hmemory hheap =>
    refine ⟨?_, fun list reached hreturned => nomatch hreturned⟩
    rw [Coroutine.Turn.last, hmemory]
    exact .refl _ _ _

/-- Once the page list is laid out, its description takes nothing more from the heap. -/
theorem Heads.heap {laid : PageList} {given : Machine ε TransferState}
    {turn : Turn ε TransferState (Except PageListError PageList)}
    (hheads : Heads laid given turn) :
    (Coroutine.Turn.last turn).shared.heap = given.shared.heap := by
  cases hheads with
  | headed hmemory hheap => exact hheap
  | waits hpooled hmemory hheap => exact hheap
  | failed hmemory hheap => exact hheap

/-- A description whose page list is laid out is from then on a wait for its fragment. -/
theorem eq_heading_of_leadsTo {laid : PageList} {code rest : Coroutine ε TransferState _}
    {given reached : Machine ε TransferState}
    (hfirst : Heads laid reached (code.turn host machine))
    (hleads : code.LeadsTo host machine rest given) :
    rest = code ∧ given = machine ∨
      ∃ pooled, pooled.Within (fun _ _ => True) ∧ rest = heading laid pooled := by
  have hwaits : ∀ {before : Machine ε TransferState} {turn later left},
      Heads laid before turn → turn = .yielded later left →
        ∃ pooled, pooled.Within (fun _ _ => True) ∧ later = heading laid pooled := by
    intro before turn later left hheads hturn
    cases hheads with
    | waits hpooled =>
      cases hturn
      exact ⟨_, hpooled, rfl⟩
    | headed | failed => cases hturn
  induction hleads with
  | begins => exact Or.inl ⟨rfl, rfl⟩
  | @resumes rest given later left taken hbefore hturn ih =>
    rcases ih with ⟨rfl, rfl⟩ | ⟨pooled, hpooled, rfl⟩
    · exact Or.inr (hwaits hfirst hturn)
    · exact Or.inr (hwaits (heads_turn_heading hpooled host given) hturn)

/-- Every description, in every state of heap and pool, writes to its own block only. -/
theorem create_owns_block (host : Host ε TransferState) (busOf : UInt64 → UInt32)
    (buffer length : UInt64) (direction : Direction) (machine : Machine ε TransferState) :
    OwnsBlock host busOf buffer length direction machine := by
  rcases turn_create_owned host busOf buffer length direction machine with
    hfault | hrefused | ⟨descriptor, after, hlaid, hheads⟩
  · exact Or.inl hfault
  · exact Or.inr (Or.inl hrefused)
  · refine Or.inr (Or.inr ⟨descriptor, hlaid.above, ?_, fun rest given hleads => ?_⟩)
    · rw [hheads.heap]
      exact hlaid.below
    · rcases eq_heading_of_leadsTo hheads hleads with ⟨rfl, rfl⟩ | ⟨pooled, hpooled, rfl⟩
      · have howes := hheads.owesBlock hlaid.sound.few
        exact ⟨hlaid.outside.trans howes.outside, howes.returns⟩
      · exact (heads_turn_heading hpooled host given).owesBlock hlaid.sound.few

end PageList

end DriverHost
