import DriverHost.Proofs.Description
import DriverHost.Proofs.Rounding

/-!
# The blocks of page lists

The heap gives every page list a block above all it gave out before, so page lists that are in use
never share a byte.  What building one writes stays inside its own block, and the headers of all
others stay as they are.

Main results:

- Theorems `Bump.allocate_eq_ok` and `Heap.allocate_eq_ok`: a block lies between the old cursor
  and the new one.
- Definition `Memory.SameOutside`: memory outside a block is as it was; what a block apart from
  it holds is kept.
- Theorem `PageList.laidDown_of_lay`: laying a page list out writes to its new block only.
- Theorems `PageList.sameOutside_storeHeader` and `PageList.agreeOn_storeHeader`: so does writing
  its header.
- Theorem `PageList.kind_storeHeader`: the kind is read back from the header.
- Theorem `PageList.misaligned_eq_ok`: when a buffer is not made of whole cache lines.
-/

namespace DriverHost

/-! ## The heap -/

theorem Bump.layout_eq_ok {pool : Bump} {size alignment : UInt64} {layout : Layout}
    (hlayout : pool.layout size alignment = .ok layout) : layout = ⟨size, alignment⟩ := by
  rw [Bump.layout] at hlayout
  split at hlayout
  · cases hlayout
    rfl
  · cases hlayout

/-- A block begins at the first aligned address and ends inside the range, where the cursor then
stands. -/
theorem Bump.allocate_eq_ok {pool next : Bump} {layout : Layout} {start : UInt64}
    (hallocate : pool.allocate layout = .ok (.ok (start, next))) :
    alignUp pool.next layout.alignment = .ok start ∧ start ≠ 0 ∧
      start.toNat + layout.size.toNat ≤ pool.stop.toNat ∧
      next = { pool with next := start + layout.size } := by
  obtain ⟨found, hfound, hallocate⟩ := bind_eq_ok_iff.1 hallocate
  simp only at hallocate
  split at hallocate
  · simp [pure, Except.pure] at hallocate
  · next hinside =>
    simp only [pure, Except.pure, Except.ok.injEq, Prod.mk.injEq] at hallocate
    obtain ⟨rfl, rfl⟩ := hallocate
    simp only [not_or, UInt64.lt_iff_toNat_lt, Nat.not_lt, UInt64.toNat_add] at hinside
    have hsize := layout.size.toNat_lt
    have hstart := found.toNat_lt
    exact ⟨hfound, hinside.2.2, by omega, rfl⟩

/-- A block starts at the cursor or behind it, and the cursor moves to its end. -/
theorem Heap.allocate_eq_ok {heap next : Bump} {size start : UInt64}
    (hallocate : Heap.allocate heap size = .ok (.ok (start, next))) :
    heap.next.toNat ≤ start.toNat ∧ start.toNat + size.toNat ≤ next.next.toNat := by
  rw [Heap.allocate] at hallocate
  cases hlayout : Heap.layout heap size with
  | error e => simp [hlayout] at hallocate
  | ok shape =>
    obtain rfl := Bump.layout_eq_ok hlayout
    rw [hlayout] at hallocate
    obtain ⟨hstart, -, hinside, rfl⟩ := Bump.allocate_eq_ok hallocate
    obtain ⟨-, habove, -⟩ := alignUp_eq_ok hstart
    have htop := heap.stop.toNat_lt
    have hsize : size.toNat ≤ (max size 1).toNat := by
      rw [UInt64.toNat_max]
      exact Nat.le_max_left _ _
    refine ⟨habove, ?_⟩
    simp only [UInt64.toNat_add] at hinside ⊢
    omega

/-! ## Blocks that keep their bytes -/

namespace Memory

/-- Half a word inside a block depends on nothing but the block. -/
theorem half_congr {first second : Memory} {start : UInt64} {size place : Nat}
    (hagree : AgreeOn first second start size) (hplace : place + 2 ≤ size) :
    second.half (addressAt start place) = first.half (addressAt start place) := by
  simp only [half, addressAt_addressAt]
  rw [hagree (place + 0) (by omega), hagree (place + 1) (by omega)]

/-- Writes to one block keep what a block apart from it holds. -/
theorem AgreeOn.of_apart {first second : Memory} {changed start : UInt64} {changedSize size : Nat}
    (hapart : Apart changed changedSize start size) (hsize : size ≤ 2 ^ 64)
    (hothers : ∀ address, ¬ (address - changed).toNat < changedSize →
      second.byte address = first.byte address) : AgreeOn first second start size := by
  intro offset hoffset
  apply hothers
  intro hchanged
  apply hapart _ hchanged
  rw [toNat_addressAt_sub start (by omega)]
  exact hoffset

/-- A word that is written apart from a block keeps what the block holds. -/
theorem agreeOn_setWord (memory : Memory) {address start : UInt64} {size : Nat} (value : UInt32)
    (hapart : Apart start size address 4) (hsize : size ≤ 2 ^ 64) :
    AgreeOn memory (memory.setWord address value) start size :=
  .of_apart hapart.symm hsize fun _ houtside => if_neg houtside

/-- Memory outside a block is as it was. -/
def SameOutside (start : UInt64) (size : Nat) (before after : Memory) : Prop :=
  ∀ address, ¬ (address - start).toNat < size → after.byte address = before.byte address

namespace SameOutside

variable {start : UInt64} {size : Nat} {before middle after : Memory}

theorem refl (start : UInt64) (size : Nat) (memory : Memory) :
    SameOutside start size memory memory :=
  fun _ _ => rfl

/-- What two writes leave alone, both together leave alone. -/
theorem trans (hfirst : SameOutside start size before middle)
    (hsecond : SameOutside start size middle after) : SameOutside start size before after :=
  fun address houtside => (hsecond address houtside).trans (hfirst address houtside)

/-- What stays inside a block stays inside a larger one. -/
theorem mono {larger : Nat} (hsame : SameOutside start size before after) (hle : size ≤ larger) :
    SameOutside start larger before after :=
  fun address houtside => hsame address fun hinside => houtside (Nat.lt_of_lt_of_le hinside hle)

/-- A block apart from the one that was written holds what it held. -/
theorem agreeOn {other : UInt64} {otherSize : Nat} (hsame : SameOutside start size before after)
    (hapart : Apart start size other otherSize) (hsize : otherSize ≤ 2 ^ 64) :
    AgreeOn before after other otherSize :=
  .of_apart hapart hsize hsame

end SameOutside

end Memory

namespace PageList

/-- The words of the runs stay in the block of their page list. -/
theorem sameOutside_storeRuns (memory : Memory) {descriptor : UInt64} {words : List UInt32}
    (hfits : 8 + 4 * words.length ≤ 2 ^ 64) :
    Memory.SameOutside descriptor (8 + 4 * words.length) memory
      (storeRuns memory descriptor words) := by
  intro address houtside
  have hplace := Memory.addressAt_sub descriptor address
  have hhead : descriptor + headerSize = Memory.addressAt descriptor 8 := rfl
  rw [storeRuns, Memory.byte_storeBytes, ← hplace, hhead,
    Memory.toNat_addressAt_sub_addressAt descriptor (by decide) (UInt64.toNat_lt _),
    if_pos (by omega), List.getElem?_eq_none]
  · rfl
  · have hlength : (Memory.bytesOfWords words).length = 4 * words.length := by
      simp [Memory.bytesOfWords, List.map_const', Nat.mul_comm]
    exact (Nat.le_of_eq hlength).trans (by omega)

/-- So does the header. -/
theorem sameOutside_storeHeader (memory : Memory) (descriptor : UInt64) (length : UInt32)
    (kind offset : UInt16) :
    Memory.SameOutside descriptor 8 memory (storeHeader memory descriptor length kind offset) := by
  intro address houtside
  rw [← Memory.addressAt_sub descriptor address]
  exact byte_storeHeader memory descriptor length kind offset (Nat.le_of_not_lt houtside)
    (UInt64.toNat_lt _)

/-- Writing a header does not touch a block apart from it. -/
theorem agreeOn_storeHeader (memory : Memory) {descriptor start : UInt64} (length : UInt32)
    (kind offset : UInt16) (hapart : Memory.Apart descriptor 8 start 8) :
    Memory.AgreeOn memory (storeHeader memory descriptor length kind offset) start 8 :=
  (sameOutside_storeHeader memory descriptor length kind offset).agreeOn hapart (by decide)

/-- The kind is read back from the header. -/
theorem kind_storeHeader (memory : Memory) (descriptor : UInt64) (length : UInt32)
    (kind offset : UInt16) :
    (storeHeader memory descriptor length kind offset).half (descriptor + 4) = kind := by
  refine Eq.trans ?_ (Memory.half_setHalf (memory.setWord descriptor length) (descriptor + 4) kind)
  have hagree : Memory.AgreeOn ((memory.setWord descriptor length).setHalf (descriptor + 4) kind)
      (storeHeader memory descriptor length kind offset) descriptor 6 := by
    intro place hplace
    exact Memory.byte_setHalf_at _ descriptor offset 6 (by decide) (by omega) (Or.inl hplace)
  exact Memory.half_congr hagree (by decide : 4 + 2 ≤ 6)

/-! ## Layouts -/

/-- Each run is encoded as one word. -/
theorem length_mapM_encode {runs : List PageRun} {words : List UInt32}
    (hwords : runs.mapM PageRun.encode = .ok words) : words.length = runs.length := by
  induction runs generalizing words with
  | nil =>
    cases hwords
    rfl
  | cons run rest ih =>
    rw [List.mapM_cons] at hwords
    obtain ⟨word, -, hwords⟩ := bind_eq_ok_iff.1 hwords
    obtain ⟨behind, hbehind, hwords⟩ := bind_eq_ok_iff.1 hwords
    cases hwords
    rw [List.length_cons, List.length_cons, ih hbehind]

/-- A transfer of fewer than 2³² bytes has little more than 2²⁰ pages. -/
theorem pageCount_le {buffer length : UInt64} (hlength : length.toNat < 2 ^ 32) :
    pageCount (pageOffset buffer) length ≤ 2 ^ 20 + 1 := by
  rw [pageCount, toNat_pageOffset]
  omega

/-- The size of a page list's block is computed without overflow: its header and a word for each
page. -/
theorem toNat_descriptorSize {pages : Nat} (hpages : pages ≤ 2 ^ 20 + 1) :
    (descriptorSize pages).toNat = 8 + 4 * pages := by
  have hword : (UInt64.ofNat pages).toNat = pages :=
    UInt64.toNat_ofNat_of_lt' (Nat.lt_of_le_of_lt hpages (by decide))
  have hheader : headerSize.toNat = 8 := rfl
  have hfour : (4 : UInt64).toNat = 4 := rfl
  rw [descriptorSize, UInt64.toNat_add, UInt64.toNat_mul, hword, hheader, hfour]
  omega

/-- Bytes of the block of a page list: the header, and a word for each page. -/
def blockSize (list : PageList) : Nat :=
  8 + 4 * list.pages

/-- A page list that describes a buffer inside the address space by no more runs than pages. -/
structure Sound (list : PageList) : Prop where
  few : list.runCount ≤ list.pages
  offset : list.offset = pageOffset list.buffer
  fits : list.buffer.toNat + list.length.toNat ≤ 2 ^ 64

/-- A page list was laid out in a new block of the heap, and nothing outside the block was
written. -/
structure LaidDown (before after : TransferState) (laid : PageList) : Prop where
  fragments : after.fragments = before.fragments
  above : before.heap.next.toNat ≤ laid.descriptor.toNat
  below : laid.descriptor.toNat + laid.blockSize ≤ after.heap.next.toNat
  outside : Memory.SameOutside laid.descriptor laid.blockSize before.memory after.memory
  sound : laid.Sound

/-- There are no more runs than pages, so their words fit the block. -/
theorem laidDown_of_lay {busOf : UInt64 → UInt32} {buffer length : UInt64}
    {direction : Direction} {before after : TransferState} {laid : PageList} {borrows : Bool}
    (hlay : lay busOf buffer length direction before = .ok (.ok (laid, borrows, after))) :
    LaidDown before after laid := by
  obtain ⟨descriptor, heap, words, hlength, hfits, hwords, rfl, rfl, hallocate, -⟩ :=
    lay_eq_ok hlay
  obtain ⟨habove, hbelow⟩ := Heap.allocate_eq_ok hallocate
  rw [toNat_descriptorSize (pageCount_le hlength)] at hbelow
  have hfew : (runsOf (bufferPages busOf buffer length)).length ≤
      pageCount (pageOffset buffer) length :=
    (length_runsOf_le _).trans_eq length_bufferPages
  have hcount : words.length ≤ pageCount (pageOffset buffer) length := by
    rw [length_mapM_encode hwords]
    exact hfew
  have htop := heap.next.toNat_lt
  have hblock : 8 + 4 * words.length ≤
      (describing busOf buffer length direction descriptor none).blockSize := by
    simp only [blockSize, describing]
    omega
  have hwritten : Memory.SameOutside descriptor (8 + 4 * words.length) before.memory
      (storeRuns before.memory descriptor words) :=
    sameOutside_storeRuns before.memory (by omega)
  exact ⟨rfl, habove, hbelow, hwritten.mono hblock, hfew, rfl, hfits⟩

/-! ## Lines -/

/-- A buffer of a page offset and a length that fit is misaligned exactly if it begins or ends
inside a line. -/
theorem misaligned_eq_ok {offset length line : UInt64} (hpower : line.toNat.isPowerOfTwo)
    (hfits : offset.toNat + length.toNat < 2 ^ 64) :
    misaligned offset length line = .ok (decide (offset.toNat % line.toNat ≠ 0 ∨
      (offset.toNat + length.toNat) % line.toNat ≠ 0)) := by
  have hsum : (offset + length).toNat = offset.toNat + length.toNat := by
    rw [UInt64.toNat_add]
    exact Nat.mod_eq_of_lt hfits
  rw [misaligned, isAligned_eq_ok hpower, isAligned_eq_ok hpower, hsum]
  by_cases hbegin : offset.toNat % line.toNat = 0 <;>
    simp [hbegin, bind, Except.bind, pure, Except.pure]

/-- The kind names the fragment of a read that has one. -/
theorem toNat_kindOf_some (direction : Direction) {index : Nat} (hindex : index < 64) :
    (kindOf direction (some index)).toNat = 2 + index := by
  have hfirst : fragmentKind.toNat = 2 := rfl
  rw [kindOf, UInt16.toNat_add, UInt16.toNat_ofNat', hfirst]
  omega

end PageList

end DriverHost
