import DriverHost.Memory
import Mathlib.Algebra.Group.Nat.Defs

/-!
# Blocks of memory

Stores and copies touch a block of consecutive addresses.  This module places every access by
its offset from the beginning of a block, so that questions about overlap are questions about
natural numbers, and reads back lists of words that were written as bytes.

Main results:

- Theorem `Memory.byte_storeBytes` and theorem `Memory.byte_copy`: what a byte is afterwards.
- Theorem `Memory.byte_store_at`: a store inside a block, seen from another offset of it.
- Theorem `Memory.words_storeBytes`: words written as bytes are read back.
- Definition `Memory.AgreeOn`: two memories hold the same block.
- Definition `Memory.Holds`: the bytes from an address on, with theorem `Memory.holds_iff`.
-/

namespace DriverHost

namespace Memory

/-! ## Addresses and offsets -/

theorem toNat_addressAt_sub (start : UInt64) {offset : Nat} (hoffset : offset < 2 ^ 64) :
    (addressAt start offset - start).toNat = offset := by
  rw [addressAt, UInt64.add_comm, UInt64.add_sub_cancel]
  exact UInt64.toNat_ofNat_of_lt' hoffset

/-- Places behind a place of a block are places of the block. -/
theorem addressAt_addressAt (start : UInt64) (first second : Nat) :
    addressAt (addressAt start first) second = addressAt start (first + second) := by
  rw [addressAt, addressAt, addressAt, UInt64.ofNat_add, UInt64.add_assoc]

/-- Every address is at some place behind any other, around the top if need be. -/
theorem addressAt_sub (start address : UInt64) :
    addressAt start (address - start).toNat = address := by
  rw [addressAt, UInt64.ofNat_toNat, UInt64.add_comm, UInt64.sub_add_cancel]

/-- A place of a block that does not wrap is as far behind its start as its number says. -/
theorem toNat_addressAt {start : UInt64} {offset : Nat} (hfits : start.toNat + offset < 2 ^ 64) :
    (addressAt start offset).toNat = start.toNat + offset := by
  rw [addressAt, UInt64.toNat_add, UInt64.toNat_ofNat']
  omega

/-- How far two offsets of a block lie apart, wrapping if the second lies in front. -/
theorem toNat_addressAt_sub_addressAt (start : UInt64) {place offset : Nat}
    (hplace : place ≤ 2 ^ 64) (hoffset : offset < 2 ^ 64) :
    (addressAt start offset - addressAt start place).toNat =
      if place ≤ offset then offset - place else 2 ^ 64 + offset - place := by
  have hstart := start.toNat_lt
  rw [addressAt, addressAt, UInt64.toNat_sub, UInt64.toNat_add, UInt64.toNat_add,
    UInt64.toNat_ofNat', UInt64.toNat_ofNat']
  split <;> omega

/-- A block that ends below the top holds exactly the addresses between its ends. -/
theorem toNat_sub_lt_iff {start address : UInt64} {size : Nat}
    (hfits : start.toNat + size ≤ 2 ^ 64) :
    (address - start).toNat < size ↔
      start.toNat ≤ address.toNat ∧ address.toNat < start.toNat + size := by
  have hstart := start.toNat_lt
  have haddress := address.toNat_lt
  rw [UInt64.toNat_sub]
  omega

/-! ## Bytes after a store -/

/-- After a store, the addresses it covers have its bytes and all others what they had. -/
theorem byte_storeBytes (memory : Memory) (start : UInt64) (content : List UInt8)
    (address : UInt64) :
    (memory.storeBytes start content).byte address =
      (content[(address - start).toNat]?).getD (memory.byte address) := by
  simp only [storeBytes, byte_store, List.size_toArray, Array.getD_eq_getD_getElem?,
    List.getElem?_toArray]
  by_cases hinside : (address - start).toNat < content.length
  · rw [if_pos hinside, List.getElem?_eq_getElem hinside]
    rfl
  · rw [if_neg hinside, List.getElem?_eq_none (Nat.le_of_not_lt hinside)]
    rfl

/-- A copy gives the target the bytes of the source and leaves the rest alone. -/
theorem byte_copy (memory : Memory) (source target : UInt64) (size : Nat) (address : UInt64) :
    (memory.copy source target size).byte address =
      if (address - target).toNat < size then
        memory.byte (addressAt source (address - target).toNat)
      else memory.byte address := by
  rw [copy, byte_storeBytes, bytes]
  by_cases hinside : (address - target).toNat < size
  · simp [hinside]
  · simp [hinside]

/-- What bytes at one offset of a block leave at another one, in offsets. -/
theorem ite_inside_at (start : UInt64) {place size offset : Nat} (inside : Nat → UInt8)
    (outside : UInt8) (hplace : place + size ≤ 2 ^ 64) (hoffset : offset < 2 ^ 64) :
    (if (addressAt start offset - addressAt start place).toNat < size then
      inside (addressAt start offset - addressAt start place).toNat else outside) =
      if place ≤ offset ∧ offset < place + size then inside (offset - place) else outside := by
  rw [toNat_addressAt_sub_addressAt start (by omega) hoffset]
  by_cases hle : place ≤ offset
  · rw [if_pos hle]
    by_cases hlt : offset < place + size
    · rw [if_pos (by omega), if_pos ⟨hle, hlt⟩]
    · rw [if_neg (by omega), if_neg (by omega)]
  · rw [if_neg hle, if_neg (by omega), if_neg (by omega)]

/-- A store inside a block, seen from an offset of the block. -/
theorem byte_store_at (memory : Memory) (start : UInt64) {place size offset : Nat}
    (content : Nat → UInt8) (hplace : place + size ≤ 2 ^ 64) (hoffset : offset < 2 ^ 64) :
    (memory.store (addressAt start place) size content).byte (addressAt start offset) =
      if place ≤ offset ∧ offset < place + size then content (offset - place)
      else memory.byte (addressAt start offset) := by
  rw [byte_store]
  exact ite_inside_at start content _ hplace hoffset

/-- A copy into a block, seen from an offset of the block. -/
theorem byte_copy_at (memory : Memory) (source start : UInt64) {place size offset : Nat}
    (hplace : place + size ≤ 2 ^ 64) (hoffset : offset < 2 ^ 64) :
    (memory.copy source (addressAt start place) size).byte (addressAt start offset) =
      if place ≤ offset ∧ offset < place + size then
        memory.byte (addressAt source (offset - place))
      else memory.byte (addressAt start offset) := by
  rw [byte_copy]
  exact ite_inside_at start (fun index => memory.byte (addressAt source index)) _ hplace hoffset

theorem copy_zero (memory : Memory) (source target : UInt64) :
    memory.copy source target 0 = memory :=
  rfl

/-! ## Memories that hold the same block -/

/-- Two memories hold the same bytes in a block. -/
def AgreeOn (first second : Memory) (start : UInt64) (size : Nat) : Prop :=
  ∀ offset < size, second.byte (addressAt start offset) = first.byte (addressAt start offset)

theorem AgreeOn.refl (memory : Memory) (start : UInt64) (size : Nat) :
    AgreeOn memory memory start size :=
  fun _ _ => rfl

theorem AgreeOn.trans {first second third : Memory} {start : UInt64} {size : Nat}
    (hfirst : AgreeOn first second start size) (hsecond : AgreeOn second third start size) :
    AgreeOn first third start size :=
  fun offset hoffset => (hsecond offset hoffset).trans (hfirst offset hoffset)

/-- A word depends on its own four bytes only. -/
theorem word_congr {first second : Memory} {address : UInt64}
    (hbytes : ∀ offset < 4, second.byte (addressAt address offset) =
      first.byte (addressAt address offset)) : second.word address = first.word address := by
  simp only [word, hbytes 0 (by decide), hbytes 1 (by decide), hbytes 2 (by decide),
    hbytes 3 (by decide)]

/-- Consecutive words depend on their own bytes only. -/
theorem words_congr {first second : Memory} {start : UInt64} {place count : Nat}
    (hbytes : ∀ offset, place ≤ offset → offset < place + 4 * count →
      second.byte (addressAt start offset) = first.byte (addressAt start offset)) :
    second.words (addressAt start place) count = first.words (addressAt start place) count := by
  rw [words, words]
  apply List.map_congr_left
  intro index hindex
  have hlt : index < count := List.mem_range.1 hindex
  apply word_congr
  intro offset hoffset
  rw [addressAt_addressAt, addressAt_addressAt]
  exact hbytes _ (by omega) (by omega)

/-- Memories that hold the same block have the same words in it. -/
theorem AgreeOn.word {first second : Memory} {start : UInt64} {size place : Nat}
    (hagree : AgreeOn first second start size) (hplace : place + 4 ≤ size) :
    second.word (addressAt start place) = first.word (addressAt start place) := by
  apply word_congr
  intro offset hoffset
  rw [addressAt_addressAt]
  exact hagree _ (by omega)

/-- No address lies in both blocks. -/
def Apart (first : UInt64) (firstSize : Nat) (second : UInt64) (secondSize : Nat) : Prop :=
  ∀ address, (address - first).toNat < firstSize → ¬ (address - second).toNat < secondSize

/-- A block apart from another is apart from a shorter one that begins there. -/
theorem Apart.mono {first second : UInt64} {firstSize secondSize smaller : Nat}
    (hapart : Apart first firstSize second secondSize) (hle : smaller ≤ secondSize) :
    Apart first firstSize second smaller :=
  fun address hfirst hsecond => hapart address hfirst (Nat.lt_of_lt_of_le hsecond hle)

theorem Apart.symm {first second : UInt64} {firstSize secondSize : Nat}
    (hapart : Apart first firstSize second secondSize) :
    Apart second secondSize first firstSize :=
  fun address hsecond hfirst => hapart address hfirst hsecond

/-- A block that ends where another begins or before is apart from it. -/
theorem Apart.of_le {first second : UInt64} {firstSize secondSize : Nat}
    (hle : first.toNat + firstSize ≤ second.toNat)
    (hfits : second.toNat + secondSize ≤ 2 ^ 64) : Apart first firstSize second secondSize := by
  intro address hfirst hsecond
  rw [toNat_sub_lt_iff (by omega)] at hfirst hsecond
  omega

/-- What is apart from a block is apart from every part of it. -/
theorem Apart.of_inside {outer inner second : UInt64} {outerSize innerSize secondSize : Nat}
    (hapart : Apart outer outerSize second secondSize) (hbegin : outer.toNat ≤ inner.toNat)
    (hend : inner.toNat + innerSize ≤ outer.toNat + outerSize)
    (hfits : outer.toNat + outerSize ≤ 2 ^ 64) : Apart inner innerSize second secondSize := by
  intro address hinner
  apply hapart
  rw [toNat_sub_lt_iff (by omega)] at hinner ⊢
  omega

/-- The bytes from an address on are the given ones. -/
def Holds (memory : Memory) (start : UInt64) (content : List UInt8) : Prop :=
  memory.bytes start content.length = content

instance (memory : Memory) (start : UInt64) (content : List UInt8) :
    Decidable (memory.Holds start content) :=
  inferInstanceAs (Decidable (_ = _))

/-- Bytes are held exactly if each of them stands at its place. -/
theorem holds_iff {memory : Memory} {start : UInt64} {content : List UInt8} :
    memory.Holds start content ↔ ∀ offset < content.length,
      some (memory.byte (addressAt start offset)) = content[offset]? := by
  constructor
  · intro hholds offset hoffset
    rw [← congrArg (fun bytes => bytes[offset]?) hholds]
    simp [bytes, hoffset]
  · intro hbytes
    apply List.ext_getElem
    · simp [bytes]
    · intro offset _ hoffset
      have hbyte := hbytes offset hoffset
      rw [List.getElem?_eq_getElem hoffset, Option.some.injEq] at hbyte
      simpa [bytes] using hbyte

/-! ## Words written as bytes -/

/-- The bytes of a list of words, each word's in order. -/
def bytesOfWords (words : List UInt32) : List UInt8 :=
  words.flatMap fun word => (List.range 4).map (byteOfWord word)

/-- Each word's bytes stand at four times its place in the list. -/
theorem getElem?_bytesOfWords {words : List UInt32} {index : Nat} {word : UInt32}
    (hword : words[index]? = some word) {offset : Nat} (hoffset : offset < 4) :
    (bytesOfWords words)[4 * index + offset]? = some (byteOfWord word offset) := by
  induction words generalizing index with
  | nil => simp at hword
  | cons head rest ih =>
    have hcons : bytesOfWords (head :: rest) =
        (List.range 4).map (byteOfWord head) ++ bytesOfWords rest := rfl
    rw [hcons]
    cases index with
    | zero =>
      simp only [List.getElem?_cons_zero, Option.some.injEq] at hword
      subst hword
      rw [List.getElem?_append_left (by simpa using hoffset)]
      simp [hoffset]
    | succ index =>
      rw [List.getElem?_cons_succ] at hword
      rw [List.getElem?_append_right (by simp; omega)]
      have hplace : 4 * (index + 1) + offset - ((List.range 4).map (byteOfWord head)).length =
          4 * index + offset := by
        simp
        omega
      rw [hplace]
      exact ih hword

/-- Words written as bytes are read back. -/
theorem words_storeBytes (memory : Memory) (start : UInt64) {content : List UInt32}
    (hfits : 4 * content.length ≤ 2 ^ 64) :
    (memory.storeBytes start (bytesOfWords content)).words start content.length = content := by
  apply List.ext_getElem
  · simp [words]
  · intro index hindex hcontent
    have hbyte : ∀ offset < 4,
        (memory.storeBytes start (bytesOfWords content)).byte
          (addressAt start (4 * index + offset)) = byteOfWord content[index] offset := by
      intro offset hoffset
      rw [byte_storeBytes, toNat_addressAt_sub start (by omega),
        getElem?_bytesOfWords (List.getElem?_eq_getElem hcontent) hoffset]
      rfl
    simp only [words, List.getElem_map, List.getElem_range, word, addressAt_addressAt,
      hbyte 0 (by decide), hbyte 1 (by decide), hbyte 2 (by decide), hbyte 3 (by decide)]
    exact wordOfBytes _

/-! ## Half words -/

/-- The two bytes of a half word make it up again. -/
theorem halfOfBytes (value : UInt16) :
    (value >>> UInt16.ofNat (8 * 0)).toUInt8.toUInt16 |||
      (value >>> UInt16.ofNat (8 * 1)).toUInt8.toUInt16 <<< 8 = value := by
  apply UInt16.toBitVec_inj.1
  apply BitVec.eq_of_getLsbD_eq
  intro i hi
  simp only [UInt16.toBitVec_or, UInt16.toBitVec_shiftLeft, UInt16.toBitVec_shiftRight,
    UInt8.toBitVec_toUInt16, UInt16.toBitVec_toUInt8, BitVec.getLsbD_or,
    BitVec.getLsbD_setWidth, BitVec.shiftLeft_eq', BitVec.ushiftRight_eq',
    BitVec.getLsbD_shiftLeft, BitVec.getLsbD_ushiftRight, hi]
  simp [-UInt16.toBitVec_shiftRight, Nat.mod_eq_of_lt]
  grind

/-- A half word reads back as it was stored. -/
theorem half_setHalf (memory : Memory) (address : UInt64) (value : UInt16) :
    (memory.setHalf address value).half address = value := by
  have hoffset : ∀ offset < 2, (memory.setHalf address value).byte (addressAt address offset) =
      (value >>> UInt16.ofNat (8 * offset)).toUInt8 := by
    intro offset hlt
    rw [setHalf, byte_store, toNat_addressAt_sub address (by omega), if_pos hlt]
  rw [half, hoffset 0 (by decide), hoffset 1 (by decide)]
  exact halfOfBytes value

/-- A half word written inside a block leaves the other bytes of the block alone. -/
theorem byte_setHalf_at (memory : Memory) (start : UInt64) (value : UInt16) (place : Nat)
    {offset : Nat} (hplace : place + 2 ≤ 2 ^ 64) (hoffset : offset < 2 ^ 64)
    (hoff : offset < place ∨ place + 2 ≤ offset) :
    (memory.setHalf (addressAt start place) value).byte (addressAt start offset) =
      memory.byte (addressAt start offset) := by
  rw [setHalf, byte_store_at memory start _ hplace hoffset, if_neg (by omega)]

end Memory

end DriverHost
