import DriverHost.Fault

/-!
# Memory and register buses

Memory is a byte for every 64-bit address, and addresses wrap at the top.  A store covers a
block of consecutive addresses and leaves the rest alone.  Words are read and written little
endian, and the order of the bytes of a word is the only place where that shows.

A device driver sees registers instead: a read may change the device and a write may do
anything, so a bus is any state with those two operations.  Plain memory is one bus.

Main results:

- Lemma `byte_store` is the one law of stores.
- Lemma `word_setWord` reads back a word that was written.
- Class `Bus` is what the device drivers are written against.
-/

namespace DriverHost

/-- A byte at every address. -/
structure Memory where
  /-- The byte at an address. -/
  byte : UInt64 → UInt8

namespace Memory

/-- Memory in which every byte is zero. -/
def zeroed : Memory := ⟨fun _ => 0⟩

/-- The address `offset` bytes after another, wrapping at the top. -/
def addressAt (start : UInt64) (offset : Nat) : UInt64 :=
  start + UInt64.ofNat offset

/-- Write `size` bytes from `start` on, the byte at each offset given by a function. -/
def store (memory : Memory) (start : UInt64) (size : Nat) (content : Nat → UInt8) : Memory :=
  ⟨fun address =>
    let offset := (address - start).toNat
    if offset < size then content offset else memory.byte address⟩

/-- A store gives the block its new bytes and leaves every other byte alone. -/
theorem byte_store (memory : Memory) (start : UInt64) (size : Nat) (content : Nat → UInt8)
    (address : UInt64) :
    (memory.store start size content).byte address =
      if (address - start).toNat < size then content (address - start).toNat
      else memory.byte address := rfl

/-- Clear a block. -/
def clear (memory : Memory) (start : UInt64) (size : Nat) : Memory :=
  memory.store start size fun _ => 0

/-- The bytes of a block, in order. -/
def bytes (memory : Memory) (start : UInt64) (size : Nat) : List UInt8 :=
  (List.range size).map fun offset => memory.byte (addressAt start offset)

/-- Write a list of bytes from an address on. -/
def storeBytes (memory : Memory) (start : UInt64) (content : List UInt8) : Memory :=
  let held := content.toArray
  memory.store start held.size fun offset => held.getD offset 0

/-- Copy a block to another place. -/
def copy (memory : Memory) (source target : UInt64) (size : Nat) : Memory :=
  memory.storeBytes target (memory.bytes source size)

/-! ## Words -/

/-- The little-endian byte of a word at an offset. -/
def byteOfWord (word : UInt32) (offset : Nat) : UInt8 :=
  (word >>> UInt32.ofNat (8 * offset)).toUInt8

/-- The 32-bit word at an address, least significant byte first. -/
def word (memory : Memory) (address : UInt64) : UInt32 :=
  (memory.byte (addressAt address 0)).toUInt32 |||
  (memory.byte (addressAt address 1)).toUInt32 <<< 8 |||
  (memory.byte (addressAt address 2)).toUInt32 <<< 16 |||
  (memory.byte (addressAt address 3)).toUInt32 <<< 24

/-- Write a 32-bit word, least significant byte first. -/
def setWord (memory : Memory) (address : UInt64) (value : UInt32) : Memory :=
  memory.store address 4 (byteOfWord value)

/-- The 16-bit word at an address, least significant byte first. -/
def half (memory : Memory) (address : UInt64) : UInt16 :=
  (memory.byte (addressAt address 0)).toUInt16 |||
  (memory.byte (addressAt address 1)).toUInt16 <<< 8

/-- Write a 16-bit word, least significant byte first. -/
def setHalf (memory : Memory) (address : UInt64) (value : UInt16) : Memory :=
  memory.store address 2 fun offset => (value >>> UInt16.ofNat (8 * offset)).toUInt8

/-- Consecutive 32-bit words from an address on. -/
def words (memory : Memory) (start : UInt64) (count : Nat) : List UInt32 :=
  (List.range count).map fun index => memory.word (addressAt start (4 * index))

/-- A word is put together again from its four bytes. -/
theorem wordOfBytes (value : UInt32) :
    (byteOfWord value 0).toUInt32 ||| (byteOfWord value 1).toUInt32 <<< 8 |||
      (byteOfWord value 2).toUInt32 <<< 16 ||| (byteOfWord value 3).toUInt32 <<< 24 = value := by
  apply UInt32.toBitVec_inj.1
  apply BitVec.eq_of_getLsbD_eq
  intro i hi
  simp only [byteOfWord, UInt32.toBitVec_or, UInt32.toBitVec_shiftLeft,
    UInt32.toBitVec_shiftRight, UInt8.toBitVec_toUInt32, UInt32.toBitVec_toUInt8,
    BitVec.getLsbD_or, BitVec.getLsbD_setWidth, BitVec.shiftLeft_eq', BitVec.ushiftRight_eq',
    BitVec.getLsbD_shiftLeft, BitVec.getLsbD_ushiftRight, hi]
  simp [-UInt32.toBitVec_shiftRight, Nat.mod_eq_of_lt]
  grind

/-- A word reads back as it was written. -/
theorem word_setWord (memory : Memory) (address : UInt64) (value : UInt32) :
    (memory.setWord address value).word address = value := by
  have step : ∀ k : UInt64, address + k - address = k := fun k => by
    rw [UInt64.add_comm, UInt64.add_sub_cancel]
  simp only [word, setWord, byte_store, addressAt, step]
  exact wordOfBytes value

end Memory

/-! ## Registers -/

/-- A state whose registers can be read and written at addresses.  Both operations may change
it in any way, as a device may. -/
class Bus (δ : Type) where
  /-- Read the register at an address. -/
  load : UInt64 → δ → UInt32 × δ
  /-- Write the register at an address. -/
  save : UInt64 → UInt32 → δ → δ

/-- Plain memory: a read gives the word that is there and changes nothing. -/
instance : Bus Memory where
  load address memory := (memory.word address, memory)
  save address value memory := memory.setWord address value

end DriverHost
