import DriverHost.Alignment

/-!
# Masks as remainders

Masking a word with one less than a power of two keeps its remainder, and clearing the same
bits rounds the word down.  This module reads the alignment helpers as that arithmetic.

Main results:

- Theorem `isPowerOfTwo_iff`: the bit test for powers of two is exact.
- Theorems `toNat_and_pred` and `toNat_and_not_pred`: a mask keeps the remainder, and its
  complement keeps the rest.
- Theorems `alignMask_eq_ok` and `alignMask_eq_error`: which alignments have a mask.
- Theorem `alignDown_eq_ok`: rounding down to a power of two succeeds and subtracts the
  remainder.
- Theorem `isAligned_eq_ok`: the test for an alignment succeeds and asks for the remainder.
- Theorems `testBit_oneBit` and `testBit_and_not_oneBit`: a word with a single bit, and clearing
  that bit of another word.
-/

namespace DriverHost

/-- The bits inside a mask and those outside it add up to the word. -/
theorem toNat_and_add_and_not {w : Nat} (value mask : BitVec w) :
    (value &&& mask).toNat + (value &&& ~~~mask).toNat = value.toNat := by
  have hapart : (value &&& mask) &&& (value &&& ~~~mask) = 0#w := by
    apply BitVec.eq_of_getLsbD_eq
    intro i hi
    simp only [BitVec.getLsbD_and, BitVec.getLsbD_not, BitVec.getLsbD_zero]
    grind
  have hwhole : (value &&& mask) + (value &&& ~~~mask) = value := by
    rw [BitVec.add_eq_or_of_and_eq_zero _ _ hapart]
    apply BitVec.eq_of_getLsbD_eq
    intro i hi
    simp only [BitVec.getLsbD_or, BitVec.getLsbD_and, BitVec.getLsbD_not]
    grind
  calc
    (value &&& mask).toNat + (value &&& ~~~mask).toNat
        = ((value &&& mask) + (value &&& ~~~mask)).toNat :=
      (BitVec.toNat_add_of_and_eq_zero hapart).symm
    _ = value.toNat := by rw [hwhole]

theorem toNat_pred {alignment : UInt64} (hpos : 0 < alignment.toNat) :
    (alignment - 1).toNat = alignment.toNat - 1 := by
  apply UInt64.toNat_sub_of_le
  rw [UInt64.le_iff_toNat_le]
  exact hpos

/-- The bit test for powers of two is exact. -/
theorem isPowerOfTwo_iff (alignment : UInt64) :
    isPowerOfTwo alignment = true ↔ alignment.toNat.isPowerOfTwo := by
  rw [← Nat.ne_zero_and_sub_one_eq_zero_iff_isPowerOfTwo]
  simp only [isPowerOfTwo, Bool.and_eq_true, bne_iff_ne, ne_eq, beq_iff_eq,
    ← UInt64.toNat_inj, UInt64.toNat_and, UInt64.toNat_zero]
  refine and_congr_right fun hne => ?_
  rw [toNat_pred (Nat.pos_of_ne_zero hne)]

/-- Below a power of two, a mask keeps the remainder. -/
theorem toNat_and_pred {alignment : UInt64} (hpower : alignment.toNat.isPowerOfTwo)
    (value : UInt64) : (value &&& (alignment - 1)).toNat = value.toNat % alignment.toNat := by
  have hpos := Nat.pos_of_isPowerOfTwo hpower
  obtain ⟨k, hk⟩ := hpower
  rw [UInt64.toNat_and, toNat_pred hpos, hk, Nat.and_two_pow_sub_one_eq_mod]

/-- The complement of that mask keeps the rest. -/
theorem toNat_and_not_pred {alignment : UInt64} (hpower : alignment.toNat.isPowerOfTwo)
    (value : UInt64) :
    (value &&& ~~~(alignment - 1)).toNat = value.toNat - value.toNat % alignment.toNat := by
  have hsplit := toNat_and_add_and_not value.toBitVec (alignment - 1).toBitVec
  have hrem := toNat_and_pred hpower value
  simp only [← UInt64.toBitVec_not, ← UInt64.toBitVec_and, UInt64.toNat_toBitVec] at hsplit
  omega

/-- The bit test that a value is aligned asks whether there is a remainder. -/
theorem and_pred_beq_zero {alignment : UInt64} (hpower : alignment.toNat.isPowerOfTwo)
    (value : UInt64) :
    (value &&& (alignment - 1) == 0) = decide (value.toNat % alignment.toNat = 0) := by
  rw [← toNat_and_pred hpower, Bool.beq_eq_decide_eq, decide_eq_decide, ← UInt64.toNat_inj]
  rfl

/-- A power of two has the bits below it as its mask. -/
theorem alignMask_eq_ok {alignment : UInt64} (hpower : alignment.toNat.isPowerOfTwo) :
    alignMask alignment = .ok (alignment - 1) :=
  if_pos ((isPowerOfTwo_iff alignment).2 hpower)

/-- Any other alignment is refused, zero among them. -/
theorem alignMask_eq_error {alignment : UInt64} (hother : ¬ alignment.toNat.isPowerOfTwo) :
    alignMask alignment = .error badAlignment :=
  if_neg (mt (isPowerOfTwo_iff alignment).1 hother)

/-- Only a power of two has a mask. -/
theorem isPowerOfTwo_of_alignMask {alignment mask : UInt64}
    (hmask : alignMask alignment = .ok mask) : alignment.toNat.isPowerOfTwo := by
  by_cases hpower : alignment.toNat.isPowerOfTwo
  · exact hpower
  · rw [alignMask_eq_error hpower] at hmask
    cases hmask

/-- Rounding down to a power of two succeeds and subtracts the remainder. -/
theorem alignDown_eq_ok {alignment : UInt64} (hpower : alignment.toNat.isPowerOfTwo)
    (value : UInt64) :
    ∃ down, alignDown value alignment = .ok down ∧
      down.toNat = value.toNat - value.toNat % alignment.toNat := by
  refine ⟨value &&& ~~~(alignment - 1), ?_, toNat_and_not_pred hpower value⟩
  rw [alignDown, alignMask_eq_ok hpower]
  rfl

/-- Testing the bits of the mask tests divisibility. -/
theorem isAligned_eq_ok {value alignment : UInt64} (hpower : alignment.toNat.isPowerOfTwo) :
    isAligned value alignment = .ok (decide (value.toNat % alignment.toNat = 0)) := by
  rw [isAligned, alignMask_eq_ok hpower, ← and_pred_beq_zero hpower]
  rfl

/-- Filling the bits of the mask leads to the end of the multiple that the value lies in. -/
theorem toNat_or_pred {alignment : UInt64} (hpower : alignment.toNat.isPowerOfTwo)
    (value : UInt64) :
    (value ||| (alignment - 1)).toNat =
      value.toNat - value.toNat % alignment.toNat + (alignment.toNat - 1) := by
  have hsplit := toNat_and_add_and_not (value ||| (alignment - 1)).toBitVec
    (alignment - 1).toBitVec
  have hinside : (value ||| (alignment - 1)).toBitVec &&& (alignment - 1).toBitVec =
      (alignment - 1).toBitVec := by
    apply BitVec.eq_of_getLsbD_eq
    intro i hi
    simp only [UInt64.toBitVec_or, BitVec.getLsbD_and, BitVec.getLsbD_or]
    cases (alignment - 1).toBitVec.getLsbD i <;> simp
  have houtside : (value ||| (alignment - 1)).toBitVec &&& ~~~(alignment - 1).toBitVec =
      (value &&& ~~~(alignment - 1)).toBitVec := by
    apply BitVec.eq_of_getLsbD_eq
    intro i hi
    simp only [UInt64.toBitVec_or, UInt64.toBitVec_and, UInt64.toBitVec_not, BitVec.getLsbD_and,
      BitVec.getLsbD_or, BitVec.getLsbD_not]
    cases (alignment - 1).toBitVec.getLsbD i <;> simp
  rw [hinside, houtside] at hsplit
  simp only [UInt64.toNat_toBitVec] at hsplit
  rw [toNat_and_not_pred hpower, toNat_pred (Nat.pos_of_isPowerOfTwo hpower)] at hsplit
  omega

theorem pageSize_isPowerOfTwo : pageSize.toNat.isPowerOfTwo :=
  ⟨12, rfl⟩

/-- The offset in a page is the remainder by the page size. -/
theorem toNat_pageOffset (address : UInt64) :
    (pageOffset address).toNat = address.toNat % 4096 :=
  toNat_and_pred pageSize_isPowerOfTwo address

/-- The base of a page is the multiple of the page size at or below the address. -/
theorem toNat_pageBase (address : UInt64) :
    (pageBase address).toNat = address.toNat - address.toNat % 4096 :=
  toNat_and_not_pred pageSize_isPowerOfTwo address

/-! ## Single bits -/

/-- The bits of a 32-bit word with a single bit set. -/
theorem testBit_oneBit {index : Nat} (hindex : index < 32) (other : Nat) :
    ((1 : UInt32) <<< UInt32.ofNat index).toNat.testBit other = decide (other = index) := by
  have hpower : 2 ^ index < 2 ^ 32 := Nat.pow_lt_pow_right (by decide) hindex
  have hsmall : index % 2 ^ 32 % 32 = index := by omega
  rw [UInt32.toNat_shiftLeft, UInt32.toNat_ofNat', UInt32.toNat_one, hsmall, Nat.one_shiftLeft,
    Nat.mod_eq_of_lt hpower, Nat.testBit_two_pow]
  simp [eq_comm]

/-- Clearing a single bit of a 32-bit word leaves the others alone. -/
theorem testBit_and_not_oneBit (word : UInt32) {index other : Nat} (hindex : index < 32)
    (hother : other < 32) :
    (word &&& ~~~((1 : UInt32) <<< UInt32.ofNat index)).toNat.testBit other =
      (word.toNat.testBit other && decide (other ≠ index)) := by
  rw [← UInt32.toNat_toBitVec, UInt32.toBitVec_and, UInt32.toBitVec_not, BitVec.testBit_toNat,
    BitVec.getLsbD_and, BitVec.getLsbD_not, ← BitVec.testBit_toNat, ← BitVec.testBit_toNat,
    UInt32.toNat_toBitVec, UInt32.toNat_toBitVec, testBit_oneBit hindex]
  simp [hother]

end DriverHost
