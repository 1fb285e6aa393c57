import DriverHost.Proofs.Masks
import Mathlib.Algebra.Group.Nat.Defs
import Mathlib.Order.Bounds.Basic

/-!
# Rounding to an alignment

A value has a greatest multiple of the alignment at or below it and a least one at or above it, and
is aligned exactly if it is either of them.  The masks of a power of two compute both bounds.  The
lower one is always a word; the upper one may be the size of the address space, and then there is
no word to answer with.

Main results:

- Definitions `IsRoundedDown` and `IsRoundedUp`: the two bounds, as multiples.
- Theorem `alignUp_eq_ensureWord`: rounding up gives the least multiple, if that is a word.
- Theorems `alignDown_eq_ok_iff` and `alignUp_eq_ok_iff`: the words that rounding gives.
- Theorem `masks_give_exact_bounds`: the alignment helpers on every value and alignment.
-/

namespace DriverHost

/-! ## Bounds -/

/-- The greatest multiple of a number at or below another one. -/
def IsRoundedDown (value alignment down : Nat) : Prop :=
  IsGreatest {multiple | alignment ∣ multiple ∧ multiple ≤ value} down

/-- The least multiple of a number at or behind another one. -/
def IsRoundedUp (value alignment up : Nat) : Prop :=
  IsLeast {multiple | alignment ∣ multiple ∧ value ≤ multiple} up

/-- Taking off the remainder rounds down. -/
theorem isRoundedDown_sub_mod (value alignment : Nat) :
    IsRoundedDown value alignment (value - value % alignment) := by
  refine ⟨⟨Nat.dvd_sub_mod value, Nat.sub_le _ _⟩, ?_⟩
  rintro multiple ⟨hdvd, hle⟩
  have hquotient := Nat.div_add_mod value alignment
  calc
    multiple = alignment * (multiple / alignment) := (Nat.mul_div_cancel' hdvd).symm
    _ ≤ alignment * (value / alignment) := Nat.mul_le_mul_left _ (Nat.div_le_div_right hle)
    _ = value - value % alignment := by omega

/-- A value is its own lower bound exactly if it is aligned. -/
theorem isRoundedDown_self_iff {value alignment : Nat} :
    IsRoundedDown value alignment value ↔ alignment ∣ value :=
  ⟨fun hdown => hdown.1.1, fun hdvd => ⟨⟨hdvd, Nat.le_refl value⟩, fun _ hmultiple => hmultiple.2⟩⟩

namespace IsRoundedUp

variable {value alignment up : Nat}

/-- A multiple of the alignment rounds up to itself. -/
theorem of_dvd (hdvd : alignment ∣ value) : IsRoundedUp value alignment value :=
  ⟨⟨hdvd, Nat.le_refl value⟩, fun _ hmultiple => hmultiple.2⟩

/-- A value between two multiples is rounded up to the next one. -/
theorem of_mod_ne_zero (hpos : 0 < alignment) (hrem : value % alignment ≠ 0) :
    IsRoundedUp value alignment (value - value % alignment + alignment) := by
  have hmod := Nat.mod_lt value hpos
  refine ⟨⟨Nat.dvd_add (Nat.dvd_sub_mod value) (Nat.dvd_refl alignment), by omega⟩, ?_⟩
  rintro multiple ⟨hdvd, hle⟩
  have hquotient := Nat.div_add_mod value alignment
  obtain ⟨quotient, rfl⟩ := hdvd
  have hlt : value / alignment < quotient := by
    refine Nat.lt_of_not_le fun hge => ?_
    have hbelow := Nat.mul_le_mul_left alignment hge
    omega
  have hnext := Nat.mul_le_mul_left alignment hlt
  rw [Nat.succ_eq_add_one, Nat.mul_add, Nat.mul_one] at hnext
  omega

/-- Every number rounds up to some multiple of a positive alignment. -/
theorem exists_of_pos (value : Nat) (hpos : 0 < alignment) :
    ∃ up, IsRoundedUp value alignment up := by
  by_cases hrem : value % alignment = 0
  · exact ⟨value, .of_dvd (Nat.dvd_of_mod_eq_zero hrem)⟩
  · exact ⟨_, .of_mod_ne_zero hpos hrem⟩

/-- The upper bound is the next multiple: one alignment lower lies below the value. -/
theorem lt_add (hpos : 0 < alignment) (hup : IsRoundedUp value alignment up) :
    up < value + alignment := by
  refine Nat.lt_of_not_le fun hge => ?_
  have hbefore : alignment ∣ up - alignment := Nat.dvd_sub hup.1.1 (Nat.dvd_refl alignment)
  have hleast := hup.2 ⟨hbefore, (by omega : value ≤ up - alignment)⟩
  omega

/-- Words are rounded up to the size of the address space at most. -/
theorem le_size {value alignment : UInt64} (hpower : alignment.toNat.isPowerOfTwo)
    (hup : IsRoundedUp value.toNat alignment.toNat up) : up ≤ 2 ^ 64 := by
  refine hup.2 ⟨?_, Nat.le_of_lt value.toNat_lt⟩
  obtain ⟨k, hk⟩ := hpower
  have hlt := alignment.toNat_lt
  rw [hk] at hlt ⊢
  exact Nat.pow_dvd_pow 2 (Nat.le_of_lt ((Nat.pow_lt_pow_iff_right (by decide)).1 hlt))

end IsRoundedUp

/-- A value is its own upper bound exactly if it is aligned. -/
theorem isRoundedUp_self_iff {value alignment : Nat} :
    IsRoundedUp value alignment value ↔ alignment ∣ value :=
  ⟨fun hup => hup.1.1, .of_dvd⟩

/-! ## Rounding words -/

section

variable {value alignment : UInt64}

/-- Rounding a word down gives the greatest multiple at or below it. -/
theorem alignDown_eq_ok_iff {down : UInt64} (hpower : alignment.toNat.isPowerOfTwo) :
    alignDown value alignment = .ok down ↔
      IsRoundedDown value.toNat alignment.toNat down.toNat := by
  obtain ⟨word, hword, hvalue⟩ := alignDown_eq_ok hpower value
  have hbound := isRoundedDown_sub_mod value.toNat alignment.toNat
  rw [← hvalue] at hbound
  rw [hword, Except.ok.injEq]
  constructor
  · rintro rfl
    exact hbound
  · intro hdown
    exact UInt64.toNat_inj.1 (hbound.unique hdown)

/-- Rounding a word up gives the least multiple at or behind it if that is a word, and overflows
otherwise. -/
theorem alignUp_eq_ensureWord {up : Nat} (hpower : alignment.toNat.isPowerOfTwo)
    (hup : IsRoundedUp value.toNat alignment.toNat up) :
    alignUp value alignment = ensureWord up := by
  have hpos := Nat.pos_of_isPowerOfTwo hpower
  have hround : alignUp value alignment =
      if value &&& (alignment - 1) == 0 then .ok value
      else addWords (value ||| (alignment - 1)) 1 := by
    rw [alignUp, alignMask_eq_ok hpower]
    rfl
  rw [hround, and_pred_beq_zero hpower]
  by_cases hrem : value.toNat % alignment.toNat = 0
  · obtain rfl := hup.unique (IsRoundedUp.of_dvd (Nat.dvd_of_mod_eq_zero hrem))
    rw [if_pos (decide_eq_true hrem)]
    exact (ensureWord_eq_ok_iff.2 rfl).symm
  · obtain rfl := hup.unique (IsRoundedUp.of_mod_ne_zero hpos hrem)
    have hone : (1 : UInt64).toNat = 1 := rfl
    rw [if_neg (mt of_decide_eq_true hrem), addWords, toNat_or_pred hpower, hone]
    congr 1
    omega

/-- Rounding a word up gives a word exactly if that is the least multiple at or behind it. -/
theorem alignUp_eq_ok_iff {up : UInt64} (hpower : alignment.toNat.isPowerOfTwo) :
    alignUp value alignment = .ok up ↔ IsRoundedUp value.toNat alignment.toNat up.toNat := by
  obtain ⟨least, hleast⟩ := IsRoundedUp.exists_of_pos value.toNat (Nat.pos_of_isPowerOfTwo hpower)
  rw [alignUp_eq_ensureWord hpower hleast, ensureWord_eq_ok_iff]
  constructor
  · rintro rfl
    exact hleast
  · intro hup
    exact hup.unique hleast

/-- A value that was rounded up is the next multiple of the alignment. -/
theorem alignUp_eq_ok {up : UInt64} (hup : alignUp value alignment = .ok up) :
    alignment.toNat ∣ up.toNat ∧ value.toNat ≤ up.toNat ∧
      up.toNat < value.toNat + alignment.toNat := by
  obtain ⟨mask, hmask, -⟩ := bind_eq_ok_iff.1 hup
  have hpower := isPowerOfTwo_of_alignMask hmask
  have hbound := (alignUp_eq_ok_iff hpower).1 hup
  exact ⟨hbound.1.1, hbound.1.2, hbound.lt_add (Nat.pos_of_isPowerOfTwo hpower)⟩

/-- Rounding up stays inside the address space where a whole alignment has room above the value. -/
theorem exists_alignUp (hpower : alignment.toNat.isPowerOfTwo)
    (hroom : value.toNat + alignment.toNat ≤ UInt64.size) :
    ∃ up, alignUp value alignment = .ok up := by
  have hpos := Nat.pos_of_isPowerOfTwo hpower
  obtain ⟨least, hleast⟩ := IsRoundedUp.exists_of_pos value.toNat hpos
  have hword : least < UInt64.size := Nat.lt_of_lt_of_le (hleast.lt_add hpos) hroom
  exact ⟨_, (alignUp_eq_ensureWord hpower hleast).trans (if_pos hword)⟩

end

/-- The alignment helpers on every value.  To a power of two they compute the exact bounds, rounding
up overflows exactly if the upper bound is no word, and a value is aligned exactly if the alignment
divides it, which is where rounding either way leaves it alone.  Any other alignment is refused. -/
theorem masks_give_exact_bounds (value alignment : UInt64) :
    (alignment.toNat.isPowerOfTwo →
      (∃ down, alignDown value alignment = .ok down ∧
        IsRoundedDown value.toNat alignment.toNat down.toNat) ∧
      (∃ up, IsRoundedUp value.toNat alignment.toNat up ∧
        alignUp value alignment =
          if up < 2 ^ 64 then .ok (UInt64.ofNat up) else .error .overflow) ∧
      isAligned value alignment = .ok (decide (alignment.toNat ∣ value.toNat)) ∧
      (alignment.toNat ∣ value.toNat ↔ alignDown value alignment = .ok value) ∧
      (alignment.toNat ∣ value.toNat ↔ alignUp value alignment = .ok value)) ∧
    (¬ alignment.toNat.isPowerOfTwo →
      alignDown value alignment = .error badAlignment ∧
      alignUp value alignment = .error badAlignment ∧
      isAligned value alignment = .error badAlignment) := by
  constructor
  · intro hpower
    obtain ⟨down, hdown, -⟩ := alignDown_eq_ok hpower value
    obtain ⟨up, hup⟩ := IsRoundedUp.exists_of_pos value.toNat (Nat.pos_of_isPowerOfTwo hpower)
    refine ⟨⟨down, hdown, (alignDown_eq_ok_iff hpower).1 hdown⟩, ⟨up, hup, ?_⟩, ?_, ?_, ?_⟩
    · exact alignUp_eq_ensureWord hpower hup
    · rw [isAligned_eq_ok hpower, Except.ok.injEq, decide_eq_decide]
      exact Nat.dvd_iff_mod_eq_zero.symm
    · rw [alignDown_eq_ok_iff hpower, isRoundedDown_self_iff]
    · rw [alignUp_eq_ok_iff hpower, isRoundedUp_self_iff]
  · intro hother
    simp only [alignDown, alignUp, isAligned, alignMask_eq_error hother]
    exact ⟨rfl, rfl, rfl⟩

/-- Seven bytes below the top of the address space the lower bound to sixteen is a word and the
upper one is not; nine addresses lower the value is both, and to forty-eight there is no
rounding. -/
theorem exact_bounds_below_the_top :
    alignDown 0xfffffffffffffff9 16 = .ok 0xfffffffffffffff0 ∧
      alignUp 0xfffffffffffffff9 16 = .error .overflow ∧
      isAligned 0xfffffffffffffff9 16 = .ok false ∧
      alignUp 0xfffffffffffffff0 16 = .ok 0xfffffffffffffff0 ∧
      alignUp 0xfffffffffffffff9 48 = .error badAlignment := by
  have hpower : (16 : UInt64).toNat.isPowerOfTwo := ⟨4, rfl⟩
  have hother : ¬ (48 : UInt64).toNat.isPowerOfTwo := by
    rw [← isPowerOfTwo_iff]
    decide
  obtain ⟨⟨down, hdown, hbelow⟩, ⟨up, habove, hup⟩, haligned, -, -⟩ :=
    (masks_give_exact_bounds 0xfffffffffffffff9 16).1 hpower
  obtain ⟨-, -, -, -, hkeeps⟩ := (masks_give_exact_bounds 0xfffffffffffffff0 16).1 hpower
  obtain ⟨-, hrefused, -⟩ := (masks_give_exact_bounds 0xfffffffffffffff9 48).2 hother
  have hlower : down = 0xfffffffffffffff0 :=
    UInt64.toNat_inj.1 (hbelow.unique (isRoundedDown_sub_mod _ _))
  have hupper : up = 2 ^ 64 := 
    habove.unique (IsRoundedUp.of_mod_ne_zero (by decide) (by decide))
  subst hlower hupper
  exact ⟨hdown, hup, haligned, hkeeps.1 (by decide), hrefused⟩

end DriverHost
