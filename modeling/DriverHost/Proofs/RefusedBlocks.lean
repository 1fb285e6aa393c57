import DriverHost.Proofs.AllocationRuns
import DriverHost.Proofs.Rounding

/-!
# Refused blocks

A block begins at the least aligned address at or behind the cursor and has to end inside the range.
An allocator refuses a block for which that is not so, and stays as it was.  It checks the end of
the block for overflow but not its beginning: where rounding the cursor up already leaves the
address space, no answer is given and the system stops.

Main results:

- Definition `Bump.answer`: the block an allocator owes for a layout, or why there is none.
- Theorem `Bump.allocate_eq`: it gives that answer, or stops with an overflow.
- Theorem `Bump.refuses_unless_rounding_overflows`: exactly when the answer is given.
-/

namespace DriverHost

/-! ## Answers -/

namespace Bump

variable {pool : Bump} {layout : Layout} {first : Nat}

/-- What an allocator owes for a layout when `first` is the least aligned address at or behind its
cursor: the block that begins there if it has a non-zero address and ends inside the range, and
otherwise the reason that the range is too small. -/
def answer (pool : Bump) (layout : Layout) (first : Nat) : Except AllocError (UInt64 × Bump) :=
  if first ≠ 0 ∧ first + layout.size.toNat ≤ pool.stop.toNat then
    .ok (UInt64.ofNat first, { pool with next := UInt64.ofNat (first + layout.size.toNat) })
  else .error (.exhausted pool.name layout.size pool.remaining)

/-- The checks on a block whose first address is a word are exact. -/
theorem refused_iff (start size stop : UInt64) :
    (start + size < start ∨ stop < start + size ∨ start = 0) ↔
      ¬ (start.toNat ≠ 0 ∧ start.toNat + size.toNat ≤ stop.toNat) := by
  have hstart := start.toNat_lt
  have hsize := size.toNat_lt
  have hstop := stop.toNat_lt
  simp only [UInt64.lt_iff_toNat_lt, UInt64.toNat_add, ← UInt64.toNat_inj, UInt64.toNat_zero]
  omega

/-- An allocator gives the answer that it owes if the first aligned address is a word, and stops
with an overflow otherwise. -/
theorem allocate_eq (hpower : layout.alignment.toNat.isPowerOfTwo)
    (hfirst : IsRoundedUp pool.next.toNat layout.alignment.toNat first) :
    pool.allocate layout =
      if first < 2 ^ 64 then .ok (pool.answer layout first) else .error .overflow := by
  have hround := alignUp_eq_ensureWord hpower hfirst
  have hsize : UInt64.size = 2 ^ 64 := rfl
  rw [ensureWord, hsize] at hround
  unfold allocate
  rw [hround]
  by_cases hword : first < 2 ^ 64
  · have hstart : (UInt64.ofNat first).toNat = first := UInt64.toNat_ofNat_of_lt' hword
    have hend : UInt64.ofNat first + layout.size = UInt64.ofNat (first + layout.size.toNat) := by
      rw [UInt64.ofNat_add, UInt64.ofNat_toNat]
    have hrefused := refused_iff (UInt64.ofNat first) layout.size pool.stop
    rw [hstart] at hrefused
    rw [if_pos hword, if_pos hword, answer]
    change (if UInt64.ofNat first + layout.size < UInt64.ofNat first ∨
        pool.stop < UInt64.ofNat first + layout.size ∨ UInt64.ofNat first = 0 then
          Except.ok (Except.error _)
        else Except.ok (Except.ok (UInt64.ofNat first, _))) = _
    by_cases hfits : first ≠ 0 ∧ first + layout.size.toNat ≤ pool.stop.toNat
    · rw [if_neg (fun hnot => hrefused.1 hnot hfits), if_pos hfits, hend]
    · rw [if_pos (hrefused.2 hfits), if_neg hfits]
  · rw [if_neg hword, if_neg hword]
    rfl

/-- The storage behind an answer: with the cursor behind the new block, or as it was. -/
def settle (storage : Storage) : Except AllocError (UInt64 × Bump) → Storage
  | .ok (_, pool) => { storage with pool }
  | .error _ => storage

/-- Serving a request for a layout takes its answer over. -/
theorem serve_eq (memory : Memory)
    (hvalid : pool.layout layout.size layout.alignment = .ok layout) :
    BlockRequest.serve ⟨layout.size, layout.alignment, false⟩ ⟨pool, memory⟩ =
      match pool.allocate layout with
      | .ok owed => .ok (owed.map Prod.fst) (settle ⟨pool, memory⟩ owed)
      | .error cause => .error cause ⟨pool, memory⟩ := by
  simp only [BlockRequest.serve, hvalid]
  rcases pool.allocate layout with cause | e | block <;> rfl

/-- An allocator in any state gives the answer that it owes exactly if the least aligned address at
or behind its cursor lies inside the address space.  The only other place for it is right behind the
top: there the allocator owes a refusal and stops with an overflow.  A refusal leaves it as it
was. -/
theorem refuses_unless_rounding_overflows (pool : Bump) (layout : Layout) {first : Nat}
    (hpower : layout.alignment.toNat.isPowerOfTwo)
    (hfirst : IsRoundedUp pool.next.toNat layout.alignment.toNat first) :
    (pool.allocate layout = .ok (pool.answer layout first) ↔ first < 2 ^ 64) ∧
      (pool.allocate layout = .error .overflow ↔ first = 2 ^ 64) ∧
      (first = 2 ^ 64 → pool.answer layout first =
        .error (.exhausted pool.name layout.size pool.remaining)) ∧
      (pool.layout layout.size layout.alignment = .ok layout → ∀ memory,
        BlockRequest.serve ⟨layout.size, layout.alignment, false⟩ ⟨pool, memory⟩ =
          if first < 2 ^ 64 then
            .ok ((pool.answer layout first).map Prod.fst)
              (settle ⟨pool, memory⟩ (pool.answer layout first))
          else .error .overflow ⟨pool, memory⟩) := by
  have hle := hfirst.le_size hpower
  have hallocate := allocate_eq hpower hfirst
  refine ⟨?_, ?_, ?_, fun hvalid memory => ?_⟩
  · rw [hallocate]
    split <;> simp_all
  · rw [hallocate]
    split
    · next hword => exact iff_of_false (by simp) (Nat.ne_of_lt hword)
    · next hpast => exact iff_of_true rfl (Nat.le_antisymm hle (Nat.le_of_not_lt hpast))
  · intro htop
    have hstop := pool.stop.toNat_lt
    refine if_neg ?_
    omega
  · rw [serve_eq memory hvalid, hallocate]
    by_cases hword : first < 2 ^ 64
    · rw [if_pos hword, if_pos hword]
    · rw [if_neg hword, if_neg hword]

/-- Seven bytes are left below the top of the address space, and a byte aligned to sixteen is not to
be had there: the allocator owes a refusal and stops.  Eight addresses lower it hands out a block of
fifteen bytes and refuses one of sixteen, whose end is no longer a word. -/
theorem refusal_missed_at_the_top :
    allocate ⟨0xfffffffffffffff8, 0xffffffffffffffff, "top"⟩ ⟨1, 16⟩ = .error .overflow ∧
      answer ⟨0xfffffffffffffff8, 0xffffffffffffffff, "top"⟩ ⟨1, 16⟩ (2 ^ 64) =
        .error (.exhausted "top" 1 7) ∧
      allocate ⟨0xfffffffffffffff0, 0xffffffffffffffff, "top"⟩ ⟨16, 16⟩ =
        .ok (.error (.exhausted "top" 16 15)) ∧
      BlockRequest.serve ⟨15, 16, false⟩
          ⟨⟨0xfffffffffffffff0, 0xffffffffffffffff, "top"⟩, .zeroed⟩ =
        .ok (.ok 0xfffffffffffffff0)
          ⟨⟨0xffffffffffffffff, 0xffffffffffffffff, "top"⟩, .zeroed⟩ := by
  have hpower : (16 : UInt64).toNat.isPowerOfTwo := ⟨4, rfl⟩
  have hpast : IsRoundedUp (0xfffffffffffffff8 : UInt64).toNat (16 : UInt64).toNat (2 ^ 64) :=
    .of_mod_ne_zero (by decide) (by decide)
  have hlast : IsRoundedUp (0xfffffffffffffff0 : UInt64).toNat (16 : UInt64).toNat (2 ^ 64 - 16) :=
    .of_dvd (by decide)
  obtain ⟨-, hstops, howes, -⟩ := refuses_unless_rounding_overflows
    ⟨0xfffffffffffffff8, 0xffffffffffffffff, "top"⟩ ⟨1, 16⟩ hpower hpast
  obtain ⟨hrefuses, -, -, -⟩ := refuses_unless_rounding_overflows
    ⟨0xfffffffffffffff0, 0xffffffffffffffff, "top"⟩ ⟨16, 16⟩ hpower hlast
  obtain ⟨-, -, -, hserves⟩ := refuses_unless_rounding_overflows
    ⟨0xfffffffffffffff0, 0xffffffffffffffff, "top"⟩ ⟨15, 16⟩ hpower hlast
  exact ⟨hstops.2 rfl, howes rfl, hrefuses.2 (by decide), hserves rfl .zeroed⟩

end Bump

end DriverHost
