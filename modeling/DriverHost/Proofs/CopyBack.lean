import DriverHost.PageList
import DriverHost.Proofs.Masks
import DriverHost.Proofs.MemoryBlocks

/-!
# Copying partial lines back

The beginning of a misaligned buffer up to the first line boundary is copied from the first
line of a fragment, and what follows the last boundary that the transfer reached from the
second line.  This module reads the masks that measure the two parts as remainders, and says of
every byte behind the beginning of the buffer where it comes from.

Main results:

- Theorem `PageList.headBytes_add_tailBytes_le`: the two parts do not overlap.
- Theorem `PageList.copyFragment_eq_ok`: a copy whose parts end inside the address space is two
  copies of blocks.
- Theorem `PageList.byte_delivered`: where each byte comes from.
- Theorem `PageList.holds_delivered`: a transfer that was received in three parts is put together.
-/

namespace DriverHost

namespace PageList

/-! ## The two parts -/

/-- Bytes from an offset up to the next multiple of a line, none if it is one. -/
def headBytes (offset line : Nat) : Nat :=
  (line - offset % line) % line

/-- Bytes behind the last multiple of a line that a number of bytes from an offset reaches. -/
def tailBytes (offset actual line : Nat) : Nat :=
  (offset + actual) % line

section Parts

variable {offset actual line : Nat}

/-- The part in front of the first whole line is shorter than a line. -/
theorem headBytes_lt (hline : 0 < line) : headBytes offset line < line :=
  Nat.mod_lt _ hline

/-- The part behind the last whole line is shorter than a line. -/
theorem tailBytes_lt (hline : 0 < line) : tailBytes offset actual line < line :=
  Nat.mod_lt _ hline

/-- The beginning ends on a line boundary. -/
theorem dvd_add_headBytes (hline : 0 < line) : line ∣ offset + headBytes offset line := by
  have hrem : offset % line < line := Nat.mod_lt _ hline
  have hsplit : line * (offset / line) + offset % line = offset := Nat.div_add_mod offset line
  by_cases haligned : offset % line = 0
  · have hhead : headBytes offset line = 0 := by
      rw [headBytes, haligned, Nat.sub_zero, Nat.mod_self]
    rw [hhead, Nat.add_zero]
    exact Nat.dvd_of_mod_eq_zero haligned
  · have hhead : headBytes offset line = line - offset % line := Nat.mod_eq_of_lt (by omega)
    have hnext : offset + headBytes offset line = line * (offset / line) + line := by
      omega
    rw [hnext]
    exact Nat.dvd_add (Nat.dvd_mul_right _ _) (Nat.dvd_refl _)

/-- The two parts of a transfer that passes its first line boundary do not overlap. -/
theorem headBytes_add_tailBytes_le (hline : 0 < line) (hreach : headBytes offset line < actual) :
    headBytes offset line + tailBytes offset actual line ≤ actual := by
  have hdvd : line ∣ offset + headBytes offset line := dvd_add_headBytes hline
  obtain ⟨boundary, hboundary⟩ := hdvd
  have hend : offset + actual =
      actual - headBytes offset line + line * boundary := by omega
  have htail : tailBytes offset actual line ≤ actual - headBytes offset line := by
    rw [tailBytes, hend, Nat.add_mul_mod_self_left]
    exact Nat.mod_le _ _
  omega

end Parts

theorem toNat_min (first second : UInt64) :
    (min first second).toNat = min first.toNat second.toNat := by
  have hword : min first second = if first ≤ second then first else second := rfl
  rw [hword, Nat.min_def]
  by_cases hle : first ≤ second
  · rw [if_pos hle, if_pos (UInt64.le_iff_toNat_le.1 hle)]
  · rw [if_neg hle, if_neg (fun h => hle (UInt64.le_iff_toNat_le.2 h))]

/-- The first copy is as long as the part of the buffer in front of its first whole line. -/
theorem toNat_headLength {line : UInt64} (hpower : line.toNat.isPowerOfTwo) (offset : UInt64) :
    (headLength offset line).toNat = headBytes offset.toNat line.toNat := by
  have hrem := toNat_and_pred hpower offset
  have hle : offset &&& (line - 1) ≤ line := by
    rw [UInt64.le_iff_toNat_le, hrem]
    exact Nat.le_of_lt (Nat.mod_lt _ (Nat.pos_of_isPowerOfTwo hpower))
  rw [headLength, toNat_and_pred hpower, UInt64.toNat_sub_of_le _ _ hle, hrem, headBytes]

/-- The second copy is as long as the part behind the last whole line of what was received, if the
buffer's end can be computed at all. -/
theorem toNat_tailLength {line offset actual : UInt64} (hpower : line.toNat.isPowerOfTwo)
    (hfits : offset.toNat + actual.toNat < 2 ^ 64) :
    (tailLength offset actual line).toNat = tailBytes offset.toNat actual.toNat line.toNat := by
  rw [tailLength, toNat_and_pred hpower, UInt64.toNat_add, Nat.mod_eq_of_lt hfits, tailBytes]

/-! ## The copies -/

/-- Memory after the beginning of a transfer was copied from the first line of a fragment and
its end from the second. -/
def delivered (memory : Memory) (fragment buffer : UInt64) (offset line actual : Nat) : Memory :=
  let begun := memory.copy fragment buffer (min (headBytes offset line) actual)
  if headBytes offset line < actual then
    begun.copy (Memory.addressAt fragment line)
      (Memory.addressAt buffer (actual - tailBytes offset actual line))
      (tailBytes offset actual line)
  else begun

/-- The end of a transfer goes to where its last line boundary lies in the buffer. -/
theorem tailTarget_eq_ok {offset buffer actual line : UInt64} (hpower : line.toNat.isPowerOfTwo)
    (hoffset : offset.toNat ≤ buffer.toNat) (hfits : offset.toNat + actual.toNat < 2 ^ 64)
    (hreach : headBytes offset.toNat line.toNat < actual.toNat)
    (hroom : buffer.toNat + actual.toNat - tailBytes offset.toNat actual.toNat line.toNat <
      2 ^ 64) :
    ∃ down, alignDown (offset + actual) line = .ok down ∧
      addWords (buffer - offset) down = .ok (Memory.addressAt buffer
        (actual.toNat - tailBytes offset.toNat actual.toNat line.toNat)) := by
  have hends := headBytes_add_tailBytes_le (Nat.pos_of_isPowerOfTwo hpower) hreach
  have hpage := UInt64.toNat_sub_of_le _ _ (UInt64.le_iff_toNat_le.2 hoffset)
  obtain ⟨down, hdown, hvalue⟩ := alignDown_eq_ok hpower (offset + actual)
  refine ⟨down, hdown, ?_⟩
  rw [UInt64.toNat_add, Nat.mod_eq_of_lt hfits] at hvalue
  rw [addWords, ensureWord_eq_ok_iff, Memory.toNat_addressAt (by omega), hpage, hvalue]
  rw [tailBytes] at hends hroom ⊢
  omega

/-- A copy out of a fragment whose end stays below the top of the address space is two copies of
blocks. -/
theorem copyFragment_eq_ok {list : PageList} {index : Nat} {actual line fragment : UInt64}
    {state : TransferState} (hline : state.fragments.cacheLine = line)
    (hpower : line.toNat.isPowerOfTwo)
    (haddress : state.fragments.address (UInt64.ofNat index) = .ok fragment)
    (hoffset : list.offset.toNat ≤ list.buffer.toNat)
    (hfits : list.offset.toNat + actual.toNat < 2 ^ 64)
    (hroom : headBytes list.offset.toNat line.toNat < actual.toNat →
      tailBytes list.offset.toNat actual.toNat line.toNat ≠ 0 →
      list.buffer.toNat + actual.toNat -
        tailBytes list.offset.toNat actual.toNat line.toNat < 2 ^ 64) :
    copyFragment list index actual state =
      .ok (delivered state.memory fragment list.buffer list.offset.toNat line.toNat
        actual.toNat) := by
  have hhead := toNat_headLength hpower list.offset
  have htail := toNat_tailLength hpower hfits
  -- A part of no bytes is left out of the code, and copying no bytes changes nothing.
  have hbegun : (if headLength list.offset line = 0 then state.memory
      else state.memory.copy fragment list.buffer
        (min (headLength list.offset line) actual).toNat) =
      state.memory.copy fragment list.buffer
        (min (headBytes list.offset.toNat line.toNat) actual.toNat) := by
    by_cases hnone : headLength list.offset line = 0
    · rw [if_pos hnone, ← hhead, hnone, UInt64.toNat_zero, Nat.zero_min, Memory.copy_zero]
    · rw [if_neg hnone, toNat_min, hhead]
  have hreach : headLength list.offset line < actual ↔
      headBytes list.offset.toNat line.toNat < actual.toNat := by
    rw [UInt64.lt_iff_toNat_lt, hhead]
  have hzero : tailLength list.offset actual line = 0 ↔
      tailBytes list.offset.toNat actual.toNat line.toNat = 0 := by
    rw [← UInt64.toNat_inj, htail, UInt64.toNat_zero]
  have hsecond : fragment + line = Memory.addressAt fragment line.toNat := by
    rw [Memory.addressAt, UInt64.ofNat_toNat]
  simp only [copyFragment, hline, bind, Except.bind, pure, Except.pure]
  rw [haddress]
  simp only [hbegun, delivered]
  by_cases hpasses : headBytes list.offset.toNat line.toNat < actual.toNat
  · rw [if_pos hpasses]
    by_cases hnone : tailBytes list.offset.toNat actual.toNat line.toNat = 0
    · rw [if_neg (fun hboth => hboth.2 (hzero.2 hnone)), hnone, Memory.copy_zero]
    · rw [if_pos ⟨hreach.2 hpasses, fun hnot => hnone (hzero.1 hnot)⟩]
      obtain ⟨down, hdown, htarget⟩ :=
        tailTarget_eq_ok hpower hoffset hfits hpasses (hroom hpasses hnone)
      simp only [hdown, htarget, htail, hsecond]
  · rw [if_neg hpasses, if_neg (fun hboth => hpasses (hreach.1 hboth.1))]

/-- Each byte behind the beginning of the buffer comes from the fragment's second line if it lies
in the end of the transfer, from its first line if it lies in the beginning, and stays as it was
otherwise. -/
theorem byte_delivered (memory : Memory) {fragment buffer : UInt64} {offset line actual place : Nat}
    (hline : 0 < line) (hsize : 2 * line ≤ 2 ^ 64)
    (hapart : Memory.Apart fragment (2 * line) buffer (min (headBytes offset line) actual))
    (hactual : actual < 2 ^ 64) (hplace : place < 2 ^ 64) :
    (delivered memory fragment buffer offset line actual).byte (Memory.addressAt buffer place) =
      if headBytes offset line < actual ∧ actual - tailBytes offset actual line ≤ place ∧
          place < actual then
        memory.byte (Memory.addressAt fragment
          (line + (place - (actual - tailBytes offset actual line))))
      else if place < min (headBytes offset line) actual then
        memory.byte (Memory.addressAt fragment place)
      else memory.byte (Memory.addressAt buffer place) := by
  have hbegun : (memory.copy fragment buffer (min (headBytes offset line) actual)).byte
      (Memory.addressAt buffer place) =
      if place < min (headBytes offset line) actual then
        memory.byte (Memory.addressAt fragment place)
      else memory.byte (Memory.addressAt buffer place) := by
    rw [Memory.byte_copy, Memory.toNat_addressAt_sub buffer hplace]
  rw [delivered]
  by_cases hpasses : headBytes offset line < actual
  · have hends := headBytes_add_tailBytes_le hline hpasses
    have hshort : tailBytes offset actual line < line := tailBytes_lt hline
    rw [if_pos hpasses, Memory.byte_copy_at _ _ _ (by omega) hplace]
    by_cases hend : actual - tailBytes offset actual line ≤ place ∧ place < actual
    · rw [if_pos (by omega), if_pos ⟨hpasses, hend⟩, Memory.addressAt_addressAt]
      -- The second line of the fragment is out of reach of the first copy.
      have houtside : ¬ (Memory.addressAt fragment
          (line + (place - (actual - tailBytes offset actual line))) - buffer).toNat <
            min (headBytes offset line) actual := by
        apply hapart
        rw [Memory.toNat_addressAt_sub fragment (by omega)]
        omega
      rw [Memory.byte_copy, if_neg houtside]
    · rw [if_neg (by omega), if_neg (fun hall => hend hall.2)]
      exact hbegun
  · rw [if_neg hpasses, if_neg (fun hall => hpasses hall.1)]
    exact hbegun

/-! ## How far the copies reach -/

/-- A transfer reports more bytes than its buffer has, and one of the two copies reaches past
the end of the buffer. -/
def Overruns (length offset line actual : Nat) : Prop :=
  length < min (headBytes offset line) actual ∨
    length < actual ∧ headBytes offset line < actual ∧ tailBytes offset actual line ≠ 0

/-- A device that reports at most the bytes asked for cannot make the copies leave the buffer. -/
theorem not_overruns_of_le {length offset line actual : Nat} (hle : actual ≤ length) :
    ¬ Overruns length offset line actual := by
  rintro (hhead | ⟨htail, -⟩)
  · omega
  · omega

/-- Copies that do not overrun leave what follows the buffer alone. -/
theorem byte_delivered_of_not_overruns (memory : Memory) {fragment buffer : UInt64}
    {length offset line actual place : Nat} (hline : 0 < line) (hsize : 2 * line ≤ 2 ^ 64)
    (hapart : Memory.Apart fragment (2 * line) buffer length) (hactual : actual < 2 ^ 64)
    (hstays : ¬ Overruns length offset line actual) (hplace : place < 2 ^ 64)
    (houtside : length ≤ place) :
    (delivered memory fragment buffer offset line actual).byte (Memory.addressAt buffer place) =
      memory.byte (Memory.addressAt buffer place) := by
  rw [Overruns] at hstays
  have hhead : min (headBytes offset line) actual ≤ length := by omega
  rw [byte_delivered memory hline hsize (hapart.mono hhead) hactual hplace]
  rw [if_neg (by omega), if_neg (by omega)]

/-- Copies that overrun put a byte of the fragment behind the end of the buffer. -/
theorem exists_byte_delivered_of_overruns (memory : Memory) {fragment buffer : UInt64}
    {length offset line actual : Nat} (hline : 0 < line) (hsize : 2 * line ≤ 2 ^ 64)
    (hapart : Memory.Apart fragment (2 * line) buffer actual) (hactual : actual < 2 ^ 64)
    (hoverruns : Overruns length offset line actual) :
    ∃ place source, length ≤ place ∧ place < actual ∧ source < 2 * line ∧
      (delivered memory fragment buffer offset line actual).byte
        (Memory.addressAt buffer place) = memory.byte (Memory.addressAt fragment source) := by
  have hhead : headBytes offset line < line := headBytes_lt hline
  have htail : tailBytes offset actual line < line := tailBytes_lt hline
  have hlast : ∃ place, length ≤ place ∧ place < actual ∧
      (place < min (headBytes offset line) actual ∨
        headBytes offset line < actual ∧ actual - tailBytes offset actual line ≤ place) := by
    rcases hoverruns with hhead | ⟨hlonger, hpasses, hpartial⟩
    · exact ⟨length, by omega, by omega, Or.inl hhead⟩
    · exact ⟨actual - 1, by omega, by omega, Or.inr ⟨hpasses, by omega⟩⟩
  obtain ⟨place, houtside, hplace, hwritten⟩ := hlast
  have hreach : Memory.Apart fragment (2 * line) buffer (min (headBytes offset line) actual) :=
    hapart.mono (Nat.min_le_right _ _)
  have hbyte := byte_delivered memory hline hsize hreach hactual (Nat.lt_trans hplace hactual)
  by_cases hend : headBytes offset line < actual ∧ actual - tailBytes offset actual line ≤ place
  · rw [if_pos ⟨hend.1, hend.2, hplace⟩] at hbyte
    exact ⟨place, _, houtside, hplace, by omega, hbyte⟩
  · rw [if_neg (fun hall => hend ⟨hall.1, hall.2.1⟩), if_pos (by omega)] at hbyte
    exact ⟨place, place, houtside, hplace, by omega, hbyte⟩

/-! ## What is received -/

/-- The bytes of a transfer as the device leaves them: the beginning in the first line of the
fragment, the end in the second line, and the lines in between in the buffer. -/
structure Received (memory : Memory) (fragment buffer : UInt64) (offset line : Nat)
    (content : List UInt8) : Prop where
  first : memory.Holds fragment (content.take (headBytes offset line))
  between : memory.Holds (Memory.addressAt buffer (headBytes offset line))
    ((content.take (content.length - tailBytes offset content.length line)).drop
      (headBytes offset line))
  second : headBytes offset line < content.length →
    memory.Holds (Memory.addressAt fragment line)
      (content.drop (content.length - tailBytes offset content.length line))

/-- A transfer that was received in parts is put together in the buffer. -/
theorem holds_delivered {memory : Memory} {fragment buffer : UInt64} {offset line : Nat}
    {content : List UInt8} (hline : 0 < line) (hsize : 2 * line ≤ 2 ^ 64)
    (hlength : content.length < 2 ^ 64)
    (hapart : Memory.Apart fragment (2 * line) buffer content.length)
    (hreceived : Received memory fragment buffer offset line content) :
    (delivered memory fragment buffer offset line content.length).Holds buffer content := by
  rw [Memory.holds_iff]
  intro place hplace
  rw [byte_delivered memory hline hsize (hapart.mono (Nat.min_le_right _ _)) hlength (by omega)]
  have hfirst : place < headBytes offset line →
      some (memory.byte (Memory.addressAt fragment place)) = content[place]? := by
    intro hbefore
    have hbyte := Memory.holds_iff.1 hreceived.first place (by rw [List.length_take]; omega)
    rwa [List.getElem?_take_of_lt hbefore] at hbyte
  by_cases hpasses : headBytes offset line < content.length
  · have hends := headBytes_add_tailBytes_le hline hpasses
    by_cases hend : content.length - tailBytes offset content.length line ≤ place
    · rw [if_pos ⟨hpasses, hend, hplace⟩]
      have hbyte := Memory.holds_iff.1 (hreceived.second hpasses)
        (place - (content.length - tailBytes offset content.length line))
        (by rw [List.length_drop]; omega)
      rwa [Memory.addressAt_addressAt, List.getElem?_drop, Nat.add_sub_cancel' hend] at hbyte
    · rw [if_neg (fun hall => hend hall.2.1)]
      by_cases hbefore : place < headBytes offset line
      · rw [if_pos (by omega)]
        exact hfirst hbefore
      · rw [if_neg (by omega)]
        have hbyte := Memory.holds_iff.1 hreceived.between (place - headBytes offset line)
          (by rw [List.length_drop, List.length_take]; omega)
        rwa [Memory.addressAt_addressAt, List.getElem?_drop, Nat.add_sub_cancel' (by omega),
          List.getElem?_take_of_lt (by omega)] at hbyte
  · rw [if_neg (fun hall => hpasses hall.1), if_pos (by omega)]
    exact hfirst (by omega)

end PageList

end DriverHost
