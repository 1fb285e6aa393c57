import DriverHost.Proofs.CutMessages

/-!
# Messages as bytes

A message buffer is a block of bytes, the first of which are text.  A piece that does not fit is cut
behind the last byte that does, or in front of it where that would part a character: the cut goes
back over the bytes that continue a character to the one that begins it.  So the bytes are text
after every piece, and they are the text of a buffer that holds characters.

Main results:

- Theorem `isBoundary_iff`: a place between bytes that parts no character ends a run of whole
  leading characters.
- Theorem `backToBoundary_textBytes`: the way back ends behind the longest run that fits.
- Structure `ByteBuffer` with theorem `ByteBuffer.exists_writeAll`: no write meets a fault, and the
  bytes are those of the characters.
- Inductive relation `KeptOf`: what is kept of each piece.
- Theorem `MessageBuffer.holds_text_within_capacity`: what a message buffer holds.
-/

namespace DriverHost

/-! ## Bytes of characters -/

/-- The bytes of text. -/
def textBytes (text : List Char) : List UInt8 :=
  text.flatMap String.utf8EncodeChar

theorem textBytes_cons (c : Char) (rest : List Char) :
    textBytes (c :: rest) = String.utf8EncodeChar c ++ textBytes rest :=
  rfl

/-- The bytes of two texts follow one another. -/
theorem textBytes_append (first second : List Char) :
    textBytes (first ++ second) = textBytes first ++ textBytes second :=
  List.flatMap_append

/-- A text has as many bytes as its characters take. -/
theorem length_textBytes (text : List Char) : (textBytes text).length = byteLength text := by
  induction text with
  | nil => rfl
  | cons c rest ih =>
    rw [textBytes_cons, List.length_append, String.length_utf8EncodeChar, ih, byteLength]

/-- What leads a text leads it in bytes. -/
theorem textBytes_leads {lead text : List Char} (hleads : lead <+: text) :
    textBytes lead <+: textBytes text := by
  obtain ⟨rest, rfl⟩ := hleads
  rw [textBytes_append]
  exact List.prefix_append _ _

/-- The bytes of text spell it, and bytes that spell text are its bytes. -/
theorem textOfBytes?_eq_some_iff {bytes : List UInt8} {text : String} :
    textOfBytes? bytes = some text ↔ bytes = textBytes text.toList := by
  have hbytes : textBytes text.toList = text.toByteArray.data.toList := by
    rw [← String.utf8Encode_toList, List.utf8Encode, List.toList_data_toByteArray, textBytes]
  rw [hbytes, textOfBytes?, String.fromUTF8?]
  constructor
  · intro hspelled
    split at hspelled
    · cases hspelled
      rfl
    · cases hspelled
  · rintro rfl
    have hvalid : ByteArray.IsValidUTF8 ⟨text.toByteArray.data.toList.toArray⟩ := text.isValidUTF8
    rw [dif_pos hvalid]
    rfl

/-! ## Places between bytes -/

/-- A byte that goes on with a character which began in front of it. -/
def continues (byte : UInt8) : Bool :=
  0x80 ≤ byte && byte < 0xc0

/-- A place in front of the byte with an index, or behind the last one, that parts no character. -/
def isBoundary (bytes : List UInt8) (index : Nat) : Bool :=
  index == 0 ||
    match bytes[index]? with
    | some byte => !continues byte
    | none => index == bytes.length

/-- The last such place at an index or in front of it. -/
def backToBoundary (bytes : List UInt8) : Nat → Except Fault Nat
  | 0 => if isBoundary bytes 0 then .ok 0 else .error .overflow
  | index + 1 =>
      if isBoundary bytes (index + 1) then .ok (index + 1) else backToBoundary bytes index

/-- The bytes that go on with a character are those of the form 10xxxxxx. -/
theorem continues_ofNat (value : Nat) :
    continues (UInt8.ofNat value) = true ↔ 128 ≤ value % 256 ∧ value % 256 < 192 := by
  simp [continues, UInt8.le_iff_toNat_le, UInt8.lt_iff_toNat_lt]

/-- A character begins with a byte that continues none, and its other bytes continue it. -/
theorem exists_utf8EncodeChar (c : Char) :
    ∃ first rest, String.utf8EncodeChar c = first :: rest ∧ ¬ continues first = true ∧
      ∀ byte ∈ rest, continues byte = true := by
  have hlast : ∀ value, continues (UInt8.ofNat (value % 64 + 128)) = true := by
    intro value
    rw [continues_ofNat]
    omega
  have hfirst : ∀ value, (value % 256 < 128 ∨ 192 ≤ value % 256) →
      ¬ continues (UInt8.ofNat value) = true := by
    intro value hvalue
    rw [continues_ofNat]
    omega
  -- One case for each number of bytes that a character takes.
  unfold String.utf8EncodeChar
  simp only
  split_ifs with hone htwo hthree
  · exact ⟨_, [], rfl, hfirst _ (by omega), List.forall_mem_nil _⟩
  · exact ⟨_, _, rfl, hfirst _ (by omega), List.forall_mem_cons.2 ⟨hlast _, List.forall_mem_nil _⟩⟩
  · exact ⟨_, _, rfl, hfirst _ (by omega), List.forall_mem_cons.2 ⟨hlast _,
      List.forall_mem_cons.2 ⟨hlast _, List.forall_mem_nil _⟩⟩⟩
  · exact ⟨_, _, rfl, hfirst _ (by omega), List.forall_mem_cons.2 ⟨hlast _,
      List.forall_mem_cons.2 ⟨hlast _, List.forall_mem_cons.2 ⟨hlast _, List.forall_mem_nil _⟩⟩⟩⟩

/-- Text begins with a byte that continues no character. -/
theorem not_continues_head {text : List Char} {byte : UInt8}
    (hbyte : (textBytes text)[0]? = some byte) : ¬ continues byte = true := by
  cases text with
  | nil => cases hbyte
  | cons c rest =>
    obtain ⟨first, more, hchar, hfirst, -⟩ := exists_utf8EncodeChar c
    rw [textBytes_cons, hchar] at hbyte
    cases hbyte
    exact hfirst

/-- No place inside a character is a boundary. -/
theorem isBoundary_inside (c : Char) (rest : List Char) {index : Nat} (hpos : 0 < index)
    (hinside : index < c.utf8Size) : isBoundary (textBytes (c :: rest)) index = false := by
  obtain ⟨first, more, hchar, -, hmore⟩ := exists_utf8EncodeChar c
  have hlength := String.length_utf8EncodeChar c
  obtain ⟨before, rfl⟩ : ∃ before, index = before + 1 := Nat.exists_eq_succ_of_ne_zero (by omega)
  have hlt : before < more.length := by
    rw [hchar, List.length_cons] at hlength
    omega
  have hget : (textBytes (c :: rest))[before + 1]? = some more[before] := by
    rw [textBytes_cons, hchar, List.cons_append, List.getElem?_cons_succ,
      List.getElem?_append_left hlt, List.getElem?_eq_getElem hlt]
  simp [isBoundary, hget, hmore _ (List.getElem_mem hlt)]

/-- Behind a whole character, the boundaries are those of what follows it. -/
theorem isBoundary_behind (c : Char) (rest : List Char) (index : Nat) :
    isBoundary (textBytes (c :: rest)) (c.utf8Size + index) =
      isBoundary (textBytes rest) index := by
  have hlength := String.length_utf8EncodeChar c
  have hpos := c.utf8Size_pos
  have hget : (textBytes (c :: rest))[c.utf8Size + index]? = (textBytes rest)[index]? := by
    rw [textBytes_cons, List.getElem?_append_right (by omega), hlength, Nat.add_sub_cancel_left]
  have hend : (textBytes (c :: rest)).length = c.utf8Size + (textBytes rest).length := by
    rw [textBytes_cons, List.length_append, hlength]
  have hfirst : ¬ c.utf8Size + index = 0 := by omega
  unfold isBoundary
  rw [hget, hend]
  rw [Bool.eq_iff_iff]
  cases hbyte : (textBytes rest)[index]? with
  | none =>
    have hend := List.getElem?_eq_none_iff.1 hbyte
    simp only [Bool.or_eq_true, beq_iff_eq]
    omega
  | some byte =>
    cases index with
    | zero => simp [not_continues_head hbyte]
    | succ index => simp

/-- A place between the bytes of a text parts no character exactly if a run of whole leading
characters ends there. -/
theorem isBoundary_iff {text : List Char} {index : Nat} :
    isBoundary (textBytes text) index = true ↔
      ∃ lead, lead <+: text ∧ byteLength lead = index := by
  induction text generalizing index with
  | nil =>
    have hempty : isBoundary (textBytes []) index = true ↔ index = 0 := by
      simp [isBoundary, textBytes]
    rw [hempty]
    constructor
    · rintro rfl
      exact ⟨[], List.nil_prefix, rfl⟩
    · rintro ⟨lead, hlead, rfl⟩
      rw [List.prefix_nil.1 hlead, byteLength]
  | cons c rest ih =>
    rcases Nat.eq_zero_or_pos index with rfl | hpos
    · exact iff_of_true rfl ⟨[], List.nil_prefix, rfl⟩
    rcases Nat.lt_or_ge index c.utf8Size with hinside | hbehind
    · rw [isBoundary_inside c rest hpos hinside]
      refine iff_of_false (by simp) ?_
      rintro ⟨lead, hlead, rfl⟩
      cases lead with
      | nil => exact absurd hpos (Nat.lt_irrefl 0)
      | cons d more =>
        obtain ⟨rfl, -⟩ := List.cons_prefix_cons.1 hlead
        rw [byteLength] at hinside
        omega
    · obtain ⟨index, rfl⟩ := Nat.exists_eq_add_of_le hbehind
      rw [isBoundary_behind, ih]
      constructor
      · rintro ⟨lead, hlead, rfl⟩
        exact ⟨c :: lead, (List.prefix_cons_inj c).2 hlead, rfl⟩
      · rintro ⟨lead, hlead, hlength⟩
        cases lead with
        | nil =>
          rw [byteLength] at hlength
          omega
        | cons d more =>
          obtain ⟨rfl, hmore⟩ := List.cons_prefix_cons.1 hlead
          rw [byteLength] at hlength
          exact ⟨more, hmore, by omega⟩

/-! ## The way back to a boundary -/

/-- The way back ends at the first boundary it meets. -/
theorem backToBoundary_eq_ok {bytes : List UInt8} {last index : Nat}
    (hlast : isBoundary bytes last = true) (hle : last ≤ index)
    (hnone : ∀ between, last < between → between ≤ index → isBoundary bytes between = false) :
    backToBoundary bytes index = .ok last := by
  induction index with
  | zero =>
    obtain rfl := Nat.le_zero.1 hle
    rw [backToBoundary, if_pos hlast]
  | succ index ih =>
    rw [backToBoundary]
    rcases Nat.lt_or_eq_of_le hle with hearlier | rfl
    · rw [if_neg (by simp [hnone (index + 1) hearlier])]
      exact ih (Nat.le_of_lt_succ hearlier) fun between hpast hbetween =>
        hnone between hpast (Nat.le_succ_of_le hbetween)
    · rw [if_pos hlast]

/-- From the last byte that fits, the way back ends behind the longest run of whole leading
characters that does. -/
theorem backToBoundary_textBytes (room : Nat) (text : List Char) :
    backToBoundary (textBytes text) (min (textBytes text).length room) =
      .ok (byteLength (fitting room text)) := by
  have hleads := fitting_leads room text
  have hshort : byteLength (fitting room text) ≤ (textBytes text).length := by
    rw [← length_textBytes]
    exact (textBytes_leads hleads).length_le
  apply backToBoundary_eq_ok
  · exact isBoundary_iff.2 ⟨_, hleads, rfl⟩
  · exact Nat.le_min.2 ⟨hshort, byteLength_fitting_le room text⟩
  · intro between hpast hbetween
    by_contra hboundary
    rw [Bool.not_eq_false, isBoundary_iff] at hboundary
    obtain ⟨lead, hlead, rfl⟩ := hboundary
    obtain ⟨rest, hrest⟩ := leads_fitting hlead (Nat.le_trans hbetween (Nat.min_le_right _ _))
    rw [← hrest, byteLength_append] at hpast
    omega

/-! ## Blocks of bytes -/

/-- The difference of two lengths, an overflow if it is negative. -/
def lengthLeft (length taken : Nat) : Except Fault Nat :=
  if taken ≤ length then .ok (length - taken) else .error .overflow

/-- The first bytes of a block, an index past its end if it is shorter. -/
def firstBytes (bytes : List UInt8) (count : Nat) : Except Fault (List UInt8) :=
  if count ≤ bytes.length then .ok (bytes.take count) else .error .bounds

/-- A block with new bytes from an index on, an index past its end if they do not fit. -/
def overwrite (bytes : List UInt8) (start : Nat) (content : List UInt8) :
    Except Fault (List UInt8) :=
  if start + content.length ≤ bytes.length then
    .ok (bytes.take start ++ content ++ bytes.drop (start + content.length))
  else .error .bounds

theorem firstBytes_of_le {bytes : List UInt8} {count : Nat} (hle : count ≤ bytes.length) :
    firstBytes bytes count = .ok (bytes.take count) :=
  if_pos hle

/-- The first bytes of a block that begins with some content are that content. -/
theorem firstBytes_of_leads {bytes content : List UInt8} (hleads : content <+: bytes) :
    firstBytes bytes content.length = .ok content := by
  rw [firstBytes_of_le hleads.length_le, ← List.prefix_iff_eq_take.1 hleads]

/-- Writing over bytes of a block that has room succeeds, keeps its size and puts the new bytes
behind those in front of them. -/
theorem exists_overwrite {bytes content : List UInt8} {start : Nat}
    (hle : start + content.length ≤ bytes.length) :
    ∃ after, overwrite bytes start content = .ok after ∧ after.length = bytes.length ∧
      after.take (start + content.length) = bytes.take start ++ content := by
  refine ⟨_, if_pos hle, ?_, ?_⟩
  · simp only [List.length_append, List.length_take, List.length_drop]
    omega
  · have hfront : (bytes.take start ++ content).length = start + content.length := by
      rw [List.length_append, List.length_take]
      omega
    rw [List.take_append_of_le_length (Nat.le_of_eq hfront.symm), List.take_of_length_le]
    exact Nat.le_of_eq hfront

/-- A message buffer as a block of bytes, the first of which are in use. -/
structure ByteBuffer (capacity : Nat) where
  /-- The block. -/
  bytes : List UInt8 := List.replicate capacity 0
  /-- How many bytes are in use. -/
  length : Nat := 0
  /-- Something written did not fit. -/
  truncated : Bool := false
deriving DecidableEq

namespace ByteBuffer

variable {capacity : Nat}

/-- The text of the bytes in use, nothing if they spell none. -/
def text (buffer : ByteBuffer capacity) : Except Fault String := do
  let held ← firstBytes buffer.bytes buffer.length
  return (textOfBytes? held).getD ""

/-- Append the bytes of a piece up to the last boundary that fits the room that is left. -/
def write (buffer : ByteBuffer capacity) (piece : String) : Except Fault (ByteBuffer capacity) := do
  let source := textBytes piece.toList
  let room ← lengthLeft capacity buffer.length
  let taken ← backToBoundary source (min source.length room)
  let content ← firstBytes source taken
  let bytes ← overwrite buffer.bytes buffer.length content
  return { bytes, length := buffer.length + taken,
           truncated := buffer.truncated || taken < source.length }

/-- Append pieces one after the other. -/
def writeAll (buffer : ByteBuffer capacity) (pieces : List String) :
    Except Fault (ByteBuffer capacity) :=
  pieces.foldlM write buffer

/-- A block of bytes holds what a buffer of characters does. -/
structure Spells (raw : ByteBuffer capacity) (buffer : MessageBuffer capacity) : Prop where
  size : raw.bytes.length = capacity
  within : raw.length ≤ capacity
  length : raw.length = buffer.length
  inUse : raw.bytes.take raw.length = textBytes buffer.content
  truncated : raw.truncated = buffer.truncated

/-- A block of zero bytes of which none is used holds the empty text. -/
theorem spells_empty : Spells ({} : ByteBuffer capacity) {} where
  size := List.length_replicate
  within := Nat.zero_le _
  length := rfl
  inUse := rfl
  truncated := rfl

namespace Spells

variable {raw : ByteBuffer capacity} {buffer : MessageBuffer capacity}

/-- The bytes in use are always text, so nothing ever takes its place. -/
theorem text_eq (hspells : raw.Spells buffer) :
    textOfBytes? (raw.bytes.take raw.length) = some buffer.text ∧
      raw.text = .ok buffer.text := by
  have hspelled : textOfBytes? (raw.bytes.take raw.length) = some buffer.text := by
    rw [textOfBytes?_eq_some_iff, MessageBuffer.toList_text, hspells.inUse]
  refine ⟨hspelled, ?_⟩
  rw [text, firstBytes_of_le (by rw [hspells.size]; exact hspells.within)]
  change Except.ok ((textOfBytes? (raw.bytes.take raw.length)).getD "") = _
  rw [hspelled, Option.getD_some]

/-- A write meets no fault, and the bytes in use are again those of the characters. -/
theorem exists_write (hspells : raw.Spells buffer) (piece : String) :
    ∃ after, raw.write piece = .ok after ∧ after.Spells (buffer.write piece) := by
  obtain ⟨taken, htaken⟩ : ∃ taken, taken = fitting (capacity - buffer.length) piece.toList :=
    ⟨_, rfl⟩
  have hroom : raw.length ≤ capacity := hspells.within
  have hfits : byteLength taken ≤ capacity - buffer.length :=
    htaken ▸ byteLength_fitting_le _ _
  have hleads : taken <+: piece.toList := htaken ▸ fitting_leads _ _
  have hback : backToBoundary (textBytes piece.toList)
      (min (textBytes piece.toList).length (capacity - raw.length)) = .ok (byteLength taken) := by
    rw [hspells.length, backToBoundary_textBytes, htaken]
  have hfirst : firstBytes (textBytes piece.toList) (byteLength taken) = .ok (textBytes taken) := by
    rw [← length_textBytes]
    exact firstBytes_of_leads (textBytes_leads hleads)
  have hlength := hspells.length
  obtain ⟨bytes, hbytes, hsize, hinUse⟩ : ∃ bytes,
      overwrite raw.bytes raw.length (textBytes taken) = .ok bytes ∧
        bytes.length = raw.bytes.length ∧
        bytes.take (raw.length + (textBytes taken).length) =
          raw.bytes.take raw.length ++ textBytes taken := by
    apply exists_overwrite
    rw [length_textBytes, hspells.size]
    omega
  rw [length_textBytes] at hinUse
  refine ⟨⟨bytes, raw.length + byteLength taken,
    raw.truncated || byteLength taken < (textBytes piece.toList).length⟩, ?_, ?_⟩
  · refine bind_eq_ok_iff.2 ⟨_, if_pos hroom, ?_⟩
    refine bind_eq_ok_iff.2 ⟨_, hback, ?_⟩
    refine bind_eq_ok_iff.2 ⟨_, hfirst, ?_⟩
    exact bind_eq_ok_iff.2 ⟨_, hbytes, rfl⟩
  · have hcontent : (buffer.write piece).content = buffer.content ++ taken := by
      rw [MessageBuffer.content_write, htaken]
      rfl
    constructor
    case size => exact hsize.trans hspells.size
    case within =>
      simp only
      omega
    case length =>
      rw [MessageBuffer.length, hcontent, byteLength_append, ← MessageBuffer.length, hlength]
    case inUse => rw [hinUse, hspells.inUse, hcontent, textBytes_append]
    case truncated =>
      rw [hspells.truncated, length_textBytes, htaken]
      rfl

end Spells

/-- Writing pieces meets no fault, and the bytes in use are those of the characters. -/
theorem exists_writeAll {raw : ByteBuffer capacity} {buffer : MessageBuffer capacity}
    (hspells : raw.Spells buffer) (pieces : List String) :
    ∃ after, raw.writeAll pieces = .ok after ∧ after.Spells (buffer.writeAll pieces) := by
  induction pieces generalizing raw buffer with
  | nil => exact ⟨raw, rfl, hspells⟩
  | cons piece rest ih =>
    obtain ⟨next, hnext, hspelled⟩ := hspells.exists_write piece
    obtain ⟨after, hafter, hrest⟩ := ih hspelled
    refine ⟨after, ?_, hrest⟩
    rw [writeAll, List.foldlM_cons]
    exact bind_eq_ok_iff.2 ⟨next, hnext, hafter⟩

end ByteBuffer

/-! ## What is kept of a message -/

/-- What is kept of each piece of a message: the longest run of its leading characters within the
room that the pieces in front of it have left. -/
inductive KeptOf : Nat → List String → List (List Char) → Prop
  | nil {room : Nat} : KeptOf room [] []
  | cons {room : Nat} {piece : String} {pieces : List String} {kept : List Char}
      {more : List (List Char)} (hcut : IsCut room piece.toList kept)
      (hmore : KeptOf (room - byteLength kept) pieces more) :
      KeptOf room (piece :: pieces) (kept :: more)

namespace MessageBuffer

variable {capacity : Nat}

/-- Writing pieces adds what is kept of them. -/
theorem exists_keptOf (buffer : MessageBuffer capacity) (pieces : List String) :
    ∃ kept, KeptOf (capacity - buffer.length) pieces kept ∧
      (buffer.writeAll pieces).content = buffer.content ++ kept.flatten := by
  induction pieces generalizing buffer with
  | nil => exact ⟨[], .nil, (List.append_nil _).symm⟩
  | cons piece rest ih =>
    obtain ⟨more, hmore, hcontent⟩ := ih (buffer.write piece)
    refine ⟨fitting (capacity - buffer.length) piece.toList :: more,
      .cons (isCut_iff.2 rfl) ?_, ?_⟩
    · rw [length, content_write, byteLength_append, ← Nat.sub_sub] at hmore
      exact hmore
    · rw [List.flatten_cons, ← List.append_assoc]
      exact hcontent

/-- A buffer is marked as soon as it holds less than was written to it. -/
theorem truncated_writeAll (buffer : MessageBuffer capacity) (pieces : List String) :
    (buffer.writeAll pieces).length ≤ buffer.length + byteLength (wholeMessage pieces) ∧
      ((buffer.writeAll pieces).truncated = true ↔ buffer.truncated = true ∨
        (buffer.writeAll pieces).length < buffer.length + byteLength (wholeMessage pieces)) := by
  induction pieces generalizing buffer with
  | nil => simp [writeAll, wholeMessage, byteLength]
  | cons piece rest ih =>
    obtain ⟨hle, htruncated⟩ := ih (buffer.write piece)
    obtain ⟨more, hpiece⟩ := fitting_leads (capacity - buffer.length) piece.toList
    have hbytes := congrArg byteLength hpiece
    rw [byteLength_append] at hbytes
    have hlength : (buffer.write piece).length = buffer.length +
        byteLength (fitting (capacity - buffer.length) piece.toList) :=
      byteLength_append _ _
    have hmark : (buffer.write piece).truncated = true ↔ buffer.truncated = true ∨
        byteLength (fitting (capacity - buffer.length) piece.toList) < byteLength piece.toList := by
      simp [write]
    have hwritten : buffer.writeAll (piece :: rest) = (buffer.write piece).writeAll rest := rfl
    rw [hwritten, wholeMessage_cons, byteLength_append, htruncated, hmark, hlength]
    rw [hlength] at hle
    refine ⟨by omega, ?_⟩
    rw [or_assoc]
    refine or_congr_right ?_
    omega

end MessageBuffer

theorem utf8ByteSize_eq_byteLength (text : String) :
    text.utf8ByteSize = byteLength text.toList := by
  have hbytes : text.toByteArray.size = (textBytes text.toList).length := by
    rw [← String.utf8Encode_toList, List.utf8Encode, List.size_toByteArray, textBytes]
  rw [← String.size_toByteArray, hbytes, length_textBytes]

/-- Bytes of pieces together. -/
def totalBytes : List String → Nat
  | [] => 0
  | piece :: rest => piece.utf8ByteSize + totalBytes rest

/-- The sizes of the pieces add up to that of the whole message. -/
theorem totalBytes_eq_byteLength (pieces : List String) :
    totalBytes pieces = byteLength (wholeMessage pieces) := by
  induction pieces with
  | nil => rfl
  | cons piece rest ih =>
    rw [wholeMessage_cons, byteLength_append, totalBytes, ih, utf8ByteSize_eq_byteLength]

theorem byteLength_eq_zero_iff {text : List Char} : byteLength text = 0 ↔ text = [] := by
  cases text with
  | nil => simp [byteLength]
  | cons c rest =>
    have hpos := c.utf8Size_pos
    simp only [byteLength, reduceCtorEq, iff_false]
    omega

namespace MessageBuffer

variable {capacity : Nat}

/-- What a buffer holds after some pieces were written to it. -/
structure HoldsKept (pieces : List String) (kept : List (List Char))
    (buffer : MessageBuffer capacity) : Prop where
  /-- It never holds more than its capacity. -/
  within : buffer.length ≤ capacity
  /-- Its length is that of its text in bytes. -/
  size : buffer.text.utf8ByteSize = buffer.length
  /-- Of each piece it keeps the longest run of whole leading characters that fits. -/
  keptOf : KeptOf capacity pieces kept
  /-- Its text is what it keeps of the pieces, one after the other. -/
  text : buffer.text.toList = kept.flatten
  /-- It is marked exactly if it holds less than was written to it. -/
  truncated : buffer.truncated = true ↔ buffer.length < totalBytes pieces
  /-- It is empty exactly if its text is. -/
  isEmpty : buffer.isEmpty = true ↔ buffer.text = ""

/-- Whatever is written to a buffer, it holds a beginning of each of the pieces. -/
theorem exists_holdsKept (capacity : Nat) (pieces : List String) :
    ∃ kept, HoldsKept pieces kept (writeAll ({} : MessageBuffer capacity) pieces) := by
  obtain ⟨kept, hkept, hcontent⟩ := exists_keptOf ({} : MessageBuffer capacity) pieces
  obtain ⟨raw, -, hspells⟩ := ByteBuffer.exists_writeAll ByteBuffer.spells_empty pieces
  obtain ⟨-, htruncated⟩ := truncated_writeAll ({} : MessageBuffer capacity) pieces
  generalize writeAll ({} : MessageBuffer capacity) pieces = buffer at *
  have hnothing : ({} : MessageBuffer capacity).length = 0 := rfl
  refine ⟨kept, ?_, ?_, hkept, ?_, ?_, ?_⟩
  · rw [← hspells.length]
    exact hspells.within
  · rw [utf8ByteSize_eq_byteLength, toList_text, length]
  · rw [toList_text, hcontent]
    rfl
  · rw [htruncated, hnothing, Nat.zero_add, totalBytes_eq_byteLength]
    simp
  · rw [← String.toList_inj, toList_text, String.toList_empty, isEmpty, beq_iff_eq, length,
      byteLength_eq_zero_iff]

/-- Writing any pieces to a buffer of any capacity meets no fault, and neither does reading it.  It
holds of each piece the longest run of whole leading characters that fits the room left at that
time, and nothing else; so its bytes are always text, no more than the capacity, and it is marked
exactly if it holds less than was written. -/
theorem holds_text_within_capacity (capacity : Nat) (pieces : List String) :
    ∃ (raw : ByteBuffer capacity) (kept : List (List Char)),
      ByteBuffer.writeAll {} pieces = .ok raw ∧
      raw.Spells (writeAll {} pieces) ∧
      textOfBytes? (raw.bytes.take raw.length) =
        some (writeAll ({} : MessageBuffer capacity) pieces).text ∧
      raw.text = .ok (writeAll ({} : MessageBuffer capacity) pieces).text ∧
      HoldsKept pieces kept (writeAll ({} : MessageBuffer capacity) pieces) := by
  obtain ⟨raw, hraw, hspells⟩ := ByteBuffer.exists_writeAll
    (ByteBuffer.spells_empty : ByteBuffer.Spells ({} : ByteBuffer capacity) {}) pieces
  obtain ⟨kept, hholds⟩ := exists_holdsKept capacity pieces
  obtain ⟨hspelled, htext⟩ := hspells.text_eq
  exact ⟨raw, kept, hraw, hspells, hspelled, htext, hholds⟩

/-- In four bytes, the second accented letter is lost whole, and the plain one behind it as well. -/
example : ByteBuffer.writeAll ({} : ByteBuffer 4) ["ab\u00e9", "\u00e9", "c"] =
    .ok ⟨[0x61, 0x62, 0xc3, 0xa9], 4, true⟩ := by
  decide

end MessageBuffer

end DriverHost
