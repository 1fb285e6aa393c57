import DriverHost.Message
import Mathlib.Data.List.Induction

/-!
# Where a message is cut

A message that does not fit its buffer is cut behind the last whole character that does.  The
buffer cuts every piece for itself: when the cut leaves a few bytes of room because the next
character is wider, a later piece that begins with a narrower one still goes in, and the buffer
holds a text that the message does not begin with.  Apart from that, how a message is split into
pieces makes no difference.

Main results:

- Structure `IsCut`: the longest run of whole leading characters within a number of bytes.
- Theorem `isCut_iff`: what fits is that run, and nothing else is.
- Definition `MessageBuffer.Splices`: a piece goes in behind the cut.
- Theorem `MessageBuffer.content_of_cut`: what a buffer holds once a piece was cut.
- Theorem `MessageBuffer.text_is_cut_unless_spliced`: a buffer holds the cut of its message
  exactly if no piece goes in behind it.
-/

namespace DriverHost

/-- The bytes of two texts add up. -/
theorem byteLength_append (first second : List Char) :
    byteLength (first ++ second) = byteLength first + byteLength second := by
  induction first with
  | nil => simp [byteLength]
  | cons c rest ih => simp only [List.cons_append, byteLength, ih, Nat.add_assoc]

/-! ## What fits -/

/-- The longest run of whole leading characters of a text within a number of bytes. -/
structure IsCut (room : Nat) (text kept : List Char) : Prop where
  leads : kept <+: text
  fits : byteLength kept ≤ room
  longest : ∀ other, other <+: text → byteLength other ≤ room → other <+: kept

/-- What fits is the beginning of the text. -/
theorem fitting_leads (room : Nat) (text : List Char) : fitting room text <+: text := by
  induction text generalizing room with
  | nil => exact List.nil_prefix
  | cons c rest ih =>
    rw [fitting]
    split
    · exact (List.prefix_cons_inj c).2 (ih _)
    · exact List.nil_prefix

/-- What fits is the longest beginning of the text that has room: every other one is a beginning of
it. -/
theorem leads_fitting {room : Nat} {text other : List Char} (hleads : other <+: text)
    (hfits : byteLength other ≤ room) : other <+: fitting room text := by
  induction text generalizing room other with
  | nil => exact hleads
  | cons c rest ih =>
    cases other with
    | nil => exact List.nil_prefix
    | cons first more =>
      obtain ⟨rfl, hmore⟩ := List.cons_prefix_cons.1 hleads
      rw [byteLength] at hfits
      rw [fitting, if_pos (by omega)]
      exact (List.prefix_cons_inj first).2 (ih hmore (by omega))

/-- What fits is the longest run within the room, and nothing else is. -/
theorem isCut_iff {room : Nat} {text kept : List Char} :
    IsCut room text kept ↔ kept = fitting room text := by
  constructor
  · intro hcut
    have hfitting := hcut.longest _ (fitting_leads room text) (byteLength_fitting_le room text)
    exact (leads_fitting hcut.leads hcut.fits).eq_of_length_le hfitting.length_le
  · rintro rfl
    exact ⟨fitting_leads room text, byteLength_fitting_le room text,
      fun _ hleads hfits => leads_fitting hleads hfits⟩

/-- Behind text that fits goes what fits the room it leaves. -/
theorem fitting_append {room : Nat} {first : List Char} (second : List Char)
    (hfits : byteLength first ≤ room) :
    fitting room (first ++ second) = first ++ fitting (room - byteLength first) second := by
  induction first generalizing room with
  | nil => simp [byteLength]
  | cons c rest ih =>
    rw [byteLength] at hfits
    rw [List.cons_append, fitting, if_pos (by omega), ih (by omega), byteLength, Nat.sub_sub,
      List.cons_append]

theorem fitting_of_fits {room : Nat} {text : List Char} (hfits : byteLength text ≤ room) :
    fitting room text = text := by
  have happend := fitting_append [] hfits
  rwa [List.append_nil, fitting, List.append_nil] at happend

/-- Nothing goes behind text that does not fit. -/
theorem fitting_append_of_lt {room : Nat} {first : List Char} (second : List Char)
    (hcut : room < byteLength first) : fitting room (first ++ second) = fitting room first := by
  induction first generalizing room with
  | nil => simp [byteLength] at hcut
  | cons c rest ih =>
    rw [byteLength] at hcut
    rw [List.cons_append, fitting, fitting]
    by_cases hfits : c.utf8Size ≤ room
    · rw [if_pos hfits, if_pos hfits, ih (by omega)]
    · rw [if_neg hfits, if_neg hfits]

/-- Nothing of a text fits exactly if its first character does not. -/
theorem fitting_eq_nil_iff {room : Nat} {text : List Char} :
    fitting room text = [] ↔ ∀ c ∈ text.head?, room < c.utf8Size := by
  cases text with
  | nil => simp [fitting]
  | cons c rest =>
    rw [fitting]
    split <;> simp <;> omega

/-! ## Messages in pieces -/

/-- The characters of a message that comes in pieces. -/
def wholeMessage (pieces : List String) : List Char :=
  pieces.flatMap String.toList

theorem wholeMessage_append (before after : List String) :
    wholeMessage (before ++ after) = wholeMessage before ++ wholeMessage after :=
  List.flatMap_append

theorem wholeMessage_cons (piece : String) (rest : List String) :
    wholeMessage (piece :: rest) = piece.toList ++ wholeMessage rest :=
  List.flatMap_cons

namespace MessageBuffer

variable {capacity : Nat} {buffer : MessageBuffer capacity} {pieces : List String}

theorem toList_text (buffer : MessageBuffer capacity) : buffer.text.toList = buffer.content :=
  String.toList_ofList

theorem writeAll_append (buffer : MessageBuffer capacity) (before after : List String) :
    buffer.writeAll (before ++ after) = (buffer.writeAll before).writeAll after :=
  List.foldl_append

/-- A piece adds its longest beginning for which there is room, however often text has been cut
before. -/
theorem content_write (buffer : MessageBuffer capacity) (piece : String) :
    (buffer.write piece).content =
      buffer.content ++ fitting (capacity - byteLength buffer.content) piece.toList :=
  rfl

/-- As long as everything fits, the buffer holds everything. -/
theorem content_of_fits
    (hfits : byteLength (buffer.content ++ wholeMessage pieces) ≤ capacity) :
    (buffer.writeAll pieces).content = buffer.content ++ wholeMessage pieces := by
  induction pieces generalizing buffer with
  | nil => exact (List.append_nil _).symm
  | cons piece rest ih =>
    rw [wholeMessage_cons, ← List.append_assoc] at hfits ⊢
    have hpiece : (buffer.write piece).content = buffer.content ++ piece.toList := by
      rw [content_write, fitting_of_fits]
      rw [byteLength_append, byteLength_append] at hfits
      omega
    rw [← hpiece] at hfits ⊢
    exact ih hfits

/-- Writing only adds behind what is there, and adds nothing exactly if each piece begins with a
character that is too wide for the room. -/
theorem exists_added (buffer : MessageBuffer capacity) (pieces : List String) :
    ∃ added, (buffer.writeAll pieces).content = buffer.content ++ added ∧
      (added = [] ↔ ∀ piece ∈ pieces, ∀ c ∈ piece.toList.head?,
        capacity - byteLength buffer.content < c.utf8Size) := by
  induction pieces generalizing buffer with
  | nil => exact ⟨[], (List.append_nil _).symm, by simp⟩
  | cons piece rest ih =>
    obtain ⟨behind, hbehind, hnothing⟩ := ih (buffer.write piece)
    refine ⟨fitting (capacity - byteLength buffer.content) piece.toList ++ behind, ?_, ?_⟩
    · rw [← List.append_assoc, ← content_write, ← hbehind]
      rfl
    · rw [List.append_eq_nil_iff, fitting_eq_nil_iff, List.forall_mem_cons, hnothing]
      refine and_congr_right fun hpiece => ?_
      rw [content_write, fitting_eq_nil_iff.2 hpiece, List.append_nil]

/-- A piece of a message is cut, and a later one begins with a character that fits behind the
cut. -/
def Splices (capacity : Nat) (pieces : List String) : Prop :=
  ∃ before cut after, pieces = before ++ cut :: after ∧
    byteLength (wholeMessage before) ≤ capacity ∧
    capacity < byteLength (wholeMessage (before ++ [cut])) ∧
    ∃ piece ∈ after, ∃ c ∈ piece.toList.head?,
      c.utf8Size ≤ capacity - byteLength (fitting capacity (wholeMessage pieces))

/-- Once a piece was cut, the buffer holds the cut of the whole message and what later pieces
added, which is nothing exactly if none of them begins with a character that fits. -/
theorem content_of_cut {before : List String} {cut : String} (after : List String)
    (hfits : byteLength (wholeMessage before) ≤ capacity)
    (hcut : capacity < byteLength (wholeMessage (before ++ [cut]))) :
    ∃ added,
      (writeAll ({} : MessageBuffer capacity) (before ++ cut :: after)).content =
        fitting capacity (wholeMessage (before ++ cut :: after)) ++ added ∧
      (added = [] ↔ ∀ piece ∈ after, ∀ c ∈ piece.toList.head?,
        capacity - byteLength (fitting capacity (wholeMessage (before ++ cut :: after))) <
          c.utf8Size) := by
  have hsplit : before ++ cut :: after = (before ++ [cut]) ++ after := by simp
  have hheld : (writeAll ({} : MessageBuffer capacity) (before ++ [cut])).content =
      fitting capacity (wholeMessage (before ++ cut :: after)) := by
    have hbefore : (writeAll ({} : MessageBuffer capacity) before).content =
        wholeMessage before := content_of_fits hfits
    have hone : (writeAll ({} : MessageBuffer capacity) (before ++ [cut])).content =
        wholeMessage before ++
          fitting (capacity - byteLength (wholeMessage before)) cut.toList := by
      rw [writeAll_append, ← hbefore]
      rfl
    rw [hsplit, wholeMessage_append, fitting_append_of_lt _ hcut, wholeMessage_append,
      fitting_append _ hfits, hone, wholeMessage_cons]
    simp [wholeMessage]
  rw [← hheld, hsplit, writeAll_append]
  exact exists_added _ after

/-- A message that fits whole, or a piece of it that is the first to be cut. -/
theorem fits_or_cut (capacity : Nat) (pieces : List String) :
    byteLength (wholeMessage pieces) ≤ capacity ∨
    ∃ before cut after, pieces = before ++ cut :: after ∧
      byteLength (wholeMessage before) ≤ capacity ∧
      capacity < byteLength (wholeMessage (before ++ [cut])) := by
  induction pieces using List.reverseRecOn with
  | nil => exact Or.inl (Nat.zero_le _)
  | append_singleton before last ih =>
    rcases ih with hfits | ⟨first, cut, after, rfl, hfits, hcut⟩
    · by_cases hall : byteLength (wholeMessage (before ++ [last])) ≤ capacity
      · exact Or.inl hall
      · exact Or.inr ⟨before, last, [], rfl, hfits, Nat.lt_of_not_le hall⟩
    · exact Or.inr ⟨first, cut, after ++ [last], by simp, hfits, hcut⟩

/-- A buffer holds the cut of the whole message exactly if no later piece goes in behind the
cut. -/
theorem content_eq_fitting_iff (capacity : Nat) (pieces : List String) :
    (writeAll ({} : MessageBuffer capacity) pieces).content =
      fitting capacity (wholeMessage pieces) ↔ ¬ Splices capacity pieces := by
  constructor
  · rintro hheld ⟨before, cut, after, rfl, hfits, hcut, piece, hpiece, c, hc, hroom⟩
    obtain ⟨added, hadded, hnothing⟩ := content_of_cut after hfits hcut
    rw [hheld, List.self_eq_append_right, hnothing] at hadded
    exact absurd (hadded piece hpiece c hc) (Nat.not_lt.2 hroom)
  · intro hwhole
    rcases fits_or_cut capacity pieces with hfits | ⟨before, cut, after, rfl, hfits, hcut⟩
    · rw [fitting_of_fits hfits]
      exact content_of_fits hfits
    · obtain ⟨added, hadded, hnothing⟩ := content_of_cut after hfits hcut
      have hnone : added = [] := by
        rw [hnothing]
        intro piece hpiece c hc
        exact Nat.lt_of_not_le fun hroom =>
          hwhole ⟨before, cut, after, rfl, hfits, hcut, piece, hpiece, c, hc, hroom⟩
      rw [hadded, hnone, List.append_nil]

/-- The text a buffer holds is the longest run of whole leading characters of the message within
its capacity, exactly if no piece goes in behind a cut; messages that are split in other ways then
leave the same text. -/
theorem text_is_cut_unless_spliced (capacity : Nat) (pieces : List String) :
    (IsCut capacity (wholeMessage pieces)
        (writeAll ({} : MessageBuffer capacity) pieces).text.toList ↔
      ¬ Splices capacity pieces) ∧
    ∀ others, wholeMessage others = wholeMessage pieces → ¬ Splices capacity pieces →
      ¬ Splices capacity others →
      (writeAll ({} : MessageBuffer capacity) others).text =
        (writeAll ({} : MessageBuffer capacity) pieces).text := by
  refine ⟨?_, fun others hsame hpieces hothers => ?_⟩
  · rw [toList_text, isCut_iff, content_eq_fitting_iff]
  · rw [text, text, (content_eq_fitting_iff capacity others).2 hothers,
      (content_eq_fitting_iff capacity pieces).2 hpieces, hsame]

/-- An e with an accent takes two bytes, so a cut in front of it leaves room for one more: the
same message is spliced in two pieces and cut in others. -/
theorem text_spliced_behind_accent :
    (writeAll ({} : MessageBuffer 4) ["abc\u00e9", "d"]).text = "abcd" ∧
      ¬ IsCut 4 (wholeMessage ["abc\u00e9", "d"])
        (writeAll ({} : MessageBuffer 4) ["abc\u00e9", "d"]).text.toList ∧
      wholeMessage ["abc", "\u00e9d"] = wholeMessage ["abc\u00e9", "d"] ∧
      (writeAll ({} : MessageBuffer 4) ["abc", "\u00e9d"]).text =
        (writeAll ({} : MessageBuffer 4) ["abc\u00e9d"]).text := by
  have hspliced : Splices 4 ["abc\u00e9", "d"] :=
    ⟨[], "abc\u00e9", ["d"], rfl, by decide, by decide, "d", by decide, 'd', by decide, by decide⟩
  have hone : ¬ Splices 4 ["abc\u00e9d"] := (content_eq_fitting_iff 4 _).1 (by decide)
  have htwo : ¬ Splices 4 ["abc", "\u00e9d"] := (content_eq_fitting_iff 4 _).1 (by decide)
  refine ⟨by decide, fun hcut => (text_is_cut_unless_spliced 4 _).1.1 hcut hspliced, by decide, ?_⟩
  exact (text_is_cut_unless_spliced 4 _).2 _ (by decide) hone htwo

end MessageBuffer

end DriverHost
