import DriverHost.Proofs.MessageBytes
import Mathlib.Data.List.DropRight

/-!
# Messages from foreign callers

Foreign code hands over the place in memory where its message begins; the message ends in front of
the first zero byte.  Nothing else about the bytes is known.  The level marker is taken off byte by
byte, so that it may part a character or leave nothing; what is left need not be text; the text
that stands for it may be too long, and the cut may fall behind line breaks.  Each step is described
here by what it gives, and a call by all of them one after the other.

Main results:

- Definition `printkAt`: a call with the memory and the message buffer as bytes.
- Lemma `bytesToZero_append`: what is read from memory.
- Inductive relation `StandsFor` with theorem `standsFor_iff`: the text that stands for bytes.
- Structure `Shown` with theorem `shown_iff`: the line without the line breaks at its end.
- Theorem `Console.logs_foreign_message`: what a call answers and logs.
-/

namespace DriverHost

/-! ## Bytes in memory -/

/-- The bytes in memory in front of the first zero byte, an access past the end if there is none. -/
def bytesToZero : List UInt8 → Except Fault (List UInt8)
  | [] => .error .bounds
  | byte :: rest =>
      if byte = 0 then .ok []
      else do
        let more ← bytesToZero rest
        return byte :: more

/-- Scanning for the terminator stops at the first zero byte, whatever stands behind it. -/
theorem bytesToZero_append {message : List UInt8} (hmessage : 0 ∉ message) (behind : List UInt8) :
    bytesToZero (message ++ 0 :: behind) = .ok message := by
  induction message with
  | nil => rfl
  | cons byte rest ih =>
    obtain ⟨hbyte, hrest⟩ := not_or.1 (mt List.mem_cons.2 hmessage)
    rw [List.cons_append, bytesToZero, if_neg (Ne.symm hbyte), ih hrest]
    rfl

theorem untilZero_append {message : List UInt8} (hmessage : 0 ∉ message) (behind : List UInt8) :
    untilZero (message ++ 0 :: behind) = message := by
  induction message with
  | nil => rfl
  | cons byte rest ih =>
    obtain ⟨hbyte, hrest⟩ := not_or.1 (mt List.mem_cons.2 hmessage)
    have hnext := ih hrest
    unfold untilZero at hnext ⊢
    rw [List.cons_append, List.takeWhile_cons_of_pos (by simpa using Ne.symm hbyte), hnext]

/-- A level marker is a byte one and the byte behind it, whatever that is. -/
theorem withoutMarker_eq (message : List UInt8) :
    withoutMarker message =
      if 2 ≤ message.length ∧ message.head? = some 1 then message.drop 2 else message := by
  unfold withoutMarker
  split
  · rw [if_pos ⟨Nat.le_add_left _ _, rfl⟩]
    rfl
  · next hnone =>
    rw [if_neg]
    rintro ⟨hlong, hfirst⟩
    match message, hlong, hfirst with
    | first :: level :: rest, _, hfirst =>
      obtain rfl : first = 1 := Option.some.inj hfirst
      exact hnone level rest rfl

/-! ## Bytes as text -/

/-- The text that stands for some bytes: the one they spell, or a note that they spell none. -/
inductive StandsFor (bytes : List UInt8) : List Char → Prop
  | spelled {text : List Char} (hspelled : textBytes text = bytes) : StandsFor bytes text
  | noted (hnone : ∀ text, textBytes text ≠ bytes) : StandsFor bytes "<invalid utf-8>".toList

/-- Exactly one text stands for some bytes. -/
theorem standsFor_iff {bytes : List UInt8} {text : List Char} :
    StandsFor bytes text ↔ text = ((textOfBytes? bytes).getD "<invalid utf-8>").toList := by
  have hspelling : ∀ {other : List Char}, textBytes other = bytes →
      textOfBytes? bytes = some (String.ofList other) := by
    intro other hother
    rw [textOfBytes?_eq_some_iff, String.toList_ofList, hother]
  constructor
  · rintro (hspelled | hnone)
    · rw [hspelling hspelled, Option.getD_some, String.toList_ofList]
    · cases hread : textOfBytes? bytes with
      | none => rfl
      | some other => exact absurd (textOfBytes?_eq_some_iff.1 hread).symm (hnone _)
  · rintro rfl
    cases hread : textOfBytes? bytes with
    | none =>
      refine .noted fun other hother => ?_
      rw [hspelling hother] at hread
      cases hread
    | some other => exact .spelled (textOfBytes?_eq_some_iff.1 hread).symm

/-! ## Lines -/

/-- What is shown of a text in a line: everything but the line breaks at its end. -/
structure Shown (text line : List Char) : Prop where
  breaks : ∃ count, text = line ++ List.replicate count '\n'
  last : line.getLast? ≠ some '\n'

theorem withoutTrailingBreaks_eq (text : List Char) :
    withoutTrailingBreaks text = text.rdropWhile (· == '\n') :=
  rfl

/-- Line breaks behind a line make no difference to what is left of it. -/
theorem withoutTrailingBreaks_append (line : List Char) (count : Nat) :
    withoutTrailingBreaks (line ++ List.replicate count '\n') = withoutTrailingBreaks line := by
  induction count with
  | zero => rw [List.replicate_zero, List.append_nil]
  | succ count ih =>
    rw [List.replicate_succ', ← List.append_assoc, withoutTrailingBreaks_eq,
      List.rdropWhile_concat_pos _ _ _ rfl]
    exact ih

/-- A text without its trailing line breaks is what is shown of it. -/
theorem shown_withoutTrailingBreaks (text : List Char) :
    Shown text (withoutTrailingBreaks text) := by
  rw [withoutTrailingBreaks_eq]
  constructor
  case breaks =>
    have hbreaks : text.rtakeWhile (· == '\n') =
        List.replicate (text.rtakeWhile (· == '\n')).length '\n' := by
      refine List.eq_replicate_iff.2 ⟨rfl, fun c hc => ?_⟩
      have hbreak := List.mem_rtakeWhile_imp hc
      exact eq_of_beq hbreak
    exact ⟨_, by rw [← hbreaks, List.rdropWhile_append_rtakeWhile]⟩
  case last =>
    intro hlast
    obtain ⟨hline, hbreak⟩ := List.mem_getLast?_eq_getLast hlast
    apply List.rdropWhile_last_not (· == '\n') text hline
    rw [← hbreak]
    rfl

/-- Exactly one line shows a text. -/
theorem shown_iff {text line : List Char} :
    Shown text line ↔ line = withoutTrailingBreaks text := by
  constructor
  · rintro ⟨⟨count, rfl⟩, hlast⟩
    rw [withoutTrailingBreaks_append, withoutTrailingBreaks_eq]
    refine (List.rdropWhile_eq_self_iff.2 fun hline hbreak => hlast ?_).symm
    rw [List.getLast?_eq_some_getLast hline, eq_of_beq hbreak]
  · rintro rfl
    exact shown_withoutTrailingBreaks text

/-! ## Calls -/

namespace Console

/-- Log a message formatted in pieces, with its buffer as a block of bytes. -/
def printkInBlock (console : Console) (pieces : List String) : Except Fault (Nat × Console) := do
  let message ← ByteBuffer.writeAll ({} : ByteBuffer longestMessage) pieces
  let text ← message.text
  return (message.length,
    console.log .debug "printk" (String.ofList (withoutTrailingBreaks text.toList)))

/-- Log the message that begins at a place in memory. -/
def printkAt (console : Console) (memory : List UInt8) : Except Fault (Nat × Console) := do
  let message ← bytesToZero memory
  console.printkInBlock [(textOfBytes? (withoutMarker message)).getD "<invalid utf-8>"]

/-- A message in any pieces is logged without a fault. -/
theorem printkInBlock_eq (console : Console) (pieces : List String) :
    console.printkInBlock pieces = .ok (console.printk pieces) := by
  obtain ⟨message, hmessage, hspells⟩ := ByteBuffer.exists_writeAll
    (ByteBuffer.spells_empty : ByteBuffer.Spells ({} : ByteBuffer longestMessage) {}) pieces
  obtain ⟨-, htext⟩ := hspells.text_eq
  refine bind_eq_ok_iff.2 ⟨_, hmessage, ?_⟩
  refine bind_eq_ok_iff.2 ⟨_, htext, ?_⟩
  rw [hspells.length, MessageBuffer.toList_text]
  rfl

/-- With a zero byte somewhere, logging a foreign message meets no fault. -/
theorem printkAt_eq (console : Console) {message : List UInt8} (hmessage : 0 ∉ message)
    (behind : List UInt8) :
    console.printkAt (message ++ 0 :: behind) =
      .ok (console.printkBytes (message ++ 0 :: behind)) := by
  refine bind_eq_ok_iff.2 ⟨message, bytesToZero_append hmessage behind, ?_⟩
  rw [printkInBlock_eq, printkBytes, untilZero_append hmessage]

/-- A message in one piece is cut, counted and shown. -/
theorem printk_one (console : Console) (piece : String) {kept line : List Char}
    (hkept : IsCut longestMessage piece.toList kept) (hline : Shown kept line) :
    console.printk [piece] =
      (byteLength kept, console.log .debug "printk" (String.ofList line)) := by
  have hcontent : (MessageBuffer.writeAll ({} : MessageBuffer longestMessage) [piece]).content =
      kept :=
    (isCut_iff.1 hkept).symm
  rw [printk, MessageBuffer.length, hcontent, ← shown_iff.1 hline]

/-- Whatever bytes a foreign caller hands over, the call meets no fault.  The text that stands for
them behind the level marker is cut to a thousand bytes; the answer is the length of what is kept,
and one line with it is written exactly if debug messages are. -/
theorem logs_foreign_message (console : Console) (message behind : List UInt8)
    (hmessage : 0 ∉ message) :
    ∃ text kept line : List Char,
      StandsFor (if 2 ≤ message.length ∧ message.head? = some 1 then message.drop 2 else message)
        text ∧
      IsCut 1000 text kept ∧
      Shown kept line ∧
      console.printkAt (message ++ 0 :: behind) =
        .ok (console.printkBytes (message ++ 0 :: behind)) ∧
      console.printkBytes (message ++ 0 :: behind) =
        (byteLength kept,
          if console.enabled .debug then
            console.write (Console.line .debug "printk" (String.ofList line))
          else console) := by
  rw [← withoutMarker_eq]
  refine ⟨_, _, _, standsFor_iff.2 rfl, isCut_iff.2 rfl, shown_iff.2 rfl,
    console.printkAt_eq hmessage behind, ?_⟩
  rw [printkBytes, untilZero_append hmessage]
  exact console.printk_one _ (isCut_iff.2 rfl) (shown_iff.2 rfl)

/-- A marker that parts an accented letter leaves bytes that are no text. -/
theorem logs_note_for_parted_accent :
    printkAt {} [1, 0xc3, 0xa9, 0x0a, 0, 0x62] =
      .ok (15, ⟨.debug, "[D] printk: <invalid utf-8>\n"⟩) := by
  obtain ⟨text, kept, line, htext, hkept, hline, hat, hbytes⟩ :=
    logs_foreign_message {} [1, 0xc3, 0xa9, 0x0a] [0x62] (by decide)
  have hnote : text = "<invalid utf-8>".toList := by
    cases htext with
    | spelled hspelled =>
      have hfirst := congrArg (·[0]?) hspelled
      exact absurd (by decide) (not_continues_head hfirst)
    | noted => rfl
  obtain rfl : kept = text := by
    rw [isCut_iff.1 hkept, hnote]
    decide
  obtain rfl : line = kept := by
    rw [shown_iff.1 hline, hnote]
    decide
  rw [hbytes, hnote] at hat
  exact hat.trans (by decide)

end Console

end DriverHost
