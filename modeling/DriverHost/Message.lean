import DriverHost.Console

/-!
# Messages of bounded length

A message buffer holds at most so many bytes of text.  Each piece written to it is cut to
the longest run of whole characters that still fits, so the content is always text, and the
buffer remembers that something was lost.  Kernel messages are formatted into such a buffer
and logged without their trailing line breaks.

Main results:

- Definition `fitting` is the longest run of whole characters within a number of bytes.
- Lemma `byteLength_fitting_le` bounds it.
- Definition `MessageBuffer.write` and definition `Console.printk`.
-/

namespace DriverHost

/-- Bytes that characters take up as text. -/
def byteLength : List Char → Nat
  | [] => 0
  | c :: rest => c.utf8Size + byteLength rest

/-- The longest run of whole leading characters that takes at most `room` bytes. -/
def fitting (room : Nat) : List Char → List Char
  | [] => []
  | c :: rest => if c.utf8Size ≤ room then c :: fitting (room - c.utf8Size) rest else []

/-- What fits does not take more than the room. -/
theorem byteLength_fitting_le (room : Nat) (text : List Char) :
    byteLength (fitting room text) ≤ room := by
  induction text generalizing room with
  | nil => simp [fitting, byteLength]
  | cons c rest ih =>
    unfold fitting
    split
    · next h =>
      have := ih (room - c.utf8Size)
      simp only [byteLength] at this ⊢
      omega
    · simp [byteLength]

/-- Text of at most `capacity` bytes. -/
structure MessageBuffer (capacity : Nat) where
  /-- The characters held. -/
  content : List Char := []
  /-- Something written did not fit. -/
  truncated : Bool := false
deriving DecidableEq, Repr

namespace MessageBuffer

variable {capacity : Nat}

/-- Bytes held. -/
def length (buffer : MessageBuffer capacity) : Nat :=
  byteLength buffer.content

/-- The text held. -/
def text (buffer : MessageBuffer capacity) : String :=
  String.ofList buffer.content

/-- The buffer holds nothing. -/
def isEmpty (buffer : MessageBuffer capacity) : Bool :=
  buffer.length == 0

/-- Append as many whole characters of a piece as fit the room that is left. -/
def write (buffer : MessageBuffer capacity) (piece : String) : MessageBuffer capacity :=
  let taken := fitting (capacity - buffer.length) piece.toList
  { content := buffer.content ++ taken
    truncated := buffer.truncated || byteLength taken < byteLength piece.toList }

/-- Append pieces one after the other. -/
def writeAll (buffer : MessageBuffer capacity) (pieces : List String) : MessageBuffer capacity :=
  pieces.foldl write buffer

/-- The buffer after each of some pieces. -/
def afterEach (buffer : MessageBuffer capacity) : List String → List (MessageBuffer capacity)
  | [] => []
  | piece :: rest =>
      let buffer := buffer.write piece
      buffer :: buffer.afterEach rest

end MessageBuffer

/-! ## Kernel messages -/

/-- Bytes of the longest kernel message. -/
def longestMessage : Nat := 1000

/-- Characters without the line breaks at their end. -/
def withoutTrailingBreaks (text : List Char) : List Char :=
  (text.reverse.dropWhile (· == '\n')).reverse

/-- Log a message formatted in pieces, as a debug message without its trailing line breaks.
The answer counts the bytes of the message with them. -/
def Console.printk (console : Console) (pieces : List String) : Nat × Console :=
  let message : MessageBuffer longestMessage := MessageBuffer.writeAll {} pieces
  (message.length,
    console.log .debug "printk" (String.ofList (withoutTrailingBreaks message.content)))

/-! ## Text that comes as bytes -/

/-- The bytes of a string that ends at its first zero byte. -/
def untilZero (bytes : List UInt8) : List UInt8 :=
  bytes.takeWhile (· != 0)

/-- The text some bytes spell, if they spell one. -/
def textOfBytes? (bytes : List UInt8) : Option String :=
  String.fromUTF8? ⟨bytes.toArray⟩

/-- A message without its level marker, a byte one and the level. -/
def withoutMarker : List UInt8 → List UInt8
  | 1 :: _ :: rest => rest
  | bytes => bytes

/-- Log a message that comes as bytes, without its level marker.  Bytes that spell no text
are replaced by a note. -/
def Console.printkBytes (console : Console) (bytes : List UInt8) : Nat × Console :=
  let message := withoutMarker (untilZero bytes)
  console.printk [(textOfBytes? message).getD "<invalid utf-8>"]

/-- The text of a name that comes as bytes, a question mark if there is none. -/
def textOrUnknown : Option (List UInt8) → String
  | none => "?"
  | some bytes => (textOfBytes? (untilZero bytes)).getD "?"

end DriverHost
