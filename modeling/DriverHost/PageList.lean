import DriverHost.Bump
import DriverHost.FragmentPool
import DriverHost.PageRun

/-!
# Page lists

A buffer is described to the VideoCore by a page list in memory: a header with the length of
the buffer, the kind of transfer and the offset into the first page, followed by a word for
each run of pages.  A transfer into memory whose beginning or end is not on a cache line
borrows a fragment, and the kind then names the fragment.  When the transfer is over, the
partial lines are copied from the fragment to where they belong and the fragment goes back.

Building a page list may wait for a fragment.  Everything that can be refused is refused
before that.

Main results:

- Definitions `PageList.create` and `PageList.finish` are the code that runs.
- Definitions `PageList.runs` and `PageList.kind` read a page list back from memory.
-/

namespace DriverHost

/-- Which way the device moves bytes. -/
inductive Direction where
  /-- The device reads the buffer. -/
  | write
  /-- The device writes the buffer. -/
  | read
deriving DecidableEq, Repr

/-- The kind of a transfer without a fragment. -/
def Direction.plainKind : Direction → UInt16
  | .write => 0
  | .read => 1

/-- The kind of a transfer into memory with the first fragment; the others follow. -/
def fragmentKind : UInt16 := 2

/-- Why a buffer was not described. -/
inductive PageListError where
  /-- The heap had no room for the page list. -/
  | noMemory (pages : Nat) (source : AllocError)
  /-- The length does not fit the header. -/
  | tooLarge (length : UInt64)
deriving DecidableEq, Repr

/-- The wording of a page list error. -/
def PageListError.message : PageListError → String
  | .noMemory pages _ => "no memory for a page list of " ++ toString pages ++ " pages"
  | .tooLarge length => "bulk of " ++ toString length.toNat ++ " bytes is too large"

/-- A description of a buffer, in use until its transfer is over. -/
structure PageList where
  /-- Where it is in memory. -/
  descriptor : UInt64
  /-- Where the VideoCore finds it. -/
  busAddress : UInt32
  /-- The buffer it describes. -/
  buffer : UInt64
  /-- Bytes of the buffer. -/
  length : UInt64
  /-- The offset of the buffer into its first page. -/
  offset : UInt64
  /-- Pages the buffer touches. -/
  pages : Nat
  /-- Words behind the header. -/
  runCount : Nat
  direction : Direction
  /-- The fragment it has borrowed. -/
  fragment : Option Nat
deriving DecidableEq, Repr

/-- What describing a buffer works on. -/
structure TransferState where
  memory : Memory
  heap : Bump
  fragments : FragmentPool

/-- The fragments among what describing a buffer works on. -/
def TransferState.fragmentView : Coroutine.View TransferState FragmentPool where
  get state := state.fragments
  set fragments state := { state with fragments }

namespace PageList

/-- Bytes of the header. -/
def headerSize : UInt64 := 8

/-- Bytes of a page list with room for a word for each page. -/
def descriptorSize (pages : Nat) : UInt64 :=
  headerSize + 4 * UInt64.ofNat pages

/-- Pages that a buffer touches; an empty buffer still has the page it begins in. -/
def pageCount (offset length : UInt64) : Nat :=
  max 1 ((offset.toNat + length.toNat + 4095) / 4096)

/-- Write the words of runs behind the header. -/
def storeRuns (memory : Memory) (descriptor : UInt64) (words : List UInt32) : Memory :=
  memory.storeBytes (descriptor + headerSize)
    (words.flatMap fun word => (List.range 4).map (Memory.byteOfWord word))

/-- Write the header. -/
def storeHeader (memory : Memory) (descriptor : UInt64) (length : UInt32)
    (kind offset : UInt16) : Memory :=
  ((memory.setWord descriptor length).setHalf (descriptor + 4) kind).setHalf
    (descriptor + 6) offset

/-- The kind in the header. -/
def kind (list : PageList) (memory : Memory) : UInt16 :=
  memory.half (list.descriptor + 4)

/-- The runs behind the header. -/
def runs (list : PageList) (memory : Memory) : List PageRun :=
  (memory.words (list.descriptor + headerSize) list.runCount).map PageRun.decode

/-- The kind of a transfer. -/
def kindOf (direction : Direction) : Option Nat → UInt16
  | some index => fragmentKind + UInt16.ofNat index
  | none => direction.plainKind

/-- A buffer begins or ends inside a cache line. -/
def misaligned (offset length cacheLine : UInt64) : Except Fault Bool := do
  if ← isAligned offset cacheLine then
    return !(← isAligned (offset + length) cacheLine)
  else return true

/-- Allocate a page list and write the runs of a buffer, all but the header.  The second
answer says whether the transfer needs a fragment. -/
def lay (busOf : UInt64 → UInt32) (buffer length : UInt64) (direction : Direction)
    (state : TransferState) :
    Except Fault (Except PageListError (PageList × Bool × TransferState)) := do
  if UInt32.size ≤ length.toNat then return .error (.tooLarge length)
  else
    let offset := pageOffset buffer
    let pages := pageCount offset length
    match ← Heap.allocate state.heap (descriptorSize pages) with
    | .error source => return .error (.noMemory pages source)
    | .ok (descriptor, heap) =>
      let runs := runsOf (← pageAddresses busOf (pageBase buffer) pages)
      let words ← runs.mapM PageRun.encode
      let memory := storeRuns state.memory descriptor words
      let misaligned ← misaligned offset length state.fragments.cacheLine
      let list : PageList :=
        { descriptor, buffer, length, offset, pages, direction
          busAddress := busOf descriptor
          runCount := runs.length
          fragment := none }
      return .ok (list, direction == .read && misaligned, { state with heap, memory })

/-- Allocate a page list and write its runs, as an action. -/
def layDown (busOf : UInt64 → UInt32) (buffer length : UInt64) (direction : Direction) :
    Action TransferState (Except PageListError (PageList × Bool)) := fun state =>
  match lay busOf buffer length direction state with
  | .error cause => .error cause state
  | .ok (.error e) => .ok (.error e) state
  | .ok (.ok (list, borrows, state)) => .ok (.ok (list, borrows)) state

/-- Describe a number of bytes at a buffer for a transfer.  A transfer into memory that is
not aligned waits for a fragment, and the header is written when it has one. -/
def create {ε : Type} (busOf : UInt64 → UInt32) (buffer length : UInt64)
    (direction : Direction) : Coroutine ε TransferState (Except PageListError PageList) := do
  let laid ← Coroutine.act (layDown busOf buffer length direction)
  match laid with
  | .error e => return .error e
  | .ok (list, borrows) =>
    let fragment ←
      if borrows then some <$> FragmentPool.acquire.zoom TransferState.fragmentView
      else pure none
    Coroutine.act fun state =>
      .ok () { state with
        memory := storeHeader state.memory list.descriptor length.toUInt32
          (kindOf direction fragment) list.offset.toUInt16 }
    return .ok { list with fragment }

/-! ## The end of a transfer -/

/-- Bytes from an offset up to the next cache line. -/
def headLength (offset cacheLine : UInt64) : UInt64 :=
  (cacheLine - (offset &&& (cacheLine - 1))) &&& (cacheLine - 1)

/-- Bytes of the last line that a transfer of some bytes from an offset reaches into. -/
def tailLength (offset actual cacheLine : UInt64) : UInt64 :=
  (offset + actual) &&& (cacheLine - 1)

/-- Copy the partial lines of a transfer of some bytes out of its fragment: the beginning
from the fragment's first line, the end from its second. -/
def copyFragment (list : PageList) (index : Nat) (actual : UInt64) (state : TransferState) :
    Except Fault Memory := do
  let line := state.fragments.cacheLine
  let fragment ← state.fragments.address (UInt64.ofNat index)
  let head := headLength list.offset line
  let tail := tailLength list.offset actual line
  let memory :=
    if head = 0 then state.memory
    else state.memory.copy fragment list.buffer (min head actual).toNat
  if head < actual ∧ tail ≠ 0 then
    let target ← addWords (list.buffer - list.offset) (← alignDown (list.offset + actual) line)
    return memory.copy (fragment + line) target tail.toNat
  else return memory

/-- Finish a transfer of which a number of bytes arrived.  A negative number stands for a
transfer that was given up: nothing is copied, but the fragment goes back. -/
def finish {ε : Type} (list : PageList) (actual : Int32) : Coroutine ε TransferState Unit := do
  match list.fragment with
  | none => return ()
  | some index =>
    Coroutine.act fun state =>
      if actual < 0 then .ok () state
      else
        match copyFragment list index (UInt64.ofNat actual.toInt.toNat) state with
        | .ok memory => .ok () { state with memory }
        | .error cause => .error cause state
    (FragmentPool.release index).zoom TransferState.fragmentView

end PageList

end DriverHost
