import DriverHost.Console
import DriverHost.Hexadecimal

/-!
# The property mailbox

A request to the firmware is a buffer of words: its size in bytes, a code, tags, and a zero
after the last tag.  Each tag is its name, the size of its value, a request word and the
value.  The firmware answers in the same buffer: it replaces the code and sets the top bit of
the request word of every tag it understood.

The processor hands the buffer over by writing its address, with a channel in the low four
bits, to a register, and waits for the same word to come back.  Words that come back for
somebody else are skipped.  Every single wait is given up after a number of polls, but the
count begins again after each word that was skipped, so the whole call has no limit of its
own: `call` takes one for the words it skips.

Main results:

- Structures `WordStore` and `MailboxLink` are what a mailbox needs of a device.
- Definitions `startRequest`, `addTag` and `endRequest` build a request.
- Definition `Mailbox.call` and definition `Mailbox.initTransfers`.
-/

namespace DriverHost

/-- Why a call of the firmware failed. -/
inductive MailboxError where
  /-- The firmware understood nothing. -/
  | response
  /-- The firmware left a code that means nothing. -/
  | unknown (code : UInt32)
  /-- The firmware did not answer this tag. -/
  | tagNotAnswered (tag : UInt32)
  /-- The mailbox stayed full or empty. -/
  | timeout
deriving DecidableEq, Repr

/-- The wording of a mailbox error. -/
def MailboxError.message : MailboxError → String
  | .response => "firmware could not parse the request buffer"
  | .unknown code => "unexpected mailbox response code " ++ hexText code.toNat
  | .tagNotAnswered tag => "tag " ++ hexText tag.toNat ++ " was not answered"
  | .timeout => "timed out waiting for the mailbox"

/-! ## Requests -/

/-- Words that a request is written into. -/
structure WordStore (δ : Type) where
  /-- How many words there are. -/
  capacity : Nat
  /-- The word at an index. -/
  word : Nat → δ → UInt32
  /-- Replace the word at an index. -/
  setWord : Nat → UInt32 → δ → δ

/-- Words of an array. -/
def WordStore.ofArray (capacity : Nat) : WordStore (Array UInt32) where
  capacity := capacity
  word index words := words.getD index 0
  setWord index value words := words.setIfInBounds index value

namespace WordStore

variable {δ : Type}

/-- Read a word, an error past the last one. -/
def fetch (store : WordStore δ) (index : Nat) : Action δ UInt32 := fun device =>
  if index < store.capacity then .ok (store.word index device) device
  else .error .bounds device

/-- Write a word, an error past the last one. -/
def put (store : WordStore δ) (index : Nat) (value : UInt32) : Action δ Unit := fun device =>
  if index < store.capacity then .ok () (store.setWord index value device)
  else .error .bounds device

/-- All words. -/
def contents (store : WordStore δ) (device : δ) : List UInt32 :=
  (List.range store.capacity).map fun index => store.word index device

end WordStore

/-- The code of a request. -/
def requestCode : UInt32 := 0

/-- The code of an answer. -/
def successCode : UInt32 := 0x80000000

/-- The code of an answer to a request the firmware could not read. -/
def failureCode : UInt32 := 0x80000001

/-- Set in the request word of a tag that was answered. -/
def answeredFlag : UInt32 := 0x80000000

/-- The tag that hands the memory for transfers over. -/
def initTransfersTag : UInt32 := 0x48010

/-- What follows the last tag. -/
def endTag : UInt32 := 0

/-- The request channel for tags. -/
def propertyChannel : UInt32 := 8

variable {δ : Type}

/-- Begin a request; the answer is the index of its first tag. -/
def startRequest (store : WordStore δ) : Action δ Nat := do
  store.put 1 requestCode
  return 2

/-- Write the tag that hands over the memory at a bus address; the answer is the index after
it. -/
def addTag (store : WordStore δ) (index : Nat) (base : UInt32) : Action δ Nat := do
  store.put index initTransfersTag
  store.put (index + 1) 4
  store.put (index + 2) 4
  store.put (index + 3) base
  return index + 4

/-- End a request at an index and enter its size. -/
def endRequest (store : WordStore δ) (index : Nat) : Action δ Unit := do
  store.put index endTag
  let count ← ensureHalf (index % UInt32.size + 1)
  let size ← ensureHalf (count.toNat * 4)
  store.put 0 size

/-- The first word of the answer to the tag at an index.  Indices are words themselves. -/
def tagValue (store : WordStore δ) (index : Nat) : Action δ (Except MailboxError UInt32) := do
  let request ← ensureWord (index + 2)
  let flags ← store.fetch request.toNat
  if flags &&& answeredFlag = 0 then
    return .error (.tagNotAnswered (← store.fetch index))
  else
    return .ok (← store.fetch (index + 3))

/-! ## Calls -/

/-- The registers of a mailbox and the buffer it shares with the firmware. -/
structure MailboxLink (δ : Type) extends WordStore δ where
  /-- The size and the code of a request are among the words. -/
  room : 1 < capacity
  /-- Read the status register. -/
  status : δ → UInt32 × δ
  /-- Read a word the firmware sent. -/
  receive : δ → UInt32 × δ
  /-- Send a word to the firmware. -/
  send : UInt32 → δ → δ

/-- A mailbox with the bus address of its buffer. -/
structure Mailbox (δ : Type) where
  link : MailboxLink δ
  address : UInt32

namespace Mailbox

/-- The bits of a word that name a channel. -/
def channelMask : UInt32 := 0xf

/-- Set in the status while nothing can be sent. -/
def fullFlag : UInt32 := 0x80000000

/-- Set in the status while there is nothing to receive. -/
def emptyFlag : UInt32 := 0x40000000

/-- Polls of one wait that may find the mailbox busy. -/
def patience : Nat := 1 <<< 25

/-- The source behind log lines of the mailbox. -/
def logSource : String := "linuxemu::platform::rpi3::mailbox"

/-- Poll the status until a flag is clear, and say whether it was before the polls ran out. -/
def waitClear (link : MailboxLink δ) (flag : UInt32) : Nat → δ → Bool × δ
  | polls, device =>
      let (status, device) := link.status device
      if status &&& flag = 0 then (true, device)
      else
        match polls with
        | 0 => (false, device)
        | polls + 1 => waitClear link flag polls device

/-- The word that hands the buffer over on a channel. -/
def handOver (mailbox : Mailbox δ) (channel : UInt32) : UInt32 :=
  (mailbox.address &&& ~~~channelMask) ||| (channel &&& channelMask)

/-- A word answers the call that was made on a channel. -/
def answers (mailbox : Mailbox δ) (channel word : UInt32) : Bool :=
  word &&& channelMask = channel && word &&& ~~~channelMask = mailbox.address &&& ~~~channelMask

/-- What the code in an answered buffer means. -/
def verdict (code : UInt32) : Except MailboxError Unit :=
  if code = successCode then .ok ()
  else if code = failureCode then .error .response
  else .error (.unknown code)

/-- Work on the buffer as a part of the board. -/
def onBuffer {α : Type} (action : Action δ α) : Action (Board δ) α := fun board =>
  match action board.device with
  | .ok value device => .ok value { board with device }
  | .error cause device => .error cause { board with device }

/-- Read what the code in the buffer means. -/
def readVerdict (mailbox : Mailbox δ) : Action δ (Except MailboxError Unit) := do
  let code ← mailbox.link.fetch 1
  return verdict code

/-- Wait for the buffer to come back, skipping at most a number of words for others. -/
def awaitAnswer (mailbox : Mailbox δ) (channel : UInt32) :
    Nat → Action (Board δ) (Except MailboxError Unit)
  | limit, board =>
      match waitClear mailbox.link emptyFlag patience board.device with
      | (false, device) =>
          .ok (.error .timeout)
            ({ board with device }.log .warning logSource
              "timed out waiting for mailbox response")
      | (true, device) =>
          let (word, device) := mailbox.link.receive device
          let board := { board with device }
          if mailbox.answers channel word then onBuffer mailbox.readVerdict board
          else
            match limit with
            | 0 => .error .blocked board
            | limit + 1 => mailbox.awaitAnswer channel limit board

/-- Hand the buffer over and wait for it to come back.  The limit counts the words for others
that may come first. -/
def call (mailbox : Mailbox δ) (limit : Nat) (channel : UInt32) :
    Action (Board δ) (Except MailboxError Unit) := fun board =>
  let board := board.log .debug logSource
    ("Mailbox::write " ++ hexTextWide 8 mailbox.address.toNat ++ "/" ++ hexText channel.toNat)
  match waitClear mailbox.link fullFlag patience board.device with
  | (false, device) => .ok (.error .timeout) { board with device }
  | (true, device) =>
      let device := mailbox.link.send (mailbox.handOver channel) device
      mailbox.awaitAnswer channel limit { board with device }

/-- Write a whole request with one tag; the answer is the index of the tag. -/
def prepare (mailbox : Mailbox δ) (base : UInt32) : Action δ Nat := do
  let index ← startRequest mailbox.link.toWordStore
  let next ← addTag mailbox.link.toWordStore index base
  endRequest mailbox.link.toWordStore next
  return index

/-- Hand the memory for transfers at a bus address to the firmware; the answer is the status
that the firmware gave. -/
def initTransfers (mailbox : Mailbox δ) (limit : Nat) (base : UInt32) :
    Action (Board δ) (Except MailboxError UInt32) := do
  let index ← onBuffer (mailbox.prepare base)
  match ← mailbox.call limit propertyChannel with
  | .error e => return .error e
  | .ok () => onBuffer (tagValue mailbox.link.toWordStore index)

end Mailbox

end DriverHost
