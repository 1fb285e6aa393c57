import DriverHost.Mailbox

/-!
# Building requests

A request can be built step by step in a buffer of words, and looked at.  A step that meets a
fault is the last one.

Main results:

- Definition `buildRequest` answers every step of a list.
-/

namespace DriverHost.Script

/-- A step of building a request, or a look at it. -/
inductive RequestStep where
  | start
  | addTag (index : Nat) (base : UInt32)
  | finish (index : Nat)
  | word (index : Nat)
  | words
  | tagValue (index : Nat)

/-- The answer to a step. -/
inductive RequestReply where
  /-- The index after what was written. -/
  | index (value : Nat)
  /-- The request can be sent. -/
  | ready
  | word (value : UInt32)
  | words (values : List UInt32)
  | answered (value : UInt32)
  | refused (error : MailboxError)
  /-- The step met a fault. -/
  | failed (cause : Fault)

/-- Take one step on the words of an array. -/
def RequestStep.take (store : WordStore (Array UInt32)) :
    RequestStep → Action (Array UInt32) RequestReply
  | start => return .index (← startRequest store)
  | addTag index base => return .index (← DriverHost.addTag store index base)
  | finish index => do
      endRequest store index
      return .ready
  | word index => return .word (← store.fetch index)
  | words => fun content => .ok (.words (store.contents content)) content
  | tagValue index => do
      match ← DriverHost.tagValue store index with
      | .ok value => return .answered value
      | .error e => return .refused e

/-- Take steps in order, up to the first that meets a fault. -/
def takeRequestSteps (store : WordStore (Array UInt32)) :
    List RequestStep → Array UInt32 → List RequestReply
  | [], _ => []
  | step :: rest, content =>
      match step.take store content with
      | .ok reply content => reply :: takeRequestSteps store rest content
      | .error cause _ => [.failed cause]

/-- Build a request in a buffer of a number of words, some of which hold something already. -/
def buildRequest (capacity : Nat) (preset : List (Nat × UInt32)) (steps : List RequestStep) :
    List RequestReply :=
  let content := preset.foldl (fun content entry => content.setIfInBounds entry.1 entry.2)
    (Array.replicate capacity 0)
  takeRequestSteps (WordStore.ofArray capacity) steps content

end DriverHost.Script
