import DriverHost.Console
import DriverHost.Coroutine
import DriverHost.Interrupt

/-!
# The system timer

A counter runs at one microsecond a step and wraps after 32 bits.  A compare channel raises
an interrupt when the counter reaches it; a tick moves the channel one interval ahead, clears
the match and calls whoever asked to be called.  A deadline that has already passed when the
tick is serviced is replaced by one a whole interval from now.

Waiting compares the difference of two readings with the time asked for, so it is right
across the wrap.

Main results:

- Definitions `SystemTimer.nextDeadline` and `SystemTimer.handle`.
- Definition `SystemTimer.delay?` polls until enough time has passed.
- Definition `sleep` lets other tasks run meanwhile.
-/

namespace DriverHost

/-- Ticks in a second. -/
def ticksPerSecond : UInt32 := 100

/-- Microseconds between two ticks. -/
def tickInterval : UInt32 := 1000000 / ticksPerSecond

/-- A timer with the place of its registers and whom it calls on every tick. -/
structure SystemTimer (η : Type) where
  base : UInt64
  periodic : Option η := none
deriving DecidableEq, Repr

namespace SystemTimer

variable {η δ : Type} [Bus δ]

/-- Where the match flags are. -/
def statusOffset : UInt64 := 0

/-- Where the low half of the counter is. -/
def counterOffset : UInt64 := 4

/-- Where the compare channel of the tick is. -/
def compareOffset : UInt64 := 0x10

/-- The match flag of the tick's channel. -/
def matchFlag : UInt32 := 2

/-- Read the counter. -/
def now (timer : SystemTimer η) (device : δ) : UInt32 × δ :=
  Bus.load (timer.base + counterOffset) device

/-- Arm the channel for the first tick. -/
def startTicks (timer : SystemTimer η) (device : δ) : δ :=
  let (now, device) := timer.now device
  Bus.save (timer.base + compareOffset) (now + tickInterval) device

/-- A time lies at or before another, within half the counter's range. -/
def notAfter (time now : UInt32) : Bool :=
  time - now = 0 || (time - now).toNat ≥ 1 <<< 31

/-- The deadline after one: an interval later, or an interval from now if that has passed. -/
def nextDeadline (previous now : UInt32) : UInt32 :=
  let next := previous + tickInterval
  if notAfter next now then now + tickInterval else next

/-- Move the channel to the next deadline and clear the match. -/
def rearm (timer : SystemTimer η) (device : δ) : δ :=
  let (previous, device) := Bus.load (timer.base + compareOffset) device
  let (now, device) := timer.now device
  let device := Bus.save (timer.base + compareOffset) (nextDeadline previous now) device
  Bus.save (timer.base + statusOffset) matchFlag device

/-- Service the timer's interrupt: if its channel matched, go on to the next deadline and
call whoever asked to be called. -/
def handle {σ : Type} (timer : SystemTimer η) (view : Coroutine.View σ δ)
    (call : η → Action σ Unit) : Action σ IrqReturn := do
  let flags ← view.lift fun device =>
    let (flags, device) := Bus.load (timer.base + statusOffset) device
    .ok flags device
  if flags &&& matchFlag = 0 then return .unclaimed
  else
    view.lift fun device => .ok () (timer.rearm device)
    match timer.periodic with
    | some handler => call handler
    | none => pure ()
    return .handled

/-- Read the counter until enough time has passed since a reading; no answer if that takes
more readings than the limit. -/
def pollUntil? (timer : SystemTimer η) (start duration : UInt32) : Nat → δ → Option δ
  | 0, _ => none
  | limit + 1, device =>
      let (now, device) := timer.now device
      if now - start < duration then timer.pollUntil? start duration limit device
      else some device

/-- Busy-wait for a number of microseconds. -/
def delay? (timer : SystemTimer η) (limit : Nat) (duration : UInt32) (device : δ) : Option δ :=
  let (start, device) := timer.now device
  timer.pollUntil? start duration limit device

/-- Busy-wait for a number of milliseconds, one after the other. -/
def delayMillis? (timer : SystemTimer η) (limit : Nat) : Nat → δ → Option δ
  | 0, device => some device
  | count + 1, device =>
      (timer.delay? limit 1000 device).bind (timer.delayMillis? limit count)

end SystemTimer

/-! ## Sleeping -/

/-- Milliseconds as microseconds, at most what the counter can hold. -/
def sleepDuration (millis : UInt32) : UInt32 :=
  UInt32.ofNat (min (millis.toNat * 1000) (UInt32.size - 1))

/-- Let other tasks run until a number of milliseconds has passed on a clock. -/
def sleep {ε σ : Type} (clock : Action σ UInt32) (millis : UInt32) : Coroutine ε σ Unit := do
  let start ← Coroutine.act clock
  Coroutine.await do
    let now ← clock
    return if now - start < sleepDuration millis then none else some ()

end DriverHost
