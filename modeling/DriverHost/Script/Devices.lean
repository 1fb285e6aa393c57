import DriverHost.Script.World

/-!
# Operations on devices

Interrupts, the system timer, the mailbox and the platform device.  The mailbox has a
firmware behind it that behaves as the script says, and the timer's counter can be made to
move between readings while a delay runs.

Main results:

- Definition `SimulatedMailbox.link` is a mailbox with such a firmware.
- Definitions `InterruptOp.perform`, `MailboxOp.perform` and `DeviceOp.perform`.
-/

namespace DriverHost.Script

/-! ## The mailbox -/

/-- A mailbox whose firmware behaves as a script says. -/
structure SimulatedMailbox where
  memory : Memory
  setup : MailboxSetup
  /-- A request was sent. -/
  sent : Bool := false
  /-- What the firmware has left to send. -/
  inbox : List UInt32 := []

namespace SimulatedMailbox

/-- Where the register is that sends a word. -/
def sendOffset : UInt64 := 0x20

/-- Words of the buffer. -/
def bufferWords : Nat := 8

/-- The address of a word of the buffer. -/
def wordAddress (mailbox : SimulatedMailbox) (index : Nat) : UInt64 :=
  Memory.addressAt mailbox.setup.buffer (4 * index)

/-- The status register: full for good, or empty while there is nothing left to receive. -/
def status (mailbox : SimulatedMailbox) : UInt32 :=
  if mailbox.setup.model.full then Mailbox.fullFlag
  else if mailbox.sent && mailbox.inbox.isEmpty then Mailbox.emptyFlag
  else 0

/-- The request is sent: the firmware writes its answer into the buffer and gets ready to
send what it has for others and, if it answers, the same word back. -/
def accept (word : UInt32) (mailbox : SimulatedMailbox) : SimulatedMailbox :=
  let model := mailbox.setup.model
  let memory := mailbox.memory.setWord (mailbox.setup.registers + sendOffset) word
  { mailbox with
    memory := model.words.foldl
      (fun memory answer => memory.setWord (mailbox.wordAddress answer.1) answer.2) memory
    sent := true
    inbox := model.junk ++ if model.answers then [word] else [] }

/-- The mailbox as a driver sees it. -/
def link : MailboxLink SimulatedMailbox where
  capacity := bufferWords
  room := by decide
  word index mailbox := mailbox.memory.word (mailbox.wordAddress index)
  setWord index value mailbox :=
    { mailbox with memory := mailbox.memory.setWord (mailbox.wordAddress index) value }
  status mailbox := (mailbox.status, mailbox)
  receive mailbox :=
    match mailbox.inbox with
    | [] => (0, mailbox)
    | word :: inbox => (word, { mailbox with inbox })
  send := accept

/-- A mailbox as it is before a call, over a memory. -/
def ofMemory (setup : MailboxSetup) (memory : Memory) : SimulatedMailbox where
  memory := memory.setWord (setup.registers + sendOffset) 0xffffffff
  setup := setup

end SimulatedMailbox

/-- Words for others that a call may skip, which are all that the firmware has. -/
def skipLimit (setup : MailboxSetup) : Nat :=
  setup.model.junk.length

/-- Work on the mailbox of a setup, in the memory of the world. -/
def onMailbox {α : Type} (setup : MailboxSetup)
    (action : Mailbox SimulatedMailbox → Action (Board SimulatedMailbox) α) :
    Action World α := fun world =>
  let mailbox : Mailbox SimulatedMailbox :=
    { link := SimulatedMailbox.link, address := setup.buffer.toUInt32 }
  let board : Board SimulatedMailbox :=
    { console := world.board.console
      device := SimulatedMailbox.ofMemory setup world.board.device }
  let back (board : Board SimulatedMailbox) : World :=
    { world with board := { console := board.console, device := board.device.memory } }
  match action mailbox board with
  | .ok value board => .ok value (back board)
  | .error cause board => .error cause (back board)

/-- Tell the firmware of a setup where the memory for transfers is. -/
def initTransfersWith (setup : MailboxSetup) (base : UInt32) :
    Action World (Except MailboxError UInt32) :=
  onMailbox setup fun mailbox => mailbox.initTransfers (skipLimit setup) base

/-- Send a request on a channel; the answer is the whole buffer. -/
def callWith (setup : MailboxSetup) (channel base : UInt32) :
    Action World (Except MailboxError (List UInt32)) :=
  onMailbox setup fun mailbox => do
    let _ ← Mailbox.onBuffer (mailbox.prepare base)
    match ← mailbox.call (skipLimit setup) channel with
    | .error e => return .error e
    | .ok () =>
        Mailbox.onBuffer fun device =>
          .ok (.ok (mailbox.link.toWordStore.contents device)) device

/-- Perform an operation on the mailbox. -/
def MailboxOp.perform (setup : MailboxSetup) : MailboxOp → Code Reply
  | initTransfers base => do
      match ← Coroutine.act (initTransfersWith setup base) with
      | .ok status => return .firmwareStatus status
      | .error e => return .refused (.mailbox e)
  | call channel base => do
      match ← Coroutine.act (callWith setup channel base) with
      | .ok words => return .firmwareWords words
      | .error e => return .refused (.mailbox e)

/-! ## Interrupts and the timer -/

/-- Memory with a counter that moves by a step after every reading. -/
structure MovingCounter where
  memory : Memory
  address : UInt64
  step : UInt32

/-- Only reading the counter moves it. -/
instance : Bus MovingCounter where
  load address device :=
    let value := device.memory.word address
    if address = device.address then
      (value, { device with memory := device.memory.setWord address (value + device.step) })
    else (value, device)
  save address value device :=
    { device with memory := device.memory.setWord address value }

/-- Readings that a delay may take before it counts as endless. -/
def readingLimit : Nat := 1 <<< 26

/-- Whether a delay ends while the timer's counter moves by a step between readings. -/
def delayEnds (timer : SystemTimer Nat) (memory : Memory) (duration : UInt32)
    (inMillis : Bool) (step : UInt32) : Bool :=
  let device : MovingCounter :=
    { memory, address := timer.base + SystemTimer.counterOffset, step }
  let result :=
    if inMillis then timer.delayMillis? readingLimit duration.toNat device
    else timer.delay? readingLimit duration device
  result.isSome

/-- Let a tick call its handler. -/
def tick (handler : Nat) : Action World Unit :=
  note fun task => .ticked task handler

/-- Service the timer's interrupt. -/
def serveTimer : Action World IrqReturn := fun world =>
  world.outside.timer.handle Kernel.memoryView tick world

/-- What the engine does when it looks at its events. -/
def pollEngine (setting : Setting) : Code Unit := do
  Coroutine.act (note fun task => .engine task .poll)
  setting.nested setting.script.engine.onPoll

/-- Let a handler service an interrupt. -/
def serve (setting : Setting) : Handler → Code IrqReturn
  | .timer => Coroutine.act serveTimer
  | .platform => Kernel.serveDoorbell (pollEngine setting)
  | .scripted name => do
      Coroutine.act (note fun task => .interrupted task name)
      let script := (setting.script.handlers.lookup name).getD {}
      setting.nested script.steps
      return if script.claims then .handled else .unclaimed

/-- Connect a handler to an interrupt, under its own name. -/
def connect (irq : Nat) (handler : Handler) : Action World Reply := fun world =>
  match world.interrupts.connect irq ⟨handler.name, handler⟩ world.board with
  | .error e => .ok (.refused (.irq e)) world
  | .ok (interrupts, board) => .ok .nothing { world with interrupts, board }

/-- A source as an answer. -/
def sourceReply (source : Option Nat) : Reply :=
  match source with
  | some irq => .number irq
  | none => .nothing

/-- Perform an operation on the interrupt controller or the system timer. -/
def InterruptOp.perform (setting : Setting) : InterruptOp → Code Reply
  | connect irq handler => Coroutine.act (Script.connect irq handler)
  | disconnect irq => do
      Coroutine.act (Kernel.interruptView.lift fun part =>
        let (controller, device) := part.controller.disconnect irq part.board.device
        .ok () { controller, board := { part.board with device } })
      return .nothing
  | enable irq => do
      Coroutine.act fun world =>
        onMemory (world.interrupts.enable irq) world
      return .nothing
  | disable irq => do
      Coroutine.act fun world =>
        onMemory (world.interrupts.disable irq) world
      return .nothing
  | pending =>
      Coroutine.act (Kernel.interruptView.lift fun part =>
        let (source, part) := part.pending
        .ok (sourceReply source) part)
  | dispatch => do
      let source ← Interrupts.dispatch Kernel.interruptView (serve setting)
      return sourceReply source
  | timerStart => do
      Coroutine.act fun world => onMemory world.outside.timer.startTicks world
      return .nothing
  | timerNow =>
      Coroutine.act (look fun world =>
        .number (world.outside.timer.now world.board.device).1.toNat)
  | timerPeriodic handler => do
      Coroutine.act (onBench fun bench =>
        { bench with timer := { bench.timer with periodic := some handler } })
      return .nothing
  | timerHandle => do
      let result ← Coroutine.act serveTimer
      return .irqReturn result
  | timerDelay duration inMillis step => do
      let ends ← Coroutine.act (look fun world =>
        delayEnds world.outside.timer world.board.device duration inMillis step)
      if ends then return .flag true else Coroutine.fault .blocked

/-! ## The platform device -/

/-- Replace the device by one that may not be allowed. -/
def setDevice (change : PlatformDevice → Except Fault PlatformDevice) : Code Reply :=
  Coroutine.act fun world =>
    match change world.outside.device with
    | .error cause => .error cause world
    | .ok device => .ok .nothing { world with outside := { world.outside with device } }

/-- Ask the device. -/
def askDevice (question : PlatformDevice → Except Fault Reply) : Code Reply :=
  Coroutine.act fun world =>
    match question world.outside.device with
    | .error cause => .error cause world
    | .ok reply => .ok reply world

/-- Perform an operation on the device. -/
def DeviceOp.perform : DeviceOp → Code Reply
  | clear => setDevice fun _ => .ok {}
  | wired base =>
      setDevice fun _ => transferDevice ((base.map CoherentRegion.mk).getD {})
  | add start stop flags =>
      setDevice fun device => device.addResource start stop (ResourceFlags.ofBits flags)
  | share start stop => setDevice fun device => device.setDmaMemory start stop
  | resource flags index =>
      askDevice fun device =>
        match device.resource? (ResourceFlags.ofBits flags) index with
        | some found => .ok (.resource found)
        | none => .ok .nothing
  | size flags index =>
      askDevice fun device =>
        match device.resource? (ResourceFlags.ofBits flags) index with
        | some found => do
            let covered ← found.size
            return .number covered.toNat
        | none => .ok .nothing
  | irq index =>
      askDevice fun device =>
        match device.irq? index with
        | some source => .ok (.number source.toNat)
        | none => .ok .nothing
  | allocate bytes =>
      askDevice fun device => do
        match ← device.allocCoherent? bytes with
        | some (address, bus) => return .sharedMemory address bus
        | none => return .nothing

end DriverHost.Script
