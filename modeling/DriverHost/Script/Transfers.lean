import DriverHost.Script.Devices

/-!
# Operations on fragments, page lists and transfers

The protocol engine and the firmware are stood in for: they record that they were called and
answer as the script says.

Main results:

- Definition `engineOf` is the engine of a script.
- Definitions `PoolOp.perform`, `ListOp.perform` and `PlatformOp.perform`.
-/

namespace DriverHost.Script

/-! ## Fragments and page lists -/

/-- Perform an operation on the script's own pool of fragments, or on the platform's. -/
def PoolOp.perform (setting : Setting) (ofPlatform : Bool) : PoolOp → Code Reply
  | refill base count cacheLine => do
      Coroutine.act ((fragmentView ofPlatform).lift fun pool =>
        match pool.refill base count cacheLine with
        | .ok pool => .ok () pool
        | .error cause => .error cause pool)
      return .nothing
  | acquire => do
      let index ← setting.waiting (FragmentPool.acquire.zoom (fragmentView ofPlatform))
      return .number index
  | release index => do
      setting.waiting ((FragmentPool.release index).zoom (fragmentView ofPlatform))
      return .nothing
  | state =>
      Coroutine.act (look fun world =>
        let pool := (fragmentView ofPlatform).get world
        .numbers [pool.freeCount.toNat, pool.cacheLine.toNat])
  | address index =>
      Coroutine.act fun world =>
        match ((fragmentView ofPlatform).get world).address index with
        | .ok start => .ok (.number start.toNat) world
        | .error cause => .error cause world

/-- Keep a page list under a name, or forget it. -/
def keepList (id : String) (list : Option PageList) : Action World Unit :=
  onBench fun bench =>
    { bench with lists := fun other => if other = id then list else bench.lists other }

/-- A page list as it stands in memory, as an answer. -/
def listReply (list : Option PageList) : Action World Reply :=
  look fun world =>
    match list with
    | some list => .pageList (PageListView.of world.board.device list)
    | none => .nothing

/-- Perform an operation on page lists. -/
def ListOp.perform (setting : Setting) : ListOp → Code Reply
  | create id buffer length direction => do
      let busOf := setting.script.addressMap.busAddress
      let result ← setting.waiting
        ((PageList.create busOf buffer length direction).zoom listView)
      match result with
      | .error e => return .refused (.pageList e)
      | .ok list => do
          Coroutine.act (keepList id (some list))
          Coroutine.act (listReply (some list))
  | finish id actual => do
      match ← Coroutine.act (look fun world => world.outside.lists id) with
      | none => return .nothing
      | some list => do
          Coroutine.act (keepList id none)
          setting.waiting ((PageList.finish list actual).zoom listView)
          return .nothing
  | view id => do
      let list ← Coroutine.act (look fun world => world.outside.lists id)
      Coroutine.act (listReply list)

/-! ## The engine and the firmware of a script -/

/-- Record a call of the engine. -/
def noteEngine (call : EngineCall) : Action World Unit :=
  note fun task => .engine task call

/-- The engine sets its state on this side up. -/
def setUpEngineState (script : EngineScript) : Action World TransferStatus := do
  let counter ← look fun world => world.platform.engineState
  noteEngine (.initEngineState counter)
  Kernel.updatePlatform fun platform => { platform with engineState := counter + 1 }
  return script.engineState

/-- The firmware is told where the slots are. -/
def initFirmware (script : FirmwareScript) (base : UInt32) :
    Action World (Except MailboxError UInt32) := do
  note fun task => .firmware task base
  match script with
  | .answers status => return .ok status
  | .fails error => return .error error
  | .simulated setup => initTransfersWith setup base

/-- The engine lays its slots out. -/
def initSlots (script : EngineScript) (start size : UInt64) : Action World (Option UInt64) := do
  noteEngine (.initSlots start size)
  match script.slots with
  | none => return none
  | some offset => return some (start + offset)

/-- The engine sets its state up. -/
def initEngine (script : EngineScript) : Action World TransferStatus := do
  noteEngine .initState
  if script.setsEngineState then
    let status ← Kernel.initEngineState (setUpEngineState script)
    noteEngine (.platformState status)
  return script.initState

/-- The engine of a script, with its firmware. -/
def engineOf (script : Script) : Engine Handler Bench where
  initSlots := initSlots script.engine
  initState := initEngine script.engine
  callConnected := noteEngine .connected
  initFirmware := initFirmware script.firmware

/-! ## The transfer platform -/

/-- Bring the platform up with the device of the world. -/
def bringUp (script : Script) : Action World Reply := do
  let device ← look fun world => world.outside.device
  match ← Kernel.bringUp (engineOf script) .platform device with
  | .ok () => return .nothing
  | .error e => return .refused (.platform e)

/-- Keep an event under its number and answer with it. -/
def keepEvent (index : Nat) (event : RemoteEvent) : Action World Reply := do
  onBench fun bench => { bench with events := bench.events.setIfInBounds index event }
  return .event event

/-- Keep a transfer under its name. -/
def keepBulk (id : String) (bulk : Bulk) : Action World Unit :=
  onBench fun bench =>
    { bench with bulks := fun other => if other = id then some bulk else bench.bulks other }

/-- A transfer as it stands in memory. -/
def bulkView (bulk : Bulk) : Action World BulkView :=
  look fun world => BulkView.of world.board.device bulk

/-- Work on the transfer with a name; there is no answer if there is none. -/
def onBulk (id : String) (code : Bulk → Code Reply) : Code Reply := do
  match ← Coroutine.act (look fun world => world.outside.bulks id) with
  | none => return .nothing
  | some bulk => code bulk

/-- Keep a transfer and answer with it and a status. -/
def bulkReply (id : String) (status : Option TransferStatus) (bulk : Bulk) : Code Reply := do
  Coroutine.act (keepBulk id bulk)
  let view ← Coroutine.act (bulkView bulk)
  return .bulkStatus status view

/-- Perform an operation on the transfer platform. -/
def PlatformOp.perform (setting : Setting) : PlatformOp → Code Reply
  | bringUp => Coroutine.act (Script.bringUp setting.script)
  | serveDoorbell => do
      let result ← Kernel.serveDoorbell (pollEngine setting)
      return .irqReturn result
  | setEvent index event => Coroutine.act (keepEvent index event)
  | signal index =>
      Coroutine.act do
        let event ← look fun world => world.outside.events.getD index {}
        keepEvent index (← Kernel.signal event)
  | initEngineState => do
      let status ← Coroutine.act
        (Kernel.initEngineState (setUpEngineState setting.script.engine))
      return .number status.number
  | engineState => do
      let counter ← Coroutine.act Kernel.engineState
      return .number counter.toNat
  | suspend => return .number Kernel.suspend.number
  | resume => return .number Kernel.resume.number
  | power => return .power Kernel.videoCoreWanted Kernel.usesSuspendTimer
  | describe => return .text Kernel.describePlatform
  | reportUse => do
      Coroutine.act Kernel.reportUse
      return .nothing
  | bulkNew id direction size =>
      Coroutine.act do
        let bulk : Bulk := { size, direction }
        keepBulk id bulk
        return .bulk (← bulkView bulk)
  | bulkActual id actual =>
      onBulk id fun bulk => bulkReply id none { bulk with actual }
  | bulkPrepare id handle buffer size direction =>
      onBulk id fun bulk => do
        let busOf := setting.script.addressMap.busAddress
        let (status, prepared) ←
          Kernel.prepareBulk busOf bulk handle buffer size direction
        onBulk id fun now =>
          bulkReply id (some status)
            (if status = .success then
              { now with handle, data := prepared.data, pageList := prepared.pageList }
            else now)
  | bulkComplete id =>
      onBulk id fun bulk => do
        let completed ← Kernel.completeBulk bulk
        bulkReply id none completed
  | bulkTransfer id =>
      onBulk id fun _ =>
        Coroutine.act fun world =>
          match (Kernel.transferBulk : Except Fault Reply) with
          | .ok reply => .ok reply world
          | .error cause => .error cause world

end DriverHost.Script
