import DriverHost.Proofs.RequestLayout

/-!
# Fresh answers

The buffer of the mailbox is used again for every call, and holds the answer of the last one when
the next request is written.  The firmware sees the words of the request and writes what it likes
whenever a register is touched.  Two calls that differ in nothing but what the buffer held before
are the same to the firmware and come to the same answer, and an answer that is a value was given
during the call: its code and its flag were written after the request was.

Main results:

- Structure `Firmware`: any firmware, with definition `Firmware.link`: the mailbox in front of it.
- Structure `SharedBuffer.Alike`: buffers that the firmware cannot tell apart.
- Structure `SharedBuffer.Passes`: what has passed explains what a buffer holds.
- Theorem `Mailbox.answers_are_fresh`: two calls with different buffers, and where the answer of a
  call comes from.
-/

namespace DriverHost

variable {ρ σ α β : Type}

/-! ## Firmware -/

/-- A word that the firmware puts into the buffer. -/
structure BufferWrite where
  index : Fin 8
  value : UInt32
deriving DecidableEq

/-- Firmware with a state of its own.  Whenever a register is touched it sees the words of the
request and may write any words of the buffer. -/
structure Firmware (ρ : Type) where
  /-- The status register is read. -/
  status : List UInt32 → ρ → UInt32 × List BufferWrite × ρ
  /-- The register for words from the firmware is read. -/
  receive : List UInt32 → ρ → UInt32 × List BufferWrite × ρ
  /-- A word is sent to the firmware. -/
  accept : UInt32 → List UInt32 → ρ → List BufferWrite × ρ

/-- What passes between the driver and the firmware. -/
inductive Passed where
  /-- The driver sent a word, with these words in the request. -/
  | sent (word : UInt32) (request : List UInt32)
  /-- The firmware wrote into the buffer. -/
  | wrote (write : BufferWrite)
  /-- The firmware sent a word. -/
  | cameBack (word : UInt32)
deriving DecidableEq

/-- A buffer of eight words in front of firmware, with all that has passed. -/
structure SharedBuffer (ρ : Type) where
  words : Vector UInt32 8
  state : ρ
  history : List Passed := []

namespace SharedBuffer

variable {shared first second : SharedBuffer ρ}

/-- The words of a request with one tag. -/
def request (shared : SharedBuffer ρ) : List UInt32 :=
  shared.words.toList.take 7

/-- The words of the request are those of the buffer. -/
theorem getElem?_request {index : Nat} (hindex : index < 7) :
    shared.request[index]? = some shared.words[index] := by
  simp [request, hindex]

/-- Put down what has passed. -/
def note (event : Passed) (shared : SharedBuffer ρ) : SharedBuffer ρ :=
  { shared with history := shared.history ++ [event] }

/-- The buffer after the firmware wrote into it. -/
def react (writes : List BufferWrite) (state : ρ) (shared : SharedBuffer ρ) : SharedBuffer ρ where
  words := writes.foldl (fun words write => words.set write.index write.value) shared.words
  state
  history := shared.history ++ writes.map .wrote

end SharedBuffer

/-- The registers and the buffer in front of firmware. -/
def Firmware.link (firmware : Firmware ρ) : MailboxLink (SharedBuffer ρ) where
  capacity := 8
  room := by decide
  word index shared := shared.words[index]?.getD 0
  setWord index value shared := { shared with words := shared.words.setIfInBounds index value }
  status shared :=
    let (value, writes, state) := firmware.status shared.request shared.state
    (value, shared.react writes state)
  receive shared :=
    let (value, writes, state) := firmware.receive shared.request shared.state
    (value, (shared.react writes state).note (.cameBack value))
  send word shared :=
    let (writes, state) := firmware.accept word shared.request shared.state
    (shared.note (.sent word shared.request)).react writes state

namespace Firmware

variable {firmware : Firmware ρ} {shared : SharedBuffer ρ}

theorem contents_link (firmware : Firmware ρ) (shared : SharedBuffer ρ) :
    firmware.link.contents shared = shared.words.toList := by
  apply List.ext_getElem
  · simp [WordStore.contents, link]
  · intro index hindex _
    simp only [WordStore.contents, link, List.length_map, List.length_range] at hindex
    simp [WordStore.contents, link, hindex]

/-- The words of the buffer are kept apart, and writing them is the driver's own doing. -/
theorem lawful_link (firmware : Firmware ρ) (state : ρ) (history : List Passed) :
    firmware.link.toWordStore.Lawful fun shared =>
      shared.state = state ∧ shared.history = history where
  valid_setWord := fun _ _ hvalid => hvalid
  word_setWord := by
    intro shared index other value _ hindex hother
    have hindex : index < 8 := hindex
    have hother : other < 8 := hother
    simp only [link, Vector.getElem?_setIfInBounds]
    by_cases hsame : index = other
    · subst hsame
      simp [hindex]
    · simp [hsame, Ne.symm hsame]

theorem word_link (firmware : Firmware ρ) (shared : SharedBuffer ρ) {index : Nat}
    (hindex : index < 8) : firmware.link.word index shared = shared.words[index] := by
  simp [link, hindex]

end Firmware

/-- A wait ends with the poll that finds the flag clear, or with the last one. -/
theorem Mailbox.waitClear_eq (link : MailboxLink σ) (flag : UInt32) (polls : Nat) (device : σ) :
    waitClear link flag polls device =
      if (link.status device).1 &&& flag = 0 then (true, (link.status device).2)
      else
        match polls with
        | 0 => (false, (link.status device).2)
        | polls + 1 => waitClear link flag polls (link.status device).2 := by
  cases polls <;> rfl

/-! ## Buffers that the firmware cannot tell apart -/

namespace SharedBuffer

/-- Two buffers hold the same request in front of firmware in the same state, to which the same has
happened. -/
structure Alike (first second : SharedBuffer ρ) : Prop where
  request : first.request = second.request
  state : first.state = second.state
  history : first.history = second.history

namespace Alike

variable {first second : SharedBuffer ρ}

/-- Buffers that are alike stay so when the same happens to both. -/
theorem note (halike : Alike first second) (event : Passed) :
    Alike (first.note event) (second.note event) :=
  ⟨halike.request, halike.state, congrArg (· ++ [event]) halike.history⟩

/-- The same writes leave the requests the same. -/
theorem react (halike : Alike first second) (writes : List BufferWrite) (state : ρ) :
    Alike (first.react writes state) (second.react writes state) := by
  refine ⟨?_, rfl, congrArg (· ++ writes.map Passed.wrote) halike.history⟩
  have hrequest := halike.request
  simp only [SharedBuffer.request, SharedBuffer.react] at hrequest ⊢
  generalize first.words = words at hrequest
  generalize second.words = others at hrequest
  induction writes generalizing words others with
  | nil => exact hrequest
  | cons write writes ih =>
    apply ih
    simp only [Vector.toList_set, List.take_set, hrequest]

/-- Buffers that are alike agree on the seven words of the request. -/
theorem words (halike : Alike first second) {index : Nat} (hindex : index < 7) :
    first.words[index] = second.words[index] := by
  apply Option.some.inj
  rw [← getElem?_request hindex, ← getElem?_request hindex, halike.request]

/-- A read of the status register cannot tell buffers that are alike apart. -/
theorem status (halike : Alike first second) (firmware : Firmware ρ) :
    (firmware.link.status first).1 = (firmware.link.status second).1 ∧
      Alike (firmware.link.status first).2 (firmware.link.status second).2 := by
  simp only [Firmware.link, halike.request, halike.state]
  exact ⟨trivial, halike.react _ _⟩

/-- A read of the mailbox cannot tell buffers that are alike apart. -/
theorem receive (halike : Alike first second) (firmware : Firmware ρ) :
    (firmware.link.receive first).1 = (firmware.link.receive second).1 ∧
      Alike (firmware.link.receive first).2 (firmware.link.receive second).2 := by
  simp only [Firmware.link, halike.request, halike.state]
  exact ⟨trivial, (halike.react _ _).note _⟩

/-- A write to the mailbox leaves buffers alike that were. -/
theorem send (halike : Alike first second) (firmware : Firmware ρ) (word : UInt32) :
    Alike (firmware.link.send word first) (firmware.link.send word second) := by
  simp only [Firmware.link, halike.request, halike.state]
  exact (halike.note _).react _ _

/-- A wait for the register takes the same polls on both. -/
theorem waitClear (halike : Alike first second) (firmware : Firmware ρ) (flag : UInt32)
    (polls : Nat) :
    (Mailbox.waitClear firmware.link flag polls first).1 =
        (Mailbox.waitClear firmware.link flag polls second).1 ∧
      Alike (Mailbox.waitClear firmware.link flag polls first).2
        (Mailbox.waitClear firmware.link flag polls second).2 := by
  induction polls generalizing first second with
  | zero =>
    obtain ⟨hvalue, hafter⟩ := halike.status firmware
    rw [Mailbox.waitClear_eq, Mailbox.waitClear_eq, hvalue]
    split <;> exact ⟨rfl, hafter⟩
  | succ polls ih =>
    obtain ⟨hvalue, hafter⟩ := halike.status firmware
    rw [Mailbox.waitClear_eq, Mailbox.waitClear_eq, hvalue]
    split
    · exact ⟨rfl, hafter⟩
    · exact ih hafter

end Alike

/-- Two boards with the same console whose buffers the firmware cannot tell apart. -/
structure BoardsAlike (first second : Board (SharedBuffer ρ)) : Prop where
  console : first.console = second.console
  device : Alike first.device second.device

end SharedBuffer

/-- Two ends of a run are the same but for a relation between the states. -/
def SameEnd (relation : σ → σ → Prop) :
    EStateM.Result Fault σ α → EStateM.Result Fault σ α → Prop
  | .ok value first, .ok other second => value = other ∧ relation first second
  | .error cause first, .error other second => cause = other ∧ relation first second
  | _, _ => False

/-- What two runs end in alike, and then go on with alike, they end in alike. -/
theorem SameEnd.bind {before after : σ → σ → Prop} {action : Action σ α} {next : α → Action σ β}
    {first second : σ} (haction : SameEnd before (action first) (action second))
    (hfault : ∀ first second, before first second → after first second)
    (hnext : ∀ value first second, before first second →
      SameEnd after (next value first) (next value second)) :
    SameEnd after ((action >>= next) first) ((action >>= next) second) := by
  cases hfirst : action first with
  | ok value reached =>
    cases hsecond : action second with
    | ok other taken =>
      rw [hfirst, hsecond] at haction
      obtain ⟨rfl, hbefore⟩ := haction
      rw [Action.bind_of_ok hfirst, Action.bind_of_ok hsecond]
      exact hnext value reached taken hbefore
    | error cause stopped =>
      rw [hfirst, hsecond] at haction
      exact haction.elim
  | error cause reached =>
    cases hsecond : action second with
    | ok other taken =>
      rw [hfirst, hsecond] at haction
      exact haction.elim
    | error other taken =>
      rw [hfirst, hsecond] at haction
      rw [Action.bind_of_error hfirst, Action.bind_of_error hsecond]
      exact ⟨haction.1, hfault _ _ haction.2⟩

/-! ## Two calls -/

namespace Mailbox

/-- One wait for a word, and what becomes of a word that is skipped. -/
def awaitWord (mailbox : Mailbox σ) (channel : UInt32)
    (skipped : Action (Board σ) (Except MailboxError Unit)) (board : Board σ) :
    EStateM.Result Fault (Board σ) (Except MailboxError Unit) :=
  let (cleared, device) := waitClear mailbox.link emptyFlag patience board.device
  if cleared then
    let (word, device) := mailbox.link.receive device
    let board := { board with device }
    if mailbox.answers channel word then .ok (verdict (mailbox.link.word 1 device)) board
    else skipped board
  else
    .ok (.error .timeout)
      ({ board with device }.log .warning logSource "timed out waiting for mailbox response")

/-- Every buffer has room for its code, so reading the code meets no fault. -/
theorem onBuffer_readVerdict (mailbox : Mailbox σ) (board : Board σ) :
    onBuffer mailbox.readVerdict board =
      .ok (verdict (mailbox.link.word 1 board.device)) board := by
  have hfetch : mailbox.link.fetch 1 board.device =
      .ok (mailbox.link.word 1 board.device) board.device := if_pos mailbox.link.room
  have hread : mailbox.readVerdict board.device =
      .ok (verdict (mailbox.link.word 1 board.device)) board.device :=
    Action.bind_of_ok hfetch _
  rw [onBuffer, hread]

theorem awaitAnswer_zero (mailbox : Mailbox σ) (channel : UInt32) (board : Board σ) :
    mailbox.awaitAnswer channel 0 board =
      mailbox.awaitWord channel (fun board => .error .blocked board) board := by
  unfold awaitAnswer awaitWord
  simp only [onBuffer_readVerdict]
  generalize waitClear mailbox.link emptyFlag patience board.device = waited
  obtain ⟨cleared, device⟩ := waited
  cases cleared <;> rfl

/-- A wait for the answer is a wait for one word that goes on with the next if the word is foreign.
-/
theorem awaitAnswer_succ (mailbox : Mailbox σ) (channel : UInt32) (limit : Nat)
    (board : Board σ) :
    mailbox.awaitAnswer channel (limit + 1) board =
      mailbox.awaitWord channel (mailbox.awaitAnswer channel limit) board := by
  unfold awaitAnswer awaitWord
  simp only [onBuffer_readVerdict]
  generalize waitClear mailbox.link emptyFlag patience board.device = waited
  obtain ⟨cleared, device⟩ := waited
  cases cleared <;> rfl
open SharedBuffer

variable {first second : Board (SharedBuffer ρ)}

/-- Waiting for one word ends alike on boards that are alike, if what comes after a foreign word
does. -/
theorem sameEnd_awaitWord (firmware : Firmware ρ) (address channel : UInt32)
    {skipped : Action (Board (SharedBuffer ρ)) (Except MailboxError Unit)}
    (hskipped : ∀ {first second}, BoardsAlike first second →
      SameEnd BoardsAlike (skipped first) (skipped second))
    (halike : BoardsAlike first second) :
    SameEnd BoardsAlike (awaitWord ⟨firmware.link, address⟩ channel skipped first)
      (awaitWord ⟨firmware.link, address⟩ channel skipped second) := by
  obtain ⟨hcleared, hwaited⟩ := halike.device.waitClear firmware emptyFlag patience
  unfold awaitWord
  simp only
  generalize waitClear firmware.link emptyFlag patience first.device = waited at hcleared hwaited
  generalize waitClear firmware.link emptyFlag patience second.device = other at hcleared hwaited
  obtain ⟨cleared, device⟩ := waited
  obtain ⟨_, left⟩ := other
  obtain rfl : cleared = _ := hcleared
  have hwaited : device.Alike left := hwaited
  cases cleared with
  | false =>
    refine ⟨rfl, ?_, hwaited⟩
    simp only [Board.log, halike.console]
  | true =>
    obtain ⟨hword, hreceived⟩ := hwaited.receive firmware
    simp only [if_true, hword]
    by_cases hanswers : answers ⟨firmware.link, address⟩ channel (firmware.link.receive left).1
    · rw [if_pos hanswers, if_pos hanswers]
      refine ⟨?_, halike.console, hreceived⟩
      rw [firmware.word_link _ (by decide), firmware.word_link _ (by decide),
        hreceived.words (by decide)]
    · rw [if_neg hanswers, if_neg hanswers]
      exact hskipped ⟨halike.console, hreceived⟩

/-- The same words come back, and the one that answers finds the same code. -/
theorem sameEnd_awaitAnswer (firmware : Firmware ρ) (address channel : UInt32) (limit : Nat)
    (halike : BoardsAlike first second) :
    SameEnd BoardsAlike (awaitAnswer ⟨firmware.link, address⟩ channel limit first)
      (awaitAnswer ⟨firmware.link, address⟩ channel limit second) := by
  induction limit generalizing first second with
  | zero =>
    rw [awaitAnswer_zero, awaitAnswer_zero]
    exact sameEnd_awaitWord firmware address channel (fun halike => ⟨rfl, halike⟩) halike
  | succ limit ih =>
    rw [awaitAnswer_succ, awaitAnswer_succ]
    exact sameEnd_awaitWord firmware address channel ih halike

/-- The line of the log that tells of a call. -/
def announcement (mailbox : Mailbox σ) (channel : UInt32) : String :=
  "Mailbox::write " ++ hexTextWide 8 mailbox.address.toNat ++ "/" ++ hexText channel.toNat

/-- A call announces itself, waits for the register, and then sends the buffer and waits for it. -/
theorem call_eq (mailbox : Mailbox σ) (limit : Nat) (channel : UInt32) (board : Board σ) :
    mailbox.call limit channel board =
      if (waitClear mailbox.link fullFlag patience board.device).1 then
        mailbox.awaitAnswer channel limit
          { console := board.console.log .debug logSource (mailbox.announcement channel)
            device := mailbox.link.send (mailbox.handOver channel)
              (waitClear mailbox.link fullFlag patience board.device).2 }
      else
        .ok (.error .timeout)
          { console := board.console.log .debug logSource (mailbox.announcement channel)
            device := (waitClear mailbox.link fullFlag patience board.device).2 } := by
  unfold call announcement
  generalize patience = polls
  simp only [Board.log]
  generalize waitClear mailbox.link fullFlag polls board.device = waited
  obtain ⟨cleared, device⟩ := waited
  cases cleared <;> rfl

/-- A whole call ends alike on boards that are alike. -/
theorem sameEnd_call (firmware : Firmware ρ) (address channel : UInt32) (limit : Nat)
    (halike : BoardsAlike first second) :
    SameEnd BoardsAlike (call ⟨firmware.link, address⟩ limit channel first)
      (call ⟨firmware.link, address⟩ limit channel second) := by
  obtain ⟨hcleared, hwaited⟩ := halike.device.waitClear firmware fullFlag patience
  rw [call_eq, call_eq, hcleared, halike.console]
  split
  · exact sameEnd_awaitAnswer firmware address channel limit ⟨rfl, hwaited.send firmware _⟩
  · exact ⟨rfl, rfl, hwaited⟩

/-- An action on the buffer ends on two boards as it does on their buffers. -/
theorem sameEnd_onBuffer {action : Action (SharedBuffer ρ) α}
    (hconsole : first.console = second.console)
    (haction : SameEnd Alike (action first.device) (action second.device)) :
    SameEnd BoardsAlike (onBuffer action first) (onBuffer action second) := by
  unfold onBuffer
  cases hfirst : action first.device <;> cases hsecond : action second.device <;>
    rw [hfirst, hsecond] at haction
  · exact ⟨haction.1, hconsole, haction.2⟩
  · exact haction.elim
  · exact haction.elim
  · exact ⟨haction.1, hconsole, haction.2⟩

/-- The words that a request overwrites are the words that the firmware sees. -/
theorem exists_prepared (firmware : Firmware ρ) (address base : UInt32) (shared : SharedBuffer ρ) :
    ∃ prepared : SharedBuffer ρ,
      prepare ⟨firmware.link, address⟩ base shared = .ok 2 prepared ∧
        prepared.request = 28 :: requestCode :: requestWords [base] ∧
        prepared.state = shared.state ∧ prepared.history = shared.history := by
  have hsmall : firmware.link.capacity < 2 ^ 30 := (by decide : 8 < 2 ^ 30)
  have hroom : 4 * [base].length + 3 ≤ firmware.link.capacity := (by decide : 4 * 1 + 3 ≤ 8)
  obtain ⟨size, written, hprepared, ⟨hstate, hhistory⟩, hsize, hcontents⟩ :=
    WordStore.contents_prepareAll (firmware.lawful_link shared.state shared.history) ⟨rfl, rfl⟩
      hsmall hroom
  have hwords : size = 28 := UInt32.toNat_inj.1 hsize
  refine ⟨written, ?_, ?_, hstate, hhistory⟩
  · rw [prepare_eq, Action.bind_of_ok hprepared]
    rfl
  · rw [firmware.contents_link] at hcontents
    rw [SharedBuffer.request, hcontents, hwords]
    simp [requestWords, tagWords]

/-- The answer to the tag behind the first two words. -/
theorem tagValue_two (firmware : Firmware ρ) (shared : SharedBuffer ρ) :
    tagValue firmware.link.toWordStore 2 shared =
      .ok (if shared.words[4] &&& answeredFlag = 0 then .error (.tagNotAnswered shared.words[2])
      else .ok shared.words[5]) shared := by
  have hfetch : ∀ index (hindex : index < 8), firmware.link.toWordStore.fetch index shared =
      .ok shared.words[index] shared := by
    intro index hindex
    rw [← firmware.word_link shared hindex]
    exact if_pos hindex
  have hflags : ensureWord (2 + 2) = .ok 4 := rfl
  have hfour : (4 : UInt64).toNat = 4 := rfl
  rw [tagValue, hflags, Action.bind_of_ok (Action.lift_eq_ok_iff.2 ⟨rfl, rfl⟩), hfour]
  rw [Action.bind_of_ok (hfetch 4 (by decide))]
  split
  · rw [Action.bind_of_ok (hfetch 2 (by decide))]
    rfl
  · rw [Action.bind_of_ok (hfetch (2 + 3) (by decide))]
    rfl

/-- What is left of a call for the memory of transfers once its request is written. -/
def answered (mailbox : Mailbox σ) (limit : Nat) :
    Action (Board σ) (Except MailboxError UInt32) := do
  match ← mailbox.call limit propertyChannel with
  | .error e => return .error e
  | .ok () => onBuffer (tagValue mailbox.link.toWordStore 2)

/-- Handing the slots over writes the request into the buffer and then makes the call, whatever the
buffer held. -/
theorem initTransfers_eq (firmware : Firmware ρ) (address : UInt32) (limit : Nat) (base : UInt32)
    (board : Board (SharedBuffer ρ)) :
    ∃ prepared : SharedBuffer ρ,
      prepared.request = 28 :: requestCode :: requestWords [base] ∧
        prepared.state = board.device.state ∧ prepared.history = board.device.history ∧
        initTransfers ⟨firmware.link, address⟩ limit base board =
          answered ⟨firmware.link, address⟩ limit { board with device := prepared } := by
  obtain ⟨prepared, hprepare, hrequest, hstate, hhistory⟩ :=
    exists_prepared firmware address base board.device
  have hboard : onBuffer (prepare ⟨firmware.link, address⟩ base) board =
      .ok 2 { board with device := prepared } := by
    rw [onBuffer, hprepare]
  refine ⟨prepared, hrequest, hstate, hhistory, ?_⟩
  rw [initTransfers, Action.bind_of_ok hboard]
  rfl

/-- Calls from two boards that differ in their buffers only end in the same way. -/
theorem sameEnd_initTransfers (firmware : Firmware ρ) (address : UInt32) (limit : Nat)
    (base : UInt32) (hconsole : first.console = second.console)
    (hstate : first.device.state = second.device.state)
    (hhistory : first.device.history = second.device.history) :
    SameEnd BoardsAlike (initTransfers ⟨firmware.link, address⟩ limit base first)
      (initTransfers ⟨firmware.link, address⟩ limit base second) := by
  obtain ⟨prepared, hrequest, hkept, hpassed, hfirst⟩ :=
    initTransfers_eq firmware address limit base first
  obtain ⟨other, hsame, hleft, hbefore, hsecond⟩ :=
    initTransfers_eq firmware address limit base second
  have hprepared : BoardsAlike { first with device := prepared } { second with device := other } :=
    ⟨hconsole, hrequest.trans hsame.symm, hkept.trans (hstate.trans hleft.symm),
      hpassed.trans (hhistory.trans hbefore.symm)⟩
  rw [hfirst, hsecond, answered]
  refine (sameEnd_call firmware address propertyChannel limit hprepared).bind
    (fun _ _ halike => halike) fun verdict left right halike => ?_
  cases verdict with
  | error e => exact ⟨rfl, halike⟩
  | ok _ =>
    refine sameEnd_onBuffer halike.console ?_
    rw [tagValue_two, tagValue_two, halike.device.words (by decide : 4 < 7),
      halike.device.words (by decide : 2 < 7), halike.device.words (by decide : 5 < 7)]
    exact ⟨rfl, halike.device⟩

end Mailbox

/-! ## What has passed -/

/-- The word that the firmware wrote last at an index. -/
def lastWritten (during : List Passed) (index : Fin 8) : Option UInt32 :=
  (during.filterMap fun
    | .wrote write => if write.index = index then some write.value else none
    | _ => none).getLast?

/-- The words that the firmware sent. -/
def returns (during : List Passed) : List UInt32 :=
  during.filterMap fun
    | .cameBack word => some word
    | _ => none

/-- The last write to a word is in the later part of the writes if there is any. -/
theorem lastWritten_append (first second : List Passed) (index : Fin 8) :
    lastWritten (first ++ second) index =
      (lastWritten second index).or (lastWritten first index) := by
  rw [lastWritten, List.filterMap_append, List.getLast?_append, lastWritten, lastWritten]

@[simp] theorem returns_append (first second : List Passed) :
    returns (first ++ second) = returns first ++ returns second :=
  List.filterMap_append

/-- What the firmware writes into the buffer is not a word from the mailbox. -/
@[simp] theorem returns_writes (writes : List BufferWrite) :
    returns (writes.map .wrote) = [] := by
  simp [returns]

namespace SharedBuffer

/-- The buffer holds what the firmware wrote since, and elsewhere what it held before. -/
structure Passes (before : SharedBuffer ρ) (during : List Passed) (after : SharedBuffer ρ) :
    Prop where
  history : after.history = before.history ++ during
  words : ∀ index : Fin 8,
    after.words[index] = (lastWritten during index).getD before.words[index]

namespace Passes

variable {shared before between after : SharedBuffer ρ} {first second during : List Passed}

theorem refl (shared : SharedBuffer ρ) : Passes shared [] shared :=
  ⟨(List.append_nil _).symm, fun _ => rfl⟩

/-- What passes in two stretches passes in the two together. -/
theorem trans (hfirst : Passes before first between) (hsecond : Passes between second after) :
    Passes before (first ++ second) after := by
  refine ⟨?_, fun index => ?_⟩
  · rw [hsecond.history, hfirst.history, List.append_assoc]
  · rw [hsecond.words, hfirst.words, lastWritten_append]
    cases lastWritten second index <;> rfl

theorem note (shared : SharedBuffer ρ) {event : Passed}
    (hevent : ∀ write, event ≠ .wrote write) : Passes shared [event] (shared.note event) := by
  refine ⟨rfl, fun index => ?_⟩
  cases event with
  | wrote write => exact absurd rfl (hevent write)
  | sent word request => rfl
  | cameBack word => rfl

/-- What passes in a reaction of the firmware is its writes. -/
theorem react (shared : SharedBuffer ρ) (writes : List BufferWrite) (state : ρ) :
    Passes shared (writes.map .wrote) (shared.react writes state) := by
  refine ⟨rfl, fun index => ?_⟩
  suffices hwords : ∀ words : Vector UInt32 8,
      (writes.foldl (fun words write => words.set write.index write.value) words)[index] =
        (lastWritten (writes.map .wrote) index).getD words[index] from hwords shared.words
  induction writes with
  | nil => exact fun _ => rfl
  | cons write writes ih =>
    intro words
    have hwrites : (write :: writes).map Passed.wrote = [.wrote write] ++ writes.map .wrote := rfl
    rw [List.foldl_cons, ih, hwrites, lastWritten_append]
    cases lastWritten (writes.map .wrote) index with
    | some value => rfl
    | none =>
      simp only [lastWritten, Option.none_or, Option.getD_none]
      by_cases hindex : write.index = index
      · simp [hindex]
      · simp [hindex, Fin.val_inj]

variable (firmware : Firmware ρ)

/-- Reading the status register brings no word from the mailbox. -/
theorem status (shared : SharedBuffer ρ) :
    ∃ during, Passes shared during (firmware.link.status shared).2 ∧ returns during = [] :=
  ⟨_, react _ _ _, returns_writes _⟩

/-- Reading the mailbox brings exactly the word that the read returns. -/
theorem receive (shared : SharedBuffer ρ) :
    ∃ during, Passes shared during (firmware.link.receive shared).2 ∧
      returns during = [(firmware.link.receive shared).1] := by
  refine ⟨_, (react _ _ _).trans (note _ fun write hwrite => by cases hwrite), ?_⟩
  rw [returns_append, returns_writes]
  rfl

/-- Writing to the mailbox brings no word from it. -/
theorem send (shared : SharedBuffer ρ) (word : UInt32) :
    ∃ during, Passes shared during (firmware.link.send word shared) ∧ returns during = [] := by
  refine ⟨_, (note _ fun write hwrite => by cases hwrite).trans (react _ _ _), ?_⟩
  rw [returns_append, returns_writes]
  rfl

/-- However long the wait for a flag is, it brings no word from the mailbox. -/
theorem waitClear (flag : UInt32) (polls : Nat) (shared : SharedBuffer ρ) :
    ∃ during, Passes shared during (Mailbox.waitClear firmware.link flag polls shared).2 ∧
      returns during = [] := by
  induction polls generalizing shared with
  | zero =>
    obtain ⟨during, hpasses, hnone⟩ := status firmware shared
    rw [Mailbox.waitClear_eq]
    split <;> exact ⟨during, hpasses, hnone⟩
  | succ polls ih =>
    obtain ⟨during, hpasses, hnone⟩ := status firmware shared
    rw [Mailbox.waitClear_eq]
    split
    · exact ⟨during, hpasses, hnone⟩
    · obtain ⟨later, hlater, hstill⟩ := ih (firmware.link.status shared).2
      exact ⟨during ++ later, hpasses.trans hlater, by simp [hnone, hstill]⟩

end Passes

end SharedBuffer

/-! ## Where an answer comes from -/

namespace Mailbox

open SharedBuffer

variable {mailbox : Mailbox (SharedBuffer ρ)} {channel : UInt32} {count : Nat}
  {board : Board (SharedBuffer ρ)}

/-- How a wait for the buffer ends: with the verdict on the code that is found when it comes back,
without an answer, or with the last of a number of words for others. -/
def Waited (mailbox : Mailbox (SharedBuffer ρ)) (channel : UInt32) (count : Nat)
    (board : Board (SharedBuffer ρ)) :
    EStateM.Result Fault (Board (SharedBuffer ρ)) (Except MailboxError Unit) → Prop
  | .ok answer last => ∃ during, Passes board.device during last.device ∧
      ((∃ word ∈ returns during, mailbox.answers channel word = true) ∧
          answer = verdict last.device.words[1] ∨
        (∀ word ∈ returns during, mailbox.answers channel word = false) ∧ answer = .error .timeout)
  | .error cause last => cause = .blocked ∧ ∃ during, Passes board.device during last.device ∧
      (returns during).length = count ∧
        ∀ word ∈ returns during, mailbox.answers channel word = false

/-- What came before a wait and answered nothing is a part of it. -/
theorem Waited.behind {shared : SharedBuffer ρ} {before : List Passed}
    {result : EStateM.Result Fault (Board (SharedBuffer ρ)) (Except MailboxError Unit)}
    (hbefore : Passes shared before board.device)
    (hforeign : ∀ word ∈ returns before, mailbox.answers channel word = false)
    (hwaited : Waited mailbox channel count board result) (console : Console) :
    Waited mailbox channel ((returns before).length + count) ⟨console, shared⟩ result := by
  cases result with
  | ok answer last =>
    obtain ⟨during, hpasses, hends⟩ := hwaited
    refine ⟨before ++ during, hbefore.trans hpasses, ?_⟩
    rw [returns_append]
    rcases hends with ⟨⟨word, hword, hanswers⟩, hanswer⟩ | ⟨hnone, hanswer⟩
    · exact Or.inl ⟨⟨word, List.mem_append_right _ hword, hanswers⟩, hanswer⟩
    · exact Or.inr ⟨List.forall_mem_append.2 ⟨hforeign, hnone⟩, hanswer⟩
  | error cause last =>
    obtain ⟨hblocked, during, hpasses, hcount, hnone⟩ := hwaited
    refine ⟨hblocked, before ++ during, hbefore.trans hpasses, ?_, ?_⟩
    · rw [returns_append, List.length_append, hcount]
    · rw [returns_append]
      exact List.forall_mem_append.2 ⟨hforeign, hnone⟩

/-- Waiting for one word accounts for the words that arrived meanwhile, one more than what comes
after it. -/
theorem waited_awaitWord (firmware : Firmware ρ) (address channel : UInt32)
    {skipped : Action (Board (SharedBuffer ρ)) (Except MailboxError Unit)}
    (hskipped : ∀ board, Waited ⟨firmware.link, address⟩ channel count board (skipped board))
    (board : Board (SharedBuffer ρ)) :
    Waited ⟨firmware.link, address⟩ channel (1 + count) board
      (awaitWord ⟨firmware.link, address⟩ channel skipped board) := by
  obtain ⟨during, hpasses, hnone⟩ :=
    Passes.waitClear firmware emptyFlag patience board.device
  unfold awaitWord
  simp only
  generalize waitClear firmware.link emptyFlag patience board.device = waited at hpasses
  obtain ⟨cleared, device⟩ := waited
  have hpasses : Passes board.device during device := hpasses
  cases cleared with
  | false => exact ⟨during, hpasses, Or.inr ⟨by simp [hnone], rfl⟩⟩
  | true =>
    obtain ⟨later, hreceived, hword⟩ := Passes.receive firmware device
    have hall : returns (during ++ later) = [(firmware.link.receive device).1] := by
      rw [returns_append, hnone, hword, List.nil_append]
    simp only [if_true]
    by_cases hanswers : answers ⟨firmware.link, address⟩ channel (firmware.link.receive device).1
    · rw [if_pos hanswers]
      refine ⟨during ++ later, hpasses.trans hreceived, Or.inl ⟨⟨_, ?_, hanswers⟩, ?_⟩⟩
      · rw [hall]
        exact List.mem_singleton_self _
      · rw [firmware.word_link _ (by decide)]
    · rw [if_neg hanswers]
      have hforeign : ∀ word ∈ returns (during ++ later),
          answers ⟨firmware.link, address⟩ channel word = false := by
        rw [hall, List.forall_mem_singleton]
        exact Bool.not_eq_true _ ▸ hanswers
      have hbehind := (hskipped { board with device := (firmware.link.receive device).2 }).behind
        (hpasses.trans hreceived) hforeign board.console
      rw [hall] at hbehind
      exact hbehind

/-- A wait skips the words for others one by one. -/
theorem waited_awaitAnswer (firmware : Firmware ρ) (address channel : UInt32) (limit : Nat)
    (board : Board (SharedBuffer ρ)) :
    Waited ⟨firmware.link, address⟩ channel (1 + limit) board
      (awaitAnswer ⟨firmware.link, address⟩ channel limit board) := by
  induction limit generalizing board with
  | zero =>
    have hblocked : ∀ board : Board (SharedBuffer ρ),
        Waited ⟨firmware.link, address⟩ channel 0 board (.error .blocked board) :=
      fun board => ⟨rfl, [], .refl _, rfl, by simp [returns]⟩
    rw [awaitAnswer_zero]
    exact waited_awaitWord firmware address channel hblocked board
  | succ limit ih =>
    rw [awaitAnswer_succ, Nat.add_comm limit 1]
    exact waited_awaitWord firmware address channel ih board

/-- A call accounts for every word that arrived during it. -/
theorem waited_call (firmware : Firmware ρ) (address channel : UInt32) (limit : Nat)
    (board : Board (SharedBuffer ρ)) :
    Waited ⟨firmware.link, address⟩ channel (1 + limit) board
      (call ⟨firmware.link, address⟩ limit channel board) := by
  obtain ⟨during, hpasses, hnone⟩ := Passes.waitClear firmware fullFlag patience board.device
  rw [call_eq]
  split
  · obtain ⟨sent, hsent, hsilent⟩ := Passes.send firmware
      (waitClear firmware.link fullFlag patience board.device).2
      (handOver ⟨firmware.link, address⟩ channel)
    have hquiet : returns (during ++ sent) = [] := by simp [hnone, hsilent]
    have hbehind := (waited_awaitAnswer firmware address channel limit
      { console :=
          board.console.log .debug logSource (announcement ⟨firmware.link, address⟩ channel)
        device := firmware.link.send (handOver ⟨firmware.link, address⟩ channel)
          (waitClear firmware.link fullFlag patience board.device).2 }).behind
        (hpasses.trans hsent) (by simp [hquiet]) board.console
    rw [hquiet, List.length_nil, Nat.zero_add] at hbehind
    exact hbehind
  · exact ⟨during, hpasses, Or.inr ⟨by simp [hnone], rfl⟩⟩

/-- What the words of a buffer that came back mean for the call. -/
def judged (shared : SharedBuffer ρ) : Except MailboxError UInt32 :=
  match verdict shared.words[1] with
  | .error e => .error e
  | .ok () =>
      if shared.words[4] &&& answeredFlag = 0 then .error (.tagNotAnswered shared.words[2])
      else .ok shared.words[5]

/-- An answer counts as a success only with the code for one. -/
theorem verdict_eq_ok_iff {code : UInt32} : verdict code = .ok () ↔ code = successCode := by
  unfold verdict
  split
  · next hcode => simp [hcode]
  · next hcode => split <;> simp [hcode]

/-- A call ends as its wait does, with the words of the buffer judged. -/
theorem answered_ends (firmware : Firmware ρ) (address : UInt32) (limit : Nat)
    (board : Board (SharedBuffer ρ)) :
    match answered ⟨firmware.link, address⟩ limit board with
    | .ok answer last => ∃ during, Passes board.device during last.device ∧
        ((∃ word ∈ returns during,
              answers ⟨firmware.link, address⟩ propertyChannel word = true) ∧
            answer = judged last.device ∨
          (∀ word ∈ returns during,
              answers ⟨firmware.link, address⟩ propertyChannel word = false) ∧
            answer = .error .timeout)
    | .error _ last => ∃ during, Passes board.device during last.device ∧
        (returns during).length = 1 + limit ∧ ∀ word ∈ returns during,
          answers ⟨firmware.link, address⟩ propertyChannel word = false := by
  have hwaited := waited_call firmware address propertyChannel limit board
  rw [answered]
  cases hcall : call ⟨firmware.link, address⟩ limit propertyChannel board with
  | error cause last =>
    rw [hcall] at hwaited
    rw [Action.bind_of_error hcall]
    exact hwaited.2
  | ok found last =>
    rw [hcall] at hwaited
    rw [Action.bind_of_ok hcall]
    obtain ⟨during, hpasses, hends⟩ := hwaited
    cases found with
    | error e =>
      refine ⟨during, hpasses, ?_⟩
      rcases hends with ⟨hback, hverdict⟩ | ⟨hnone, htimeout⟩
      · refine Or.inl ⟨hback, ?_⟩
        rw [judged, ← hverdict]
      · cases htimeout
        exact Or.inr ⟨hnone, rfl⟩
    | ok _ =>
      rcases hends with ⟨hback, hverdict⟩ | ⟨-, htimeout⟩
      · simp only [onBuffer, tagValue_two firmware last.device]
        refine ⟨during, hpasses, Or.inl ⟨hback, ?_⟩⟩
        rw [judged, ← hverdict]
      · cases htimeout

/-- A value is read from words that the firmware wrote since the request was. -/
theorem lastWritten_of_judged {base : UInt32} {prepared last : SharedBuffer ρ}
    {during : List Passed} {value : UInt32}
    (hrequest : prepared.request = 28 :: requestCode :: requestWords [base])
    (hpasses : Passes prepared during last) (hjudged : judged last = .ok value) :
    lastWritten during 1 = some successCode ∧
      (∃ flags, lastWritten during 4 = some flags ∧ flags &&& answeredFlag ≠ 0) ∧
      value = last.words[5] := by
  -- The request has neither the code nor the flag, so both were written behind it.
  have hcode : prepared.words[1] = requestCode := by
    apply Option.some.inj
    rw [← getElem?_request (by decide), hrequest]
    rfl
  have hflags : prepared.words[4] = 4 := by
    apply Option.some.inj
    rw [← getElem?_request (by decide), hrequest]
    rfl
  have hfirst : last.words[1] = (lastWritten during 1).getD prepared.words[1] := hpasses.words 1
  have hfourth : last.words[4] = (lastWritten during 4).getD prepared.words[4] := hpasses.words 4
  rw [judged] at hjudged
  cases hverdict : verdict last.words[1] with
  | error e => simp [hverdict] at hjudged
  | ok _ =>
    have hsuccess := verdict_eq_ok_iff.1 hverdict
    simp only [hverdict] at hjudged
    split at hjudged
    · cases hjudged
    · next hset =>
      cases hjudged
      rw [hfirst] at hsuccess
      rw [hfourth] at hset
      refine ⟨?_, ?_, rfl⟩
      · cases hwritten : lastWritten during 1 with
        | none =>
          rw [hwritten, Option.getD_none, hcode] at hsuccess
          exact absurd hsuccess (by decide)
        | some code =>
          rw [hwritten, Option.getD_some] at hsuccess
          rw [hsuccess]
      · cases hwritten : lastWritten during 4 with
        | none =>
          rw [hwritten, Option.getD_none, hflags] at hset
          exact absurd rfl hset
        | some flags =>
          rw [hwritten, Option.getD_some] at hset
          exact ⟨flags, rfl, hset⟩

/-- Firmware sees the same of two calls that differ in what the buffer held before, and they end in
the same way.  A value is returned only if the firmware has written the code of success and the
flag of the tag during the call, and it is then the word that follows the flag.  When the buffer
came back with the code but without the flag, the tag was not answered, and when it did not come
back the call timed out; a call that does not return has seen more words for others than it may
skip. -/
theorem answers_are_fresh (firmware : Firmware ρ) (address : UInt32) (limit : Nat) (base : UInt32)
    {first second : Board (SharedBuffer ρ)} (hconsole : first.console = second.console)
    (hstate : first.device.state = second.device.state)
    (hhistory : first.device.history = second.device.history) :
    let mailbox : Mailbox (SharedBuffer ρ) := ⟨firmware.link, address⟩
    SameEnd BoardsAlike (mailbox.initTransfers limit base first)
        (mailbox.initTransfers limit base second) ∧
      (∀ answer last, mailbox.initTransfers limit base first = .ok answer last →
        ∃ during, last.device.history = first.device.history ++ during ∧
          (∀ value, answer = .ok value → lastWritten during 1 = some successCode ∧
            (∃ flags, lastWritten during 4 = some flags ∧ flags &&& answeredFlag ≠ 0) ∧
            value = last.device.words[5]) ∧
          ((∃ word ∈ returns during, mailbox.answers propertyChannel word = true) →
            last.device.words[1] = successCode → last.device.words[4] &&& answeredFlag = 0 →
              answer = .error (.tagNotAnswered last.device.words[2])) ∧
          ((∀ word ∈ returns during, mailbox.answers propertyChannel word = false) →
            answer = .error .timeout)) ∧
      ∀ cause last, mailbox.initTransfers limit base first = .error cause last →
        ∃ during, last.device.history = first.device.history ++ during ∧
          limit < (returns during).length ∧
          ∀ word ∈ returns during, mailbox.answers propertyChannel word = false := by
  intro mailbox
  refine ⟨sameEnd_initTransfers firmware address limit base hconsole hstate hhistory, ?_⟩
  obtain ⟨prepared, hrequest, -, hpassed, hprepared⟩ :=
    initTransfers_eq firmware address limit base first
  have hends := answered_ends firmware address limit { first with device := prepared }
  rw [← hprepared] at hends
  refine ⟨fun answer last hanswer => ?_, fun cause last hfault => ?_⟩
  · rw [hanswer] at hends
    obtain ⟨during, hpasses, hends⟩ := hends
    have hhistory : last.device.history = first.device.history ++ during := by
      rw [hpasses.history, hpassed]
    refine ⟨during, hhistory, ?_, ?_, ?_⟩
    · rintro value rfl
      rcases hends with ⟨-, hjudged⟩ | ⟨-, htimeout⟩
      · exact lastWritten_of_judged hrequest hpasses hjudged.symm
      · cases htimeout
    · rintro ⟨word, hword, hmine⟩ hsuccess hclear
      rcases hends with ⟨-, hjudged⟩ | ⟨hnone, -⟩
      · rw [hjudged, judged, hsuccess, verdict_eq_ok_iff.2 rfl]
        exact if_pos hclear
      · rw [hnone word hword] at hmine
        cases hmine
    · intro hnone
      rcases hends with ⟨⟨word, hword, hmine⟩, -⟩ | ⟨-, htimeout⟩
      · rw [hnone word hword] at hmine
        cases hmine
      · exact htimeout
  · rw [hfault] at hends
    obtain ⟨during, hpasses, hcount, hnone⟩ := hends
    exact ⟨during, by rw [hpasses.history, hpassed], by omega, hnone⟩

/-- Firmware that answers every request by a zero and sends the word for it back at once. -/
def prompt : Firmware UInt32 where
  status _ word := (0, [], word)
  receive _ word := (word, [], word)
  accept word _ _ := ([⟨1, successCode⟩, ⟨4, 0x80000004⟩, ⟨5, 0⟩], word)

/-- A board with a buffer in front of that firmware. -/
def boardWith (words : Vector UInt32 8) : Board (SharedBuffer UInt32) where
  device := { words, state := 0 }

/-- The words of a call that was answered by a seven. -/
def answeredBuffer : Vector UInt32 8 :=
  #v[28, successCode, initTransfersTag, 4, 0x80000004, 7, 0, 0xdeadbeef]

/-- A buffer that holds a seven and a blank one both come to the zero that is written during the
call. -/
theorem answers_are_fresh_behind_seven :
    ∃ last, initTransfers ⟨prompt.link, 0x1000⟩ 0 0xc1c80000 (boardWith answeredBuffer) =
        .ok (.ok 0) last ∧
      (∃ during, last.device.history = during ∧ lastWritten during 1 = some successCode) ∧
      SameEnd BoardsAlike
        (initTransfers ⟨prompt.link, 0x1000⟩ 0 0xc1c80000 (boardWith answeredBuffer))
        (initTransfers ⟨prompt.link, 0x1000⟩ 0 0xc1c80000 (boardWith (Vector.replicate 8 0))) := by
  obtain ⟨last, hcall⟩ : ∃ last, initTransfers ⟨prompt.link, 0x1000⟩ 0 0xc1c80000
      (boardWith answeredBuffer) = .ok (.ok 0) last := ⟨_, rfl⟩
  have hconsole : (boardWith answeredBuffer).console =
      (boardWith (Vector.replicate 8 0)).console := rfl
  obtain ⟨hsame, hanswers, -⟩ := answers_are_fresh prompt 0x1000 0 0xc1c80000 hconsole rfl rfl
  obtain ⟨during, hhistory, hvalue, -⟩ := hanswers _ last hcall
  exact ⟨last, hcall, ⟨during, hhistory, (hvalue 0 rfl).1⟩, hsame⟩

end Mailbox

end DriverHost
