import DriverHost.Proofs.FreshAnswers

/-!
# The traffic on the registers of a mailbox

Every access that a call makes to the registers of the mailbox is traced.  The registers may behave
in any way; what a call sees of them is for how many polls each wait finds them busy, and which
words come back.  A call sends the word of its own buffer once, skips the words that answer other
calls, and accepts the first one that answers its own.  A wait that is busy for too long ends it.

Main results:

- Definition `MailboxLink.traced`: the registers, with each access traced.
- Structure `MailboxLink.ClearsAfter` and definition `MailboxLink.StaysBusy`: the two ways that a
  wait can go.
- Inductive relation `MailboxLink.Arrive`: words that come back one after the other.
- Structure `Mailbox.Others`: words for somebody else, each of them in time.
- Theorem `Mailbox.accepts_own_answer`: what a call returns, and every access that it makes.
-/

namespace DriverHost

variable {δ α : Type}

/-! ## Tracing accesses -/

/-- An access to the registers of a mailbox. -/
inductive Access where
  /-- The status was read. -/
  | polled
  /-- A word was sent. -/
  | sent (word : UInt32)
  /-- A word was received. -/
  | received (word : UInt32)
deriving DecidableEq

/-- What is behind the registers, with the accesses that were made. -/
structure Traced (δ : Type) where
  device : δ
  accesses : List Access := []

/-- The registers of a mailbox, with each access traced. -/
def MailboxLink.traced (link : MailboxLink δ) : MailboxLink (Traced δ) where
  capacity := link.capacity
  room := link.room
  word index traced := link.word index traced.device
  setWord index value traced := { traced with device := link.setWord index value traced.device }
  status traced :=
    ((link.status traced.device).1, ⟨(link.status traced.device).2, traced.accesses ++ [.polled]⟩)
  receive traced :=
    ((link.receive traced.device).1, ⟨(link.receive traced.device).2,
      traced.accesses ++ [.received (link.receive traced.device).1]⟩)
  send word traced := ⟨link.send word traced.device, traced.accesses ++ [.sent word]⟩

/-- A board whose registers are traced from now on. -/
def Board.traced (board : Board δ) : Board (Traced δ) :=
  { board with device := ⟨board.device, []⟩ }

/-- The board without the trace. -/
def Board.untraced (board : Board (Traced δ)) : Board δ :=
  { board with device := board.device.device }

/-- The end of a run without the trace. -/
def untracedEnd : EStateM.Result Fault (Board (Traced δ)) α → EStateM.Result Fault (Board δ) α
  | .ok value board => .ok value board.untraced
  | .error cause board => .error cause board.untraced

namespace Mailbox

/-- A mailbox whose registers are traced. -/
def traced (mailbox : Mailbox δ) : Mailbox (Traced δ) where
  link := mailbox.link.traced
  address := mailbox.address

/-- The trace changes nothing of a wait for a flag. -/
theorem waitClear_untraced (link : MailboxLink δ) (flag : UInt32) (polls : Nat)
    (traced : Traced δ) :
    waitClear link flag polls traced.device =
      ((waitClear link.traced flag polls traced).1,
        (waitClear link.traced flag polls traced).2.device) := by
  induction polls generalizing traced with
  | zero =>
    rw [waitClear_eq, waitClear_eq]
    by_cases hclear : (link.status traced.device).1 &&& flag = 0 <;>
      simp [MailboxLink.traced, hclear]
  | succ polls ih =>
    rw [waitClear_eq, waitClear_eq]
    by_cases hclear : (link.status traced.device).1 &&& flag = 0
    · simp [MailboxLink.traced, hclear]
    · have hbusy : ¬ (link.traced.status traced).1 &&& flag = 0 := hclear
      rw [if_neg hclear, if_neg hbusy]
      exact ih (link.traced.status traced).2

/-- The trace changes nothing about one wait for a word. -/
theorem untracedEnd_awaitWord (mailbox : Mailbox δ) (channel : UInt32)
    {skipped : Action (Board (Traced δ)) (Except MailboxError Unit)}
    {plain : Action (Board δ) (Except MailboxError Unit)}
    (hskipped : ∀ board, untracedEnd (skipped board) = plain board.untraced)
    (board : Board (Traced δ)) :
    untracedEnd (mailbox.traced.awaitWord channel skipped board) =
      mailbox.awaitWord channel plain board.untraced := by
  unfold awaitWord
  rw [Board.untraced, waitClear_untraced mailbox.link emptyFlag patience board.device]
  have hlink : mailbox.traced.link = mailbox.link.traced := rfl
  rw [hlink]
  generalize waitClear mailbox.link.traced emptyFlag patience board.device = waited
  obtain ⟨cleared, traced⟩ := waited
  cases cleared with
  | false => rfl
  | true =>
    simp only [if_true]
    by_cases hanswers : mailbox.answers channel (mailbox.link.receive traced.device).1 = true
    · have htraced : mailbox.traced.answers channel (mailbox.link.traced.receive traced).1 = true :=
        hanswers
      rw [if_pos hanswers, if_pos htraced]
      rfl
    · have htraced :
          ¬ mailbox.traced.answers channel (mailbox.link.traced.receive traced).1 = true :=
        hanswers
      rw [if_neg hanswers, if_neg htraced]
      exact hskipped _

/-- The trace changes nothing of a wait for the answer. -/
theorem untracedEnd_awaitAnswer (mailbox : Mailbox δ) (channel : UInt32) (limit : Nat)
    (board : Board (Traced δ)) :
    untracedEnd (mailbox.traced.awaitAnswer channel limit board) =
      mailbox.awaitAnswer channel limit board.untraced := by
  induction limit generalizing board with
  | zero =>
    rw [awaitAnswer_zero, awaitAnswer_zero]
    exact mailbox.untracedEnd_awaitWord channel (fun _ => rfl) board
  | succ limit ih =>
    rw [awaitAnswer_succ, awaitAnswer_succ]
    exact mailbox.untracedEnd_awaitWord channel ih board

/-- Without the trace, a call that is traced is the call. -/
theorem untracedEnd_call (mailbox : Mailbox δ) (channel : UInt32) (limit : Nat)
    (board : Board δ) :
    untracedEnd (mailbox.traced.call limit channel board.traced) =
      mailbox.call limit channel board := by
  rw [call_eq, call_eq]
  have hlink : mailbox.traced.link = mailbox.link.traced := rfl
  have hwait := waitClear_untraced mailbox.link fullFlag patience board.traced.device
  rw [hlink]
  change waitClear mailbox.link fullFlag patience board.device = _ at hwait
  rw [hwait]
  generalize waitClear mailbox.link.traced fullFlag patience board.traced.device = waited
  obtain ⟨cleared, traced⟩ := waited
  cases cleared with
  | false => rfl
  | true => exact mailbox.untracedEnd_awaitAnswer channel limit _

end Mailbox

/-! ## Waiting -/

namespace MailboxLink

variable {link : MailboxLink δ} {flag : UInt32} {device : δ} {busy polls : Nat}

/-- What is behind the registers after a poll of the status. -/
def polled (link : MailboxLink δ) (device : δ) : δ :=
  (link.status device).2

/-- A number of polls in a row find a flag set. -/
def StaysBusy (link : MailboxLink δ) (flag : UInt32) (polls : Nat) (device : δ) : Prop :=
  ∀ earlier < polls, (link.status (link.polled^[earlier] device)).1 &&& flag ≠ 0

/-- A flag is found clear after a number of polls that find it set. -/
structure ClearsAfter (link : MailboxLink δ) (flag : UInt32) (busy : Nat) (device : δ) : Prop where
  staysBusy : link.StaysBusy flag busy device
  clear : (link.status (link.polled^[busy] device)).1 &&& flag = 0

theorem StaysBusy.zero (link : MailboxLink δ) (flag : UInt32) (device : δ) :
    link.StaysBusy flag 0 device :=
  fun _ hearlier => absurd hearlier (Nat.not_lt_zero _)

/-- A flag that stays set for some polls is set now and stays so after this poll. -/
theorem staysBusy_succ : link.StaysBusy flag (polls + 1) device ↔
    (link.status device).1 &&& flag ≠ 0 ∧ link.StaysBusy flag polls (link.polled device) := by
  constructor
  · intro hbusy
    exact ⟨hbusy 0 (Nat.succ_pos _), fun earlier hearlier =>
      hbusy (earlier + 1) (Nat.succ_lt_succ hearlier)⟩
  · rintro ⟨hnow, hlater⟩ earlier hearlier
    cases earlier with
    | zero => exact hnow
    | succ earlier => exact hlater earlier (Nat.lt_of_succ_lt_succ hearlier)

theorem clearsAfter_zero : link.ClearsAfter flag 0 device ↔ (link.status device).1 &&& flag = 0 :=
  ⟨fun hclears => hclears.clear, fun hclear => ⟨.zero link flag device, hclear⟩⟩

/-- A flag that clears after some polls is set now and clears after one poll fewer. -/
theorem clearsAfter_succ : link.ClearsAfter flag (busy + 1) device ↔
    (link.status device).1 &&& flag ≠ 0 ∧ link.ClearsAfter flag busy (link.polled device) := by
  constructor
  · intro hclears
    obtain ⟨hnow, hlater⟩ := staysBusy_succ.1 hclears.staysBusy
    exact ⟨hnow, hlater, hclears.clear⟩
  · rintro ⟨hnow, hclears⟩
    exact ⟨staysBusy_succ.2 ⟨hnow, hclears.staysBusy⟩, hclears.clear⟩

/-- Within a number of polls the flag is found clear, or all of them find it set. -/
theorem clears_or_staysBusy (link : MailboxLink δ) (flag : UInt32) (polls : Nat) (device : δ) :
    (∃ busy < polls, link.ClearsAfter flag busy device) ∨ link.StaysBusy flag polls device := by
  induction polls generalizing device with
  | zero => exact Or.inr (.zero link flag device)
  | succ polls ih =>
    by_cases hclear : (link.status device).1 &&& flag = 0
    · exact Or.inl ⟨0, Nat.succ_pos _, clearsAfter_zero.2 hclear⟩
    · rcases ih (link.polled device) with ⟨busy, hbusy, hclears⟩ | hstays
      · exact Or.inl ⟨busy + 1, Nat.succ_lt_succ hbusy, clearsAfter_succ.2 ⟨hclear, hclears⟩⟩
      · exact Or.inr (staysBusy_succ.2 ⟨hclear, hstays⟩)

/-- A wait that is not busy for too long ends with the poll that finds the flag clear. -/
theorem ClearsAfter.waitClear (hclears : link.ClearsAfter flag busy device) (hbusy : busy ≤ polls)
    (accesses : List Access) :
    Mailbox.waitClear link.traced flag polls ⟨device, accesses⟩ =
      (true, ⟨link.polled^[busy + 1] device, accesses ++ List.replicate (busy + 1) .polled⟩) := by
  induction busy generalizing polls device accesses with
  | zero =>
    have hclear : (link.traced.status ⟨device, accesses⟩).1 &&& flag = 0 := hclears.clear
    rw [Mailbox.waitClear_eq, if_pos hclear]
    rfl
  | succ busy ih =>
    obtain ⟨hnow, hlater⟩ := clearsAfter_succ.1 hclears
    have hset : ¬ (link.traced.status ⟨device, accesses⟩).1 &&& flag = 0 := hnow
    rw [Mailbox.waitClear_eq, if_neg hset]
    match polls, hbusy with
    | polls + 1, hbusy =>
      refine (ih hlater (Nat.le_of_succ_le_succ hbusy) (accesses ++ [.polled])).trans ?_
      rw [List.append_assoc, List.singleton_append, ← List.replicate_succ]
      rfl

/-- A wait that is busy for too long is given up. -/
theorem StaysBusy.waitClear (hstays : link.StaysBusy flag (polls + 1) device)
    (accesses : List Access) :
    Mailbox.waitClear link.traced flag polls ⟨device, accesses⟩ =
      (false, ⟨link.polled^[polls + 1] device,
        accesses ++ List.replicate (polls + 1) .polled⟩) := by
  induction polls generalizing device accesses with
  | zero =>
    obtain ⟨hnow, -⟩ := staysBusy_succ.1 hstays
    have hset : ¬ (link.traced.status ⟨device, accesses⟩).1 &&& flag = 0 := hnow
    rw [Mailbox.waitClear_eq, if_neg hset]
    rfl
  | succ polls ih =>
    obtain ⟨hnow, hlater⟩ := staysBusy_succ.1 hstays
    have hset : ¬ (link.traced.status ⟨device, accesses⟩).1 &&& flag = 0 := hnow
    rw [Mailbox.waitClear_eq, if_neg hset]
    refine (ih hlater (accesses ++ [.polled])).trans ?_
    rw [List.append_assoc, List.singleton_append, ← List.replicate_succ]
    rfl

end MailboxLink

/-! ## Words that come back -/

/-- A word that comes back, and for how many polls the registers are busy before it. -/
structure Arrival where
  busy : Nat
  word : UInt32

/-- The accesses with which a word is received. -/
def Arrival.accesses (arrival : Arrival) : List Access :=
  List.replicate (arrival.busy + 1) .polled ++ [.received arrival.word]

namespace MailboxLink

/-- A word comes back, and the registers go on from there. -/
structure Delivers (link : MailboxLink δ) (arrival : Arrival) (device next : δ) : Prop where
  clears : link.ClearsAfter Mailbox.emptyFlag arrival.busy device
  receive : link.receive (link.polled^[arrival.busy + 1] device) = (arrival.word, next)

/-- Words come back one after the other. -/
inductive Arrive (link : MailboxLink δ) : List Arrival → δ → δ → Prop
  | nil {device} : link.Arrive [] device device
  | cons {arrival arrivals device between next} (hfirst : link.Delivers arrival device between)
      (hrest : link.Arrive arrivals between next) : link.Arrive (arrival :: arrivals) device next

end MailboxLink

namespace Mailbox

variable {mailbox : Mailbox δ} {channel : UInt32} {arrival : Arrival} {arrivals : List Arrival}
  {device next : δ} {console : Console} {accesses : List Access}
  {skipped : Action (Board (Traced δ)) (Except MailboxError Unit)}

/-- What one wait makes of a word that comes back in time. -/
theorem awaitWord_of_delivers (hdelivers : mailbox.link.Delivers arrival device next)
    (hbusy : arrival.busy ≤ patience) :
    mailbox.traced.awaitWord channel skipped ⟨console, ⟨device, accesses⟩⟩ =
      if mailbox.answers channel arrival.word then
        .ok (verdict (mailbox.link.word 1 next))
          ⟨console, ⟨next, accesses ++ arrival.accesses⟩⟩
      else skipped ⟨console, ⟨next, accesses ++ arrival.accesses⟩⟩ := by
  have hwait : waitClear mailbox.traced.link emptyFlag patience ⟨device, accesses⟩ = _ :=
    hdelivers.clears.waitClear hbusy accesses
  have hreceived : mailbox.traced.link.receive ⟨mailbox.link.polled^[arrival.busy + 1] device,
      accesses ++ List.replicate (arrival.busy + 1) .polled⟩ =
        (arrival.word, ⟨next, accesses ++ arrival.accesses⟩) := by
    simp only [traced, MailboxLink.traced, hdelivers.receive, Arrival.accesses, List.append_assoc]
  unfold awaitWord
  simp only [hwait, hreceived, if_true]
  rfl

/-- What one wait does that is busy for too long. -/
theorem awaitWord_of_staysBusy (hstays : mailbox.link.StaysBusy emptyFlag (patience + 1) device) :
    mailbox.traced.awaitWord channel skipped ⟨console, ⟨device, accesses⟩⟩ =
      .ok (.error .timeout)
        ⟨console.log .warning logSource "timed out waiting for mailbox response",
          ⟨mailbox.link.polled^[patience + 1] device,
            accesses ++ List.replicate (patience + 1) .polled⟩⟩ := by
  have hwait : waitClear mailbox.traced.link emptyFlag patience ⟨device, accesses⟩ = _ :=
    hstays.waitClear accesses
  unfold awaitWord
  simp only [hwait, Bool.false_eq_true, if_false]
  rfl

/-- Whatever the limit, one wait for a word comes first. -/
theorem exists_awaitWord (mailbox : Mailbox δ) (channel : UInt32) (limit : Nat)
    (board : Board δ) :
    ∃ skipped, mailbox.awaitAnswer channel limit board =
      mailbox.awaitWord channel skipped board := by
  cases limit with
  | zero => exact ⟨_, awaitAnswer_zero mailbox channel board⟩
  | succ limit => exact ⟨_, awaitAnswer_succ mailbox channel limit board⟩

/-- The word of the own call ends the wait. -/
theorem awaitAnswer_of_answer (hdelivers : mailbox.link.Delivers arrival device next)
    (hbusy : arrival.busy ≤ patience) (hanswers : mailbox.answers channel arrival.word = true)
    (limit : Nat) :
    mailbox.traced.awaitAnswer channel limit ⟨console, ⟨device, accesses⟩⟩ =
      .ok (verdict (mailbox.link.word 1 next))
        ⟨console, ⟨next, accesses ++ arrival.accesses⟩⟩ := by
  obtain ⟨skipped, hfirst⟩ := exists_awaitWord mailbox.traced channel limit
    ⟨console, ⟨device, accesses⟩⟩
  rw [hfirst, awaitWord_of_delivers hdelivers hbusy, if_pos hanswers]

/-- A word for somebody else is skipped. -/
theorem awaitAnswer_skips (hdelivers : mailbox.link.Delivers arrival device next)
    (hbusy : arrival.busy ≤ patience) (hforeign : mailbox.answers channel arrival.word = false)
    (limit : Nat) :
    mailbox.traced.awaitAnswer channel (limit + 1) ⟨console, ⟨device, accesses⟩⟩ =
      mailbox.traced.awaitAnswer channel limit
        ⟨console, ⟨next, accesses ++ arrival.accesses⟩⟩ := by
  rw [awaitAnswer_succ, awaitWord_of_delivers hdelivers hbusy, hforeign]
  exact if_neg Bool.false_ne_true

/-- When the mailbox stays empty for as many polls as the driver has patience, the wait ends in a
timeout after exactly these polls. -/
theorem awaitAnswer_of_staysBusy
    (hstays : mailbox.link.StaysBusy emptyFlag (patience + 1) device) (limit : Nat) :
    mailbox.traced.awaitAnswer channel limit ⟨console, ⟨device, accesses⟩⟩ =
      .ok (.error .timeout)
        ⟨console.log .warning logSource "timed out waiting for mailbox response",
          ⟨mailbox.link.polled^[patience + 1] device,
            accesses ++ List.replicate (patience + 1) .polled⟩⟩ := by
  obtain ⟨skipped, hfirst⟩ := exists_awaitWord mailbox.traced channel limit
    ⟨console, ⟨device, accesses⟩⟩
  rw [hfirst, awaitWord_of_staysBusy hstays]

/-- Words for others come back one after the other, each of them in time. -/
structure Others (mailbox : Mailbox δ) (channel : UInt32) (arrivals : List Arrival)
    (device reached : δ) : Prop where
  arrive : mailbox.link.Arrive arrivals device reached
  skipped : ∀ arrival ∈ arrivals,
    arrival.busy ≤ patience ∧ mailbox.answers channel arrival.word = false

/-- All words for others are skipped, up to the limit. -/
theorem Others.awaitAnswer (hothers : mailbox.Others channel arrivals device next) (limit : Nat) :
    mailbox.traced.awaitAnswer channel (limit + arrivals.length)
        ⟨console, ⟨device, accesses⟩⟩ =
      mailbox.traced.awaitAnswer channel limit
        ⟨console, ⟨next, accesses ++ arrivals.flatMap Arrival.accesses⟩⟩ := by
  obtain ⟨harrive, hskipped⟩ := hothers
  induction harrive generalizing accesses with
  | nil => rw [List.flatMap_nil, List.append_nil, List.length_nil, Nat.add_zero]
  | cons hfirst hrest ih =>
    obtain ⟨hbusy, hforeign⟩ := hskipped _ List.mem_cons_self
    rw [List.length_cons, ← Nat.add_assoc, awaitAnswer_skips hfirst hbusy hforeign,
      ih fun arrival harrival => hskipped arrival (List.mem_cons_of_mem _ harrival),
      List.flatMap_cons, List.append_assoc]

/-! ## Whole calls -/

/-- A call sends its word once the registers can take it, and waits for an answer from then on. -/
theorem call_of_clears {busy : Nat} {board : Board δ}
    (hclears : mailbox.link.ClearsAfter fullFlag busy board.device) (hbusy : busy ≤ patience)
    (limit : Nat) :
    mailbox.traced.call limit channel board.traced =
      mailbox.traced.awaitAnswer channel limit
        ⟨board.console.log .debug logSource (mailbox.announcement channel),
          ⟨mailbox.link.send (mailbox.handOver channel)
              (mailbox.link.polled^[busy + 1] board.device),
            List.replicate (busy + 1) .polled ++ [.sent (mailbox.handOver channel)]⟩⟩ := by
  have hwait : waitClear mailbox.traced.link fullFlag patience board.traced.device = _ :=
    hclears.waitClear hbusy []
  rw [call_eq, hwait]
  rfl

/-- A call gets past the words for others if its limit allows for them. -/
theorem Others.call {busy limit : Nat} {board : Board δ} {reached : δ}
    (hclears : mailbox.link.ClearsAfter fullFlag busy board.device) (hbusy : busy ≤ patience)
    (hothers : mailbox.Others channel arrivals (mailbox.link.send (mailbox.handOver channel)
      (mailbox.link.polled^[busy + 1] board.device)) reached)
    (hlimit : arrivals.length ≤ limit) :
    mailbox.traced.call limit channel board.traced =
      mailbox.traced.awaitAnswer channel (limit - arrivals.length)
        ⟨board.console.log .debug logSource (mailbox.announcement channel),
          ⟨reached, List.replicate (busy + 1) .polled ++ [.sent (mailbox.handOver channel)] ++
            arrivals.flatMap Arrival.accesses⟩⟩ := by
  have hsplit : limit = limit - arrivals.length + arrivals.length := by omega
  rw [call_of_clears hclears hbusy, hsplit, hothers.awaitAnswer, Nat.add_sub_cancel]

/-- A call gives up, and sends nothing, if the registers cannot take its word for too long. -/
theorem call_of_staysBusy {board : Board δ}
    (hstays : mailbox.link.StaysBusy fullFlag (patience + 1) board.device) (limit : Nat) :
    mailbox.traced.call limit channel board.traced =
      .ok (.error .timeout) ⟨board.console.log .debug logSource (mailbox.announcement channel),
        ⟨mailbox.link.polled^[patience + 1] board.device,
          List.replicate (patience + 1) .polled⟩⟩ := by
  have hwait : waitClear mailbox.traced.link fullFlag patience board.traced.device = _ :=
    hstays.waitClear []
  rw [call_eq, hwait]
  rfl

/-! ## The words of a call -/

theorem patience_eq : patience = 2 ^ 25 :=
  Nat.one_shiftLeft 25

theorem or_and_mask (first second mask : UInt32) :
    (first ||| second) &&& mask = (first &&& mask) ||| (second &&& mask) := by
  rw [← UInt32.toNat_inj]
  simp only [UInt32.toNat_and, UInt32.toNat_or, Nat.and_or_distrib_right]

/-- The lowest four bits of a word are its remainder. -/
theorem toNat_and_channelMask (word : UInt32) : (word &&& channelMask).toNat = word.toNat % 16 := by
  rw [UInt32.toNat_and]
  exact Nat.and_two_pow_sub_one_eq_mod word.toNat 4

/-- A channel's number lies within the channel's bits. -/
theorem channel_and_channelMask (hchannel : channel < 16) : channel &&& channelMask = channel := by
  rw [← UInt32.toNat_inj, toNat_and_channelMask]
  exact Nat.mod_eq_of_lt (UInt32.lt_iff_toNat_lt.1 hchannel)

section Words

variable (haligned : mailbox.address.toNat % 16 = 0) (hchannel : channel < 16)
include haligned

/-- The buffer's address leaves the channel's bits free. -/
theorem address_and_channelMask : mailbox.address &&& channelMask = 0 := by
  rw [← UInt32.toNat_inj, toNat_and_channelMask, haligned]
  rfl

/-- The address of an aligned buffer has no bits for a channel. -/
theorem address_and_not_channelMask : mailbox.address &&& ~~~channelMask = mailbox.address := by
  have hsplit : (channelMask ||| ~~~channelMask) &&& mailbox.address =
      (channelMask &&& mailbox.address) ||| (~~~channelMask &&& mailbox.address) :=
    or_and_mask _ _ _
  rw [UInt32.or_not_self, UInt32.and_comm channelMask, address_and_channelMask haligned,
    UInt32.zero_or, UInt32.and_comm (~~~channelMask)] at hsplit
  rw [← hsplit]
  simp

include hchannel

/-- A call hands over the address of its buffer together with its channel. -/
theorem handOver_eq : mailbox.handOver channel = mailbox.address ||| channel := by
  rw [handOver, address_and_not_channelMask haligned, channel_and_channelMask hchannel]

/-- The word that was handed over answers the call. -/
theorem answers_own : mailbox.answers channel (mailbox.address ||| channel) = true := by
  have hlow := channel_and_channelMask hchannel
  have hhigh : channel &&& ~~~channelMask = 0 := by
    rw [← hlow, UInt32.and_assoc, UInt32.and_not_self, UInt32.and_zero]
  simp only [answers, or_and_mask, address_and_channelMask haligned,
    address_and_not_channelMask haligned, hlow, hhigh, UInt32.zero_or, UInt32.or_zero,
    decide_true, Bool.and_self]

omit hchannel in
/-- A word with another channel or another address answers some other call. -/
theorem answers_foreign {word : UInt32}
    (hforeign : word &&& 0xf ≠ channel ∨ word &&& ~~~0xf ≠ mailbox.address) :
    mailbox.answers channel word = false := by
  rw [answers, address_and_not_channelMask haligned, Bool.and_eq_false_iff]
  exact hforeign.imp decide_eq_false decide_eq_false

end Words

/-- The registers take the word of a call, and words for others come back, each of them in time. -/
structure Prelude (mailbox : Mailbox δ) (channel : UInt32) (busy : Nat) (arrivals : List Arrival)
    (device reached : δ) : Prop where
  clears : mailbox.link.ClearsAfter fullFlag busy device
  busy_le : busy ≤ 2 ^ 25
  arrive : mailbox.link.Arrive arrivals
    (mailbox.link.send (mailbox.address ||| channel) (mailbox.link.polled^[busy + 1] device))
    reached
  arrival_le : ∀ arrival ∈ arrivals, arrival.busy ≤ 2 ^ 25
  foreign : ∀ arrival ∈ arrivals,
    arrival.word &&& 0xf ≠ channel ∨ arrival.word &&& ~~~0xf ≠ mailbox.address

/-- The accesses of a call up to the last word for others. -/
def preludeAccesses (mailbox : Mailbox δ) (channel : UInt32) (busy : Nat)
    (arrivals : List Arrival) : List Access :=
  List.replicate (busy + 1) .polled ++ [.sent (mailbox.address ||| channel)] ++
    arrivals.flatMap Arrival.accesses

/-- What comes before the answer is skipped if the limit allows for it. -/
theorem Prelude.call {busy limit : Nat} {board : Board δ} {reached : δ}
    (hprelude : mailbox.Prelude channel busy arrivals board.device reached)
    (haligned : mailbox.address.toNat % 16 = 0) (hchannel : channel < 16)
    (hlimit : arrivals.length ≤ limit) :
    mailbox.traced.call limit channel board.traced =
      mailbox.traced.awaitAnswer channel (limit - arrivals.length)
        ⟨board.console.log .debug logSource (mailbox.announcement channel),
          ⟨reached, mailbox.preludeAccesses channel busy arrivals⟩⟩ := by
  have hsent := handOver_eq haligned hchannel
  have hothers : mailbox.Others channel arrivals (mailbox.link.send (mailbox.handOver channel)
      (mailbox.link.polled^[busy + 1] board.device)) reached :=
    ⟨hsent ▸ hprelude.arrive, fun arrival harrival =>
      ⟨patience_eq ▸ hprelude.arrival_le arrival harrival,
        answers_foreign haligned (hprelude.foreign arrival harrival)⟩⟩
  rw [hothers.call hprelude.clears (patience_eq ▸ hprelude.busy_le) hlimit, hsent]
  rfl

/-- A call sends the word of its buffer once, skips all words for others, and returns what the code
in the buffer means when its own word comes back, without another access.  If a wait is busy for
more than `2 ^ 25` polls, the call times out, and if that was the first wait, nothing was sent. -/
theorem accepts_own_answer (mailbox : Mailbox δ) (channel : UInt32) (limit : Nat)
    (board : Board δ) (haligned : mailbox.address.toNat % 16 = 0) (hchannel : channel < 16) :
    untracedEnd (mailbox.traced.call limit channel board.traced) =
        mailbox.call limit channel board ∧
      (∀ busy arrivals reached, mailbox.Prelude channel busy arrivals board.device reached →
        arrivals.length ≤ limit →
          (∀ last answered, last ≤ 2 ^ 25 →
            mailbox.link.Delivers ⟨last, mailbox.address ||| channel⟩ reached answered →
            ∃ console, mailbox.traced.call limit channel board.traced =
              .ok (if mailbox.link.word 1 answered = 0x80000000 then .ok ()
                else if mailbox.link.word 1 answered = 0x80000001 then .error .response
                else .error (.unknown (mailbox.link.word 1 answered)))
                ⟨console, ⟨answered, mailbox.preludeAccesses channel busy arrivals ++
                  List.replicate (last + 1) .polled ++
                    [.received (mailbox.address ||| channel)]⟩⟩) ∧
          (mailbox.link.StaysBusy emptyFlag (2 ^ 25 + 1) reached →
            ∃ console left, mailbox.traced.call limit channel board.traced =
              .ok (.error .timeout)
                ⟨console, ⟨left, mailbox.preludeAccesses channel busy arrivals ++
                  List.replicate (2 ^ 25 + 1) .polled⟩⟩)) ∧
      (mailbox.link.StaysBusy fullFlag (2 ^ 25 + 1) board.device →
        ∃ console left, mailbox.traced.call limit channel board.traced =
          .ok (.error .timeout) ⟨console, ⟨left, List.replicate (2 ^ 25 + 1) .polled⟩⟩) := by
  refine ⟨mailbox.untracedEnd_call channel limit board, ?_, ?_⟩
  · intro busy arrivals reached hprelude hlimit
    rw [hprelude.call haligned hchannel hlimit]
    refine ⟨fun last answered hlast hdelivers => ?_, fun hstays => ?_⟩
    · have hbusy : last ≤ patience := patience_eq ▸ hlast
      rw [awaitAnswer_of_answer hdelivers hbusy (answers_own haligned hchannel),
        List.append_assoc]
      exact ⟨_, rfl⟩
    · rw [← patience_eq] at hstays ⊢
      exact ⟨_, _, awaitAnswer_of_staysBusy hstays _⟩
  · intro hstays
    rw [← patience_eq] at hstays ⊢
    exact ⟨_, _, call_of_staysBusy hstays limit⟩

/-! ## Registers that are read from a list -/

/-- Registers whose readings are listed.  Behind the last one the mailbox is full and empty. -/
def listedLink (code : UInt32) : MailboxLink (List UInt32) where
  capacity := 2
  room := by decide
  word index _ := if index = 1 then code else 0
  setWord _ _ readings := readings
  status readings := (readings.headD (fullFlag ||| emptyFlag), readings.tail)
  receive readings := (readings.headD 0, readings.tail)
  send _ readings := readings

/-- Behind the last reading, the registers stay busy. -/
theorem staysBusy_listedLink (code : UInt32) {flag : UInt32}
    (hflag : (fullFlag ||| emptyFlag) &&& flag ≠ 0) (polls : Nat) :
    (listedLink code).StaysBusy flag polls [] := by
  intro earlier _
  have hfixed : (listedLink code).polled [] = [] := rfl
  rw [Function.iterate_fixed hfixed]
  exact hflag

/-- In a list of readings, the flag clears after the readings that have it set. -/
theorem clearsAfter_listedLink (code : UInt32) {flag next : UInt32} {busy : List UInt32}
    (hbusy : ∀ reading ∈ busy, reading &&& flag ≠ 0) (hclear : next &&& flag = 0)
    (rest : List UInt32) :
    (listedLink code).ClearsAfter flag busy.length (busy ++ next :: rest) := by
  induction busy with
  | nil => exact MailboxLink.clearsAfter_zero.2 hclear
  | cons reading busy ih =>
    exact MailboxLink.clearsAfter_succ.2 ⟨hbusy reading List.mem_cons_self,
      ih fun later hlater => hbusy later (List.mem_cons_of_mem _ hlater)⟩

theorem iterate_polled_listedLink (code : UInt32) (readings rest : List UInt32) :
    (listedLink code).polled^[readings.length] (readings ++ rest) = rest := by
  induction readings with
  | nil => rfl
  | cons reading readings ih => exact ih

/-- Behind some readings that say that the mailbox is empty, the next word is delivered. -/
theorem delivers_listedLink (code word : UInt32) {busy : List UInt32}
    (hbusy : ∀ reading ∈ busy, reading &&& emptyFlag ≠ 0) (rest : List UInt32) :
    (listedLink code).Delivers ⟨busy.length, word⟩ (busy ++ 0 :: word :: rest) rest := by
  have hpolled : (listedLink code).polled^[busy.length + 1] (busy ++ 0 :: word :: rest) =
      word :: rest := by
    rw [Function.iterate_succ_apply', iterate_polled_listedLink]
    rfl
  refine ⟨clearsAfter_listedLink code hbusy UInt32.zero_and _, ?_⟩
  rw [hpolled]
  rfl

/-- A mailbox that is full for one poll, and then empty for one poll before a word for channel
seven: the call on channel eight skips that word and accepts its own.  It times out if its own does
not come back, and if the mailbox stays full. -/
theorem accepts_own_answer_behind_another :
    ∃ mailbox : Mailbox (List UInt32), mailbox = ⟨listedLink 0x80000000, 0x1c04000⟩ ∧
      (∃ console, mailbox.traced.call 1 8
          (Board.traced ⟨{}, [fullFlag, 0, emptyFlag, 0, 0x1c04007, 0, 0x1c04008]⟩) =
        .ok (.ok ()) ⟨console, ⟨[], [.polled, .polled, .sent 0x1c04008, .polled, .polled,
          .received 0x1c04007, .polled, .received 0x1c04008]⟩⟩) ∧
      (∃ console left, mailbox.traced.call 1 8
          (Board.traced ⟨{}, [fullFlag, 0, emptyFlag, 0, 0x1c04007]⟩) =
        .ok (.error .timeout) ⟨console, ⟨left, [.polled, .polled, .sent 0x1c04008, .polled, .polled,
          .received 0x1c04007] ++ List.replicate (2 ^ 25 + 1) .polled⟩⟩) ∧
      ∃ console left, mailbox.traced.call 1 8 (Board.traced ⟨{}, []⟩) =
        .ok (.error .timeout) ⟨console, ⟨left, List.replicate (2 ^ 25 + 1) .polled⟩⟩ := by
  let mailbox : Mailbox (List UInt32) := ⟨listedLink 0x80000000, 0x1c04000⟩
  have haligned : (0x1c04000 : UInt32).toNat % 16 = 0 := by decide
  have hchannel : (8 : UInt32) < 16 := by decide
  have hfull : ∀ reading ∈ [fullFlag], reading &&& fullFlag ≠ 0 := by
    intro reading hreading
    rw [List.mem_singleton.1 hreading]
    decide
  have hempty : ∀ reading ∈ [emptyFlag], reading &&& emptyFlag ≠ 0 := by
    intro reading hreading
    rw [List.mem_singleton.1 hreading]
    decide
  -- Whatever comes behind the word for channel seven, everything up to it is the same.
  have hprelude : ∀ rest, mailbox.Prelude 8 1 [⟨1, 0x1c04007⟩]
      (fullFlag :: 0 :: emptyFlag :: 0 :: 0x1c04007 :: rest) rest := by
    intro rest
    refine ⟨clearsAfter_listedLink _ hfull UInt32.zero_and _, by decide,
      .cons (delivers_listedLink _ _ hempty rest) .nil, ?_, ?_⟩
    · intro arrival harrival
      rw [List.mem_singleton.1 harrival]
      decide
    · intro arrival harrival
      rw [List.mem_singleton.1 harrival]
      exact Or.inl (by decide)
  have hown : mailbox.address ||| 8 = 0x1c04008 :=
    show (0x1c04000 : UInt32) ||| 8 = 0x1c04008 by decide
  have hdelivers : mailbox.link.Delivers ⟨0, mailbox.address ||| 8⟩ [0, 0x1c04008] [] := by
    rw [hown]
    exact delivers_listedLink _ _ (fun _ hnever => absurd hnever List.not_mem_nil) []
  have htrace : mailbox.preludeAccesses 8 1 [⟨1, 0x1c04007⟩] =
      [.polled, .polled, .sent 0x1c04008, .polled, .polled, .received 0x1c04007] := by
    rw [preludeAccesses, hown]
    rfl
  refine ⟨mailbox, rfl, ?_, ?_, ?_⟩
  · obtain ⟨console, hcall⟩ := ((accepts_own_answer mailbox 8 1 ⟨{}, _⟩ haligned hchannel).2.1 1 _ _
      (hprelude [0, 0x1c04008]) (Nat.le_refl 1)).1 0 [] (Nat.zero_le _) hdelivers
    refine ⟨console, hcall.trans ?_⟩
    rw [htrace, hown]
    rfl
  · rw [← htrace]
    exact ((accepts_own_answer mailbox 8 1 ⟨{}, _⟩ haligned hchannel).2.1 1 _ _
      (hprelude []) (Nat.le_refl 1)).2 (staysBusy_listedLink _ (by decide) _)
  · exact (accepts_own_answer mailbox 8 1 ⟨{}, []⟩ haligned hchannel).2.2
      (staysBusy_listedLink _ (by decide) _)

end Mailbox

end DriverHost
