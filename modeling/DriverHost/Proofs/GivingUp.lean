import DriverHost.Proofs.RegisterTraffic

/-!
# When a call of the mailbox gives up

Each single wait of a call is given up after a number of polls, but the count begins again with
every word that is skipped.  So a call returns unless words for others come back without end, and
how much it reads before that grows with their number.

Main results:

- Inductive type `Mailbox.EndsAt` with theorem `Mailbox.ends_or_more`: a wait ends behind some words
  for others, or more of them come.
- Definition `Mailbox.Flooded`: they come back without end.
- Theorem `Mailbox.returns_unless_flooded`: exactly when a call returns, and what it reads.
-/

namespace DriverHost

variable {δ : Type}

/-! ## Counting accesses -/

/-- A register is read. -/
def Access.isRead : Access → Bool
  | polled | received _ => true
  | sent _ => false

/-- How many of some accesses read a register. -/
def reads (accesses : List Access) : Nat :=
  accesses.countP Access.isRead

/-- The reads of two stretches of accesses add up. -/
@[simp] theorem reads_append (first second : List Access) :
    reads (first ++ second) = reads first + reads second :=
  List.countP_append

@[simp] theorem reads_polls (count : Nat) : reads (List.replicate count .polled) = count := by
  rw [reads, List.countP_replicate]
  rfl

/-- A word that arrives after some polls takes a read for each of them, one for the poll that finds
it and one for itself. -/
@[simp] theorem reads_accesses (arrival : Arrival) : reads arrival.accesses = arrival.busy + 2 := by
  rw [Arrival.accesses, reads_append, reads_polls]
  rfl

namespace Mailbox

variable {mailbox : Mailbox δ} {channel : UInt32} {arrivals : List Arrival} {device reached : δ}
  {console : Console} {accesses : List Access} {limit : Nat} {board : Board δ}

/-! ## Words for others -/

theorem Others.nil : mailbox.Others channel [] device device :=
  ⟨.nil, fun _ hnever => absurd hnever List.not_mem_nil⟩

/-- A foreign word that arrives in time may come before any others. -/
theorem Others.cons {arrival : Arrival} {between : δ}
    (hfirst : mailbox.link.Delivers arrival device between) (hbusy : arrival.busy ≤ patience)
    (hforeign : mailbox.answers channel arrival.word = false)
    (hrest : mailbox.Others channel arrivals between reached) :
    mailbox.Others channel (arrival :: arrivals) device reached := by
  refine ⟨.cons hfirst hrest.arrive, fun other hother => ?_⟩
  rcases List.mem_cons.1 hother with rfl | hlater
  · exact ⟨hbusy, hforeign⟩
  · exact hrest.skipped other hlater

/-- At least one register is read for each word, and for a word in time not too many are. -/
theorem Others.reads_bounds (hothers : mailbox.Others channel arrivals device reached) :
    arrivals.length ≤ reads (arrivals.flatMap Arrival.accesses) ∧
      reads (arrivals.flatMap Arrival.accesses) ≤ arrivals.length * (patience + 2) := by
  have hbusy := fun arrival harrival => (hothers.skipped arrival harrival).1
  clear hothers
  induction arrivals with
  | nil => exact ⟨Nat.le_refl 0, Nat.le_of_eq (Nat.zero_mul _).symm⟩
  | cons arrival arrivals ih =>
    obtain ⟨hleast, hmost⟩ :=
      ih fun other hother => hbusy other (List.mem_cons_of_mem _ hother)
    have hfirst := hbusy arrival List.mem_cons_self
    rw [List.flatMap_cons, reads_append, reads_accesses, List.length_cons, Nat.add_mul, Nat.one_mul]
    omega

/-- A wait comes to an end: its word comes back in time, or the registers are busy for too long. -/
inductive EndsAt (mailbox : Mailbox δ) (channel : UInt32) (reached : δ) : Prop
  | answered {arrival next} (hdelivers : mailbox.link.Delivers arrival reached next)
      (hbusy : arrival.busy ≤ patience) (hanswers : mailbox.answers channel arrival.word = true)
  | busy (hstays : mailbox.link.StaysBusy emptyFlag (patience + 1) reached)

/-- One wait ends, or a word for somebody else comes back in time. -/
theorem endsAt_or_other (mailbox : Mailbox δ) (channel : UInt32) (device : δ) :
    mailbox.EndsAt channel device ∨ ∃ arrival next, mailbox.link.Delivers arrival device next ∧
      arrival.busy ≤ patience ∧ mailbox.answers channel arrival.word = false := by
  rcases mailbox.link.clears_or_staysBusy emptyFlag (patience + 1) device with
    ⟨busy, hbusy, hclears⟩ | hstays
  · have hdelivers : mailbox.link.Delivers
        ⟨busy, (mailbox.link.receive (mailbox.link.polled^[busy + 1] device)).1⟩ device _ :=
      ⟨hclears, rfl⟩
    have hintime := Nat.le_of_lt_succ hbusy
    cases hanswers : mailbox.answers channel
        (mailbox.link.receive (mailbox.link.polled^[busy + 1] device)).1 with
    | true => exact Or.inl (.answered hdelivers hintime hanswers)
    | false => exact Or.inr ⟨_, _, hdelivers, hintime, hanswers⟩
  · exact Or.inl (.busy hstays)

/-- The wait ends behind some words for others, or more of them come than the limit allows. -/
theorem ends_or_more (mailbox : Mailbox δ) (channel : UInt32) (limit : Nat) (device : δ) :
    (∃ arrivals reached, arrivals.length ≤ limit ∧
      mailbox.Others channel arrivals device reached ∧ mailbox.EndsAt channel reached) ∨
    ∃ arrivals reached, arrivals.length = limit + 1 ∧
      mailbox.Others channel arrivals device reached := by
  induction limit generalizing device with
  | zero =>
    rcases mailbox.endsAt_or_other channel device with
      hends | ⟨arrival, next, hfirst, hbusy, hother⟩
    · exact Or.inl ⟨[], device, Nat.le_refl 0, .nil, hends⟩
    · exact Or.inr ⟨[arrival], next, rfl, .cons hfirst hbusy hother .nil⟩
  | succ limit ih =>
    rcases mailbox.endsAt_or_other channel device with
      hends | ⟨arrival, next, hfirst, hbusy, hother⟩
    · exact Or.inl ⟨[], device, Nat.zero_le _, .nil, hends⟩
    · rcases ih next with ⟨arrivals, reached, hlength, hothers, hends⟩ |
        ⟨arrivals, reached, hlength, hothers⟩
      · exact Or.inl ⟨arrival :: arrivals, reached, Nat.succ_le_succ hlength,
          hothers.cons hfirst hbusy hother, hends⟩
      · exact Or.inr ⟨arrival :: arrivals, reached, congrArg Nat.succ hlength,
          hothers.cons hfirst hbusy hother⟩

/-! ## Waiting behind words for others -/

/-- Where a wait ends, it does so whatever the limit is. -/
theorem EndsAt.awaitAnswer (hends : mailbox.EndsAt channel reached) (console : Console)
    (accesses : List Access) :
    ∃ result console' left closing, reads closing ≤ patience + 2 ∧ ∀ limit,
      mailbox.traced.awaitAnswer channel limit ⟨console, ⟨reached, accesses⟩⟩ =
        .ok result ⟨console', ⟨left, accesses ++ closing⟩⟩ := by
  cases hends with
  | answered hdelivers hbusy hanswers =>
    refine ⟨_, _, _, _, ?_, awaitAnswer_of_answer hdelivers hbusy hanswers⟩
    rw [reads_accesses]
    exact Nat.add_le_add_right hbusy 2
  | busy hstays =>
    refine ⟨_, _, _, _, ?_, awaitAnswer_of_staysBusy hstays⟩
    rw [reads_polls]
    exact Nat.le_succ _

/-- With more words for others than the limit allows, the wait does not come to an end. -/
theorem Others.awaitAnswer_blocked (hothers : mailbox.Others channel arrivals device reached)
    (hlength : arrivals.length = limit + 1) :
    mailbox.traced.awaitAnswer channel limit ⟨console, ⟨device, accesses⟩⟩ =
      .error .blocked
        ⟨console, ⟨reached, accesses ++ arrivals.flatMap Arrival.accesses⟩⟩ := by
  obtain ⟨harrive, hskipped⟩ := hothers
  induction harrive generalizing limit accesses with
  | nil => cases hlength
  | @cons arrival arrivals device between next hfirst hrest ih =>
    obtain ⟨hbusy, hforeign⟩ := hskipped arrival List.mem_cons_self
    have hlater := fun other hother => hskipped other (List.mem_cons_of_mem arrival hother)
    rw [List.flatMap_cons, ← List.append_assoc]
    cases limit with
    | zero =>
      obtain rfl : arrivals = [] := List.eq_nil_of_length_eq_zero (Nat.succ.inj hlength)
      cases hrest
      refine (awaitAnswer_zero mailbox.traced channel _).trans
        ((awaitWord_of_delivers hfirst hbusy).trans ?_)
      rw [hforeign, List.flatMap_nil, List.append_nil]
      exact if_neg Bool.false_ne_true
    | succ limit =>
      rw [awaitAnswer_skips hfirst hbusy hforeign]
      exact ih (Nat.succ.inj hlength) hlater

/-! ## Whole calls -/

/-- The word of the call is taken, and then words for others come back without end. -/
def Flooded (mailbox : Mailbox δ) (channel : UInt32) (device : δ) : Prop :=
  ∃ busy ≤ patience, mailbox.link.ClearsAfter fullFlag busy device ∧
    ∀ count, ∃ arrivals reached, arrivals.length = count ∧ mailbox.Others channel arrivals
      (mailbox.link.send (mailbox.handOver channel) (mailbox.link.polled^[busy + 1] device)) reached

/-- A flooded call does not return, whatever it reads. -/
theorem Flooded.call (hflooded : mailbox.Flooded channel board.device) (limit : Nat) :
    ∃ after, mailbox.traced.call limit channel board.traced = .error .blocked after ∧
      limit < reads after.device.accesses := by
  obtain ⟨busy, hbusy, hclears, hendless⟩ := hflooded
  obtain ⟨arrivals, reached, hlength, hothers⟩ := hendless (limit + 1)
  rw [call_of_clears hclears hbusy, hothers.awaitAnswer_blocked hlength]
  refine ⟨_, rfl, ?_⟩
  rw [reads_append]
  have hleast := hothers.reads_bounds.1
  omega

/-- A call whose wait ends behind some words for others returns, whatever the limit is above their
number. -/
theorem Others.call_returns {busy : Nat}
    (hclears : mailbox.link.ClearsAfter fullFlag busy board.device) (hbusy : busy ≤ patience)
    (hothers : mailbox.Others channel arrivals (mailbox.link.send (mailbox.handOver channel)
      (mailbox.link.polled^[busy + 1] board.device)) reached)
    (hends : mailbox.EndsAt channel reached) :
    ∃ result after,
      reads after.device.accesses ≤ (patience + 1) + (arrivals.length + 1) * (patience + 2) ∧
        ∀ limit ≥ arrivals.length,
          mailbox.traced.call limit channel board.traced = .ok result after := by
  obtain ⟨result, console, left, closing, hclosing, hwait⟩ := hends.awaitAnswer
    (board.console.log .debug logSource (mailbox.announcement channel))
    (List.replicate (busy + 1) .polled ++ [.sent (mailbox.handOver channel)] ++
      arrivals.flatMap Arrival.accesses)
  have hreturns := fun limit (hlimit : arrivals.length ≤ limit) =>
    (hothers.call hclears hbusy hlimit).trans (hwait (limit - arrivals.length))
  refine ⟨result, _, ?_, hreturns⟩
  have hmost := hothers.reads_bounds.2
  have hsent : reads [.sent (mailbox.handOver channel)] = 0 := rfl
  rw [reads_append, reads_append, reads_append, reads_polls, hsent, Nat.add_mul, Nat.one_mul]
  omega

/-- A call that is not flooded returns behind the words for others. -/
theorem call_of_not_flooded (hnot : ¬ mailbox.Flooded channel board.device) :
    ∃ skipped result after,
      reads after.device.accesses ≤ (patience + 1) + (skipped + 1) * (patience + 2) ∧
        ∀ limit ≥ skipped, mailbox.traced.call limit channel board.traced = .ok result after := by
  rcases mailbox.link.clears_or_staysBusy fullFlag (patience + 1) board.device with
    ⟨busy, hbusy, hclears⟩ | hstays
  · have hintime := Nat.le_of_lt_succ hbusy
    obtain ⟨count, hfew⟩ := not_forall.1 fun hendless =>
      hnot ⟨busy, hintime, hclears, hendless⟩
    cases count with
    | zero => exact absurd ⟨[], _, rfl, .nil⟩ hfew
    | succ limit =>
      rcases mailbox.ends_or_more channel limit (mailbox.link.send (mailbox.handOver channel)
        (mailbox.link.polled^[busy + 1] board.device)) with
        ⟨arrivals, reached, -, hothers, hends⟩ | hmore
      · exact ⟨arrivals.length, hothers.call_returns hclears hintime hends⟩
      · exact absurd hmore hfew
  · refine ⟨0, _, _, ?_, fun limit _ => call_of_staysBusy hstays limit⟩
    rw [reads_polls]
    exact Nat.le_add_right _ _

/-- A call returns unless words for others come back without end.  When it returns, it has read the
registers no more often than all its waits allow, one of them for each word it skipped, and a larger
limit changes nothing.  When it is flooded, it reads more than any limit says. -/
theorem returns_unless_flooded (mailbox : Mailbox δ) (channel : UInt32) (board : Board δ) :
    (∀ limit, untracedEnd (mailbox.traced.call limit channel board.traced) =
        mailbox.call limit channel board) ∧
      ((∃ limit result after, mailbox.call limit channel board = .ok result after) ↔
        ¬ mailbox.Flooded channel board.device) ∧
      (¬ mailbox.Flooded channel board.device → ∃ skipped result after,
        reads after.device.accesses ≤ (2 ^ 25 + 1) + (skipped + 1) * (2 ^ 25 + 2) ∧
          ∀ limit ≥ skipped, mailbox.traced.call limit channel board.traced = .ok result after) ∧
      (mailbox.Flooded channel board.device → ∀ limit, ∃ after,
        mailbox.traced.call limit channel board.traced = .error .blocked after ∧
          limit < reads after.device.accesses) := by
  have huntraced := fun limit => mailbox.untracedEnd_call channel limit board
  rw [← patience_eq]
  refine ⟨huntraced, ⟨?_, ?_⟩, call_of_not_flooded, Flooded.call⟩
  · rintro ⟨limit, result, after, hreturns⟩ hflooded
    obtain ⟨traced, hblocked, -⟩ := hflooded.call limit
    have hsame := huntraced limit
    rw [hblocked, hreturns] at hsame
    cases hsame
  · intro hnot
    obtain ⟨skipped, result, after, -, hreturns⟩ := call_of_not_flooded hnot
    refine ⟨skipped, result, after.untraced, ?_⟩
    rw [← huntraced, hreturns skipped (Nat.le_refl _)]
    rfl

/-! ## No constant bounds what a call reads -/

/-- Registers that are never busy and deliver the same word whenever they are read. -/
def constantLink (word : UInt32) : MailboxLink Unit where
  capacity := 2
  room := Nat.one_lt_two
  word _ _ := 0
  setWord _ _ _ := ()
  status _ := (0, ())
  receive _ := (word, ())
  send _ _ := ()

/-- If that word is for somebody else, every call is flooded. -/
theorem flooded_constantLink {address word : UInt32}
    (hforeign : answers (δ := Unit) ⟨constantLink word, address⟩ channel word = false) :
    Flooded ⟨constantLink word, address⟩ channel () := by
  have hclears : ∀ flag, (constantLink word).ClearsAfter flag 0 () :=
    fun flag => MailboxLink.clearsAfter_zero.2 UInt32.zero_and
  refine ⟨0, Nat.zero_le _, hclears _, fun count => ?_⟩
  refine ⟨List.replicate count ⟨0, word⟩, (), List.length_replicate, ?_⟩
  induction count with
  | zero => exact .nil
  | succ count ih => exact ih.cons ⟨hclears _, rfl⟩ (Nat.zero_le _) hforeign

/-- Listed words for somebody else are all skipped. -/
theorem others_listedLink {code address word : UInt32}
    (hforeign : answers (δ := List UInt32) ⟨listedLink code, address⟩ channel word = false)
    (count : Nat) (rest : List UInt32) :
    Others ⟨listedLink code, address⟩ channel (List.replicate count ⟨0, word⟩)
      ((List.replicate count [0, word]).flatten ++ rest) rest := by
  induction count with
  | zero => exact .nil
  | succ count ih =>
    exact ih.cons (delivers_listedLink code word (fun _ hnever => absurd hnever List.not_mem_nil) _)
      (Nat.zero_le _) hforeign

/-- On a mailbox that delivers words for channel seven for good, a call on channel eight never
returns.  Where its own word comes at last, it returns, and it read more than any bound. -/
theorem reads_without_bound :
    (∃ mailbox : Mailbox Unit, ∀ limit result after,
      mailbox.call limit 8 ⟨{}, ()⟩ ≠ .ok result after) ∧
    ∀ bound, ∃ (mailbox : Mailbox (List UInt32)) (readings : List UInt32) (limit : Nat)
      (after : Board (Traced (List UInt32))),
      mailbox.traced.call limit 8 (Board.traced ⟨{}, readings⟩) = .ok (.ok ()) after ∧
        bound < reads after.device.accesses := by
  constructor
  · refine ⟨⟨constantLink 7, 0⟩, fun limit result after hreturns => ?_⟩
    have hflooded : Flooded ⟨constantLink 7, 0⟩ 8 () := flooded_constantLink (by decide)
    exact (returns_unless_flooded ⟨constantLink 7, 0⟩ 8 ⟨{}, ()⟩).2.1.1
      ⟨limit, result, after, hreturns⟩ hflooded
  · intro bound
    let mailbox : Mailbox (List UInt32) := ⟨listedLink 0x80000000, 0⟩
    have hothers : mailbox.Others 8 (List.replicate bound ⟨0, 7⟩)
        ((List.replicate bound [0, 7]).flatten ++ [0, 8]) [0, 8] :=
      others_listedLink (by decide) bound [0, 8]
    have hown : mailbox.link.Delivers ⟨0, 8⟩ [0, 8] [] :=
      delivers_listedLink _ _ (fun _ hnever => absurd hnever List.not_mem_nil) []
    let board : Board (List UInt32) :=
      ⟨{}, 0 :: ((List.replicate bound [0, 7]).flatten ++ [0, 8])⟩
    have hclears : mailbox.link.ClearsAfter fullFlag 0 board.device :=
      MailboxLink.clearsAfter_zero.2 UInt32.zero_and
    have hanswers : answers (δ := List UInt32) ⟨listedLink 0x80000000, 0⟩ 8 8 = true := by decide
    have hcall := (hothers.call hclears (Nat.zero_le _) (Nat.le_refl _)).trans
      (awaitAnswer_of_answer hown (Nat.zero_le _) hanswers _)
    refine ⟨mailbox, _, _, _, hcall, ?_⟩
    have hleast := hothers.reads_bounds.1
    rw [List.length_replicate] at hleast
    rw [reads_append, reads_append, reads_accesses]
    omega

end Mailbox

end DriverHost
