import DriverHost.Proofs.RefusedTransfers
import DriverHost.Proofs.TransferTurns

/-!
# What a preparation gets

The first turn of a call that prepares a transfer settles what becomes of it.  With a reason to
refuse its buffer it is refused.  Otherwise it is prepared, with the lowest fragment that no
transfer has if it needs one, or waits while every fragment is borrowed; and a call that waits is
prepared in its next turn in which there is a fragment again.

Main results:

- Structure `Transfer.Prepares`: what the turns of preparations come to, whatever their buffers.
- Theorem `Transfer.Books.turn_waiting` and theorem `Transfer.Books.turn_needing`: who needs a
  fragment waits exactly while all are borrowed.
- Theorem `Transfer.Books.prepares`: as long as the books are kept, preparations get all this.
-/

namespace DriverHost

namespace Transfer

variable {ε η κ : Type}

/-- The lowest fragment that no transfer has. -/
def LowestFree (crew : Transfers ε η κ) (index : Nat) : Prop :=
  FragmentPool.LowestFree 64 (fun task => (crew.own task).fragments) index

/-- A call that prepares a transfer may begin on a machine that has what the transfers share: locks
may be touched, the heap is over its range, and the address space holds the buffer. -/
structure MayBegin (crew : Transfers ε η κ) (call : Preparation)
    (machine : Machine ε (Kernel η κ)) : Prop where
  shared : machine.shared = crew.shared
  mayLock : machine.scheduler.mayLock = true
  heap : Heap.Placed crew.shared.heap
  fits : call.buffer.toNat + call.size.toNat ≤ 2 ^ 64

/-- What preparations get in their turns, from the reasons to refuse a buffer and the fragments
that the transfers have. -/
structure Prepares (host : Host ε (Kernel η κ)) (busOf : UInt64 → UInt32)
    (crew : Transfers ε η κ) : Prop where
  /-- With a reason to refuse the buffer, the call ends at once, and memory, heap and fragments are
  as before. -/
  refused : ∀ call machine e, MayBegin crew call machine →
    PageList.refusal crew.shared.heap call.buffer call.size = some e →
    ∃ last, Kernel.transferView.get last.shared = Kernel.transferView.get crew.shared ∧
      (call.code busOf).turn host machine = .returned (call.leaves call.bulk) last
  /-- A transfer that needs no fragment is prepared at once and leaves the fragments alone. -/
  plain : ∀ call machine, MayBegin crew call machine →
    PageList.refusal crew.shared.heap call.buffer call.size = none →
    ¬ NeedsFragment call.buffer call.size call.direction →
    ∃ descriptor last,
      last.shared.platform.fragments = crew.shared.platform.fragments ∧
      (call.code busOf).turn host machine = .returned (call.prepared busOf descriptor none) last
  /-- One that needs a fragment is prepared at once with the lowest one that no transfer has. -/
  lends : ∀ call machine, MayBegin crew call machine →
    PageList.refusal crew.shared.heap call.buffer call.size = none →
    NeedsFragment call.buffer call.size call.direction → crew.total held ≠ 64 →
    ∃ descriptor index last, LowestFree crew index ∧
      last.shared.platform.fragments = crew.shared.platform.fragments.taken index ∧
      (call.code busOf).turn host machine =
        .returned (call.prepared busOf descriptor (some index)) last
  /-- It waits while the transfers have all fragments. -/
  waits : ∀ call machine, MayBegin crew call machine →
    PageList.refusal crew.shared.heap call.buffer call.size = none →
    NeedsFragment call.buffer call.size call.direction → crew.total held = 64 →
    ∃ descriptor last,
      last.shared.platform.fragments = crew.shared.platform.fragments ∧
      (call.code busOf).turn host machine = .yielded (call.waiting busOf descriptor) last
  /-- A call that has not ended waits for a fragment, and is prepared in its next turn in which the
  transfers do not have all of them. -/
  resumes : ∀ task own rest machine, crew.activity task = .calling own rest →
    machine.shared = crew.shared → machine.scheduler.mayLock = true →
    ∃ (call : Preparation) (descriptor : UInt64), rest = call.waiting busOf descriptor ∧
      (crew.total held = 64 → rest.turn host machine = .yielded rest machine) ∧
      (crew.total held ≠ 64 → ∃ index last, LowestFree crew index ∧
        last.shared.platform.fragments = crew.shared.platform.fragments.taken index ∧
        rest.turn host machine = .returned (call.prepared busOf descriptor (some index)) last)

namespace Books

variable {busOf : UInt64 → UInt32} {filled : FragmentPool} {crew : Transfers ε η κ}
  {headers : TaskId → Option UInt64}

/-- The pool has a lowest free fragment unless the transfers have all of them. -/
theorem exists_lowestFree (hbooks : Books busOf filled headers crew)
    (hfilled : IsPlatformPool filled) (hsome : crew.total held ≠ 64) :
    ∃ index, lowestBit 64 crew.shared.platform.fragments.free.toNat = some index ∧
      LowestFree crew index := by
  have hledger := hbooks.accounted.ledger
  have hcounted : crew.shared.platform.fragments.available.count ≠ 0 := by
    rw [ne_eq, hbooks.available_eq_zero_iff hfilled]
    exact hsome
  obtain ⟨index, hlowest, hfree⟩ := hledger.exists_lowest hfilled.count.le hcounted
  have hindex := hledger.lowestFree_iff.2 hfree
  rw [hfilled.count, funext (own_pool crew)] at hindex
  exact ⟨index, hlowest, hindex⟩

/-- A wait for a fragment goes on while all are borrowed, and otherwise ends with the lowest one
that no transfer has. -/
theorem turn_waiting (hbooks : Books busOf filled headers crew) (hfilled : IsPlatformPool filled)
    (host : Host ε (Kernel η κ)) {machine : Machine ε (Kernel η κ)}
    (hfragments : machine.shared.platform.fragments = crew.shared.platform.fragments)
    (hmay : machine.scheduler.mayLock = true) (call : Preparation) (descriptor : UInt64) :
    (crew.total held = 64 → (call.waiting busOf descriptor).turn host machine =
      .yielded (call.waiting busOf descriptor) machine) ∧
    (crew.total held ≠ 64 → ∃ index last, LowestFree crew index ∧
      last.shared.heap = machine.shared.heap ∧
      last.shared.platform.fragments = crew.shared.platform.fragments.taken index ∧
      (call.waiting busOf descriptor).turn host machine =
        .returned (call.prepared busOf descriptor (some index)) last) := by
  have hpool : (Kernel.transferView.get machine.shared).fragments =
      crew.shared.platform.fragments := hfragments
  have hguard : ¬ (Kernel.transferView.get machine.shared).fragments.guard.isLocked = true := by
    rw [hpool]
    exact hbooks.accounted.ledger.guard
  have hempty : (Kernel.transferView.get machine.shared).fragments.available.count = 0 ↔
      crew.total held = 64 := by
    rw [hpool, hbooks.available_eq_zero_iff hfilled]
  constructor
  · intro hfull
    have hnone : (Kernel.transferView.get machine.shared).fragments.available.count ≠ 0 →
        lowestBit 64 (Kernel.transferView.get machine.shared).fragments.free.toNat = some 0 :=
      fun hsome => absurd (hempty.2 hfull) hsome
    exact (call.turn_waiting busOf descriptor host rfl hmay hguard hnone).1 (hempty.2 hfull)
  · intro hsome
    obtain ⟨index, hlowest, hindex⟩ := hbooks.exists_lowestFree hfilled hsome
    rw [← hfragments] at hlowest
    obtain ⟨last, hlast, hturn⟩ :=
      (call.turn_waiting busOf descriptor host rfl hmay hguard fun _ => hlowest).2
        (fun hzero => hsome (hempty.1 hzero))
    refine ⟨index, last, hindex, congrArg TransferState.heap hlast, ?_, hturn⟩
    rw [← hfragments]
    exact congrArg TransferState.fragments hlast

/-- A preparation that needs a fragment and is laid out waits with every fragment borrowed, and
otherwise gets one at once. -/
theorem turn_needing (hbooks : Books busOf filled headers crew) (hfilled : IsPlatformPool filled)
    (host : Host ε (Kernel η κ)) {machine : Machine ε (Kernel η κ)}
    (hshared : machine.shared = crew.shared) (hmay : machine.scheduler.mayLock = true)
    {call : Preparation} (hneeds : NeedsFragment call.buffer call.size call.direction)
    {laid : PageList} {borrows : Bool} {after : TransferState}
    (hlay : PageList.lay busOf call.buffer call.size call.direction.direction
      (Kernel.transferView.get crew.shared) = .ok (.ok (laid, borrows, after))) :
    (crew.total held = 64 → ∃ last,
      last.shared.platform.fragments = crew.shared.platform.fragments ∧
      (call.code busOf).turn host machine =
        .yielded (call.waiting busOf laid.descriptor) last) ∧
    (crew.total held ≠ 64 → ∃ index last, LowestFree crew index ∧
      last.shared.heap = after.heap ∧
      last.shared.platform.fragments = crew.shared.platform.fragments.taken index ∧
      (call.code busOf).turn host machine =
        .returned (call.prepared busOf laid.descriptor (some index)) last) := by
  obtain ⟨kernel, rfl, hlaid, hturn⟩ := call.turn_of_lay busOf host hmay
    (congrArg Kernel.transferView.get hshared) (hbooks.cacheLine hfilled) hneeds hlay
  have hfragments : (machine.withShared kernel).shared.platform.fragments =
      crew.shared.platform.fragments := hlaid.fragments
  rw [hturn]
  obtain ⟨hwaits, hlends⟩ :=
    hbooks.turn_waiting hfilled host hfragments hmay call laid.descriptor
  exact ⟨fun hfull => ⟨_, hfragments, hwaits hfull⟩, hlends⟩

/-- A page list is refused for the reasons that there are, and is laid out otherwise. -/
theorem lay_of_mayBegin (hbooks : Books busOf filled headers crew)
    (hfilled : IsPlatformPool filled) {call : Preparation} {machine : Machine ε (Kernel η κ)}
    (hmay : MayBegin crew call machine) :
    match PageList.refusal crew.shared.heap call.buffer call.size with
    | some e => PageList.lay busOf call.buffer call.size call.direction.direction
        (Kernel.transferView.get crew.shared) = .ok (.error e)
    | none => ∃ laid borrows after,
        PageList.lay busOf call.buffer call.size call.direction.direction
          (Kernel.transferView.get crew.shared) = .ok (.ok (laid, borrows, after)) := by
  have hline : isPowerOfTwo (Kernel.transferView.get crew.shared).fragments.cacheLine = true := by
    have hsame : (Kernel.transferView.get crew.shared).fragments.cacheLine = 64 :=
      hbooks.cacheLine hfilled
    rw [hsame]
    rfl
  have hheap : (Kernel.transferView.get crew.shared).heap = crew.shared.heap := rfl
  have hlays := PageList.lay_of_placed busOf call.direction.direction
    (Kernel.transferView.get crew.shared) hmay.heap hline hmay.fits
  rw [hheap] at hlays
  cases hrefusal : PageList.refusal crew.shared.heap call.buffer call.size with
  | some e =>
    rw [hrefusal] at hlays
    exact hlays
  | none =>
    rw [hrefusal] at hlays
    obtain ⟨descriptor, inside, heap, memory, -, hlay⟩ := hlays
    exact ⟨_, _, _, hlay⟩

/-- With a reason to refuse its buffer, a preparation ends in its first turn and leaves memory, heap
and fragments as they were. -/
theorem turn_refused (hbooks : Books busOf filled headers crew) (hfilled : IsPlatformPool filled)
    (host : Host ε (Kernel η κ)) {call : Preparation} {machine : Machine ε (Kernel η κ)}
    (hmay : MayBegin crew call machine) {e : PageListError}
    (hrefusal : PageList.refusal crew.shared.heap call.buffer call.size = some e) :
    ∃ last, Kernel.transferView.get last.shared = Kernel.transferView.get crew.shared ∧
      (call.code busOf).turn host machine = .returned (call.leaves call.bulk) last := by
  have hlay := hbooks.lay_of_mayBegin hfilled hmay
  rw [hrefusal] at hlay
  rcases call.turn_cases busOf host hmay.mayLock
      (congrArg Kernel.transferView.get hmay.shared) (hbooks.cacheLine hfilled) with
    ⟨cause, last, hfault, -⟩ | ⟨also, last, -, hlast, hturn⟩ |
      ⟨descriptor, borrows, after, hlaid, -⟩
  · rw [hlay] at hfault
    cases hfault
  · exact ⟨last, hlast, hturn⟩
  · rw [hlay] at hlaid
    cases hlaid

/-- Without a reason to refuse it, a preparation that needs no fragment is done in its first turn
and leaves the fragments alone. -/
theorem turn_plain (hbooks : Books busOf filled headers crew) (hfilled : IsPlatformPool filled)
    (host : Host ε (Kernel η κ)) {call : Preparation} {machine : Machine ε (Kernel η κ)}
    (hmay : MayBegin crew call machine)
    (hrefusal : PageList.refusal crew.shared.heap call.buffer call.size = none)
    (hplain : ¬ NeedsFragment call.buffer call.size call.direction) :
    ∃ descriptor last,
      last.shared.platform.fragments = crew.shared.platform.fragments ∧
      (call.code busOf).turn host machine =
        .returned (call.prepared busOf descriptor none) last := by
  have hlay := hbooks.lay_of_mayBegin hfilled hmay
  rw [hrefusal] at hlay
  obtain ⟨laid, also, next, hlay⟩ := hlay
  rcases call.turn_cases busOf host hmay.mayLock
      (congrArg Kernel.transferView.get hmay.shared) (hbooks.cacheLine hfilled) with
    ⟨cause, last, hfault, -⟩ | ⟨e, last, hrefused, -⟩ |
      ⟨descriptor, borrows, after, -, hlaid, hprepared, -⟩
  · rw [hlay] at hfault
    cases hfault
  · rw [hlay] at hrefused
    cases hrefused
  · obtain ⟨last, hlast, hturn⟩ := hprepared hplain
    have hfragments : last.shared.platform.fragments = after.fragments :=
      congrArg TransferState.fragments hlast
    exact ⟨descriptor, last, hfragments.trans hlaid.fragments, hturn⟩

/-- As long as the books are kept, preparations get what they may expect. -/
theorem prepares (hbooks : Books busOf filled headers crew) (hfilled : IsPlatformPool filled)
    (host : Host ε (Kernel η κ)) : Prepares host busOf crew := by
  have hexists : ∀ call machine, MayBegin crew call machine →
      PageList.refusal crew.shared.heap call.buffer call.size = none →
      ∃ laid borrows after, PageList.lay busOf call.buffer call.size call.direction.direction
        (Kernel.transferView.get crew.shared) = .ok (.ok (laid, borrows, after)) := by
    intro call machine hmay hrefusal
    have hlay := hbooks.lay_of_mayBegin hfilled hmay
    rw [hrefusal] at hlay
    exact hlay
  refine ⟨fun call machine e hmay => hbooks.turn_refused hfilled host hmay,
    fun call machine hmay => hbooks.turn_plain hfilled host hmay, ?lends, ?waits, ?resumes⟩
  case lends =>
    intro call machine hmay hrefusal hneeds hsome
    obtain ⟨laid, borrows, after, hlay⟩ := hexists call machine hmay hrefusal
    obtain ⟨index, last, hindex, -, hfragments, hturn⟩ :=
      (hbooks.turn_needing hfilled host hmay.shared hmay.mayLock hneeds hlay).2 hsome
    exact ⟨laid.descriptor, index, last, hindex, hfragments, hturn⟩
  case waits =>
    intro call machine hmay hrefusal hneeds hfull
    obtain ⟨laid, borrows, after, hlay⟩ := hexists call machine hmay hrefusal
    obtain ⟨last, hfragments, hturn⟩ :=
      (hbooks.turn_needing hfilled host hmay.shared hmay.mayLock hneeds hlay).1 hfull
    exact ⟨laid.descriptor, last, hfragments, hturn⟩
  case resumes =>
    intro task own rest machine hactivity hshared hmay
    -- The books leave a call in progress no other place than the wait for its fragment.
    have htidy := hbooks.tidy task
    rw [hactivity] at htidy
    generalize headers task = header at htidy
    cases htidy with
    | @waiting _ descriptor call =>
      have hfragments : machine.shared.platform.fragments = crew.shared.platform.fragments := by
        rw [hshared]
      obtain ⟨hwaits, hlends⟩ :=
        hbooks.turn_waiting hfilled host hfragments hmay call descriptor
      refine ⟨call, descriptor, rfl, hwaits, fun hsome => ?_⟩
      obtain ⟨index, last, hindex, -, htaken, hturn⟩ := hlends hsome
      exact ⟨index, last, hindex, htaken, hturn⟩

end Books

end Transfer

end DriverHost
