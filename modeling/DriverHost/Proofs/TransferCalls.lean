import DriverHost.Proofs.Completion
import DriverHost.Proofs.HeaderBlocks

/-!
# Turns of the calls on transfers

Preparing a transfer lays its page list out, waits for a fragment if it needs one, and writes the
header; whether it waits is settled in its first turn.  Completing one takes a single turn.

Main results:

- Structure `Transfer`: a transfer with what it was last asked to describe.
- Structure `Preparation.LaidOut`: what laying a page list out does to heap and memory.
- Theorem `Preparation.turn_cases` and theorem `Preparation.turn_waiting`: the turns of a call
  that prepares a transfer.
- Theorem `Kernel.turn_completeBulk_lent`: the turn that completes a transfer with a fragment.
-/

namespace DriverHost

variable {ε η κ : Type}

/-! ## Describing a buffer -/

namespace PageList

variable {host : Host ε TransferState} {machine : Machine ε TransferState}
  {busOf : UInt64 → UInt32} {buffer length : UInt64} {direction : Direction} {list : PageList}

/-- What is left of describing a buffer once its page list is laid out and the core was checked. -/
def waitingFragment (list : PageList) (length : UInt64) (direction : Direction) :
    Coroutine ε TransferState (Except PageListError PageList) :=
  (FragmentPool.waiting.zoom TransferState.fragmentView).bind fun index =>
    finishHeader list length direction (some index)

/-- The state after the header of a page list was written. -/
def headed (list : PageList) (length : UInt64) (direction : Direction) (fragment : Option Nat)
    (state : TransferState) : TransferState :=
  { state with
    memory := storeHeader state.memory list.descriptor length.toUInt32
      (kindOf direction fragment) list.offset.toUInt16 }

theorem within_finishHeader (fragment : Option Nat) :
    (finishHeader list length direction fragment :
      Coroutine ε TransferState (Except PageListError PageList)).Within fun _ _ => True :=
  ⟨fun _ _ => trivial, fun _ => trivial⟩

theorem within_waitingFragment :
    (waitingFragment list length direction : Coroutine ε TransferState _).Within
      fun _ _ => True :=
  (FragmentPool.within_waiting.zoom fun _ _ => trivial).bind fun _ => within_finishHeader _

/-- Describing a buffer starts no threads, runs no rounds and stays on its core. -/
theorem within_create :
    (create busOf buffer length direction : Coroutine ε TransferState _).Within
      fun _ _ => True := by
  rw [create_eq]
  refine Coroutine.Within.bind ⟨fun _ _ => trivial, fun _ => trivial⟩ fun answer => ?_
  cases answer with
  | error e => trivial
  | ok laid =>
    refine Coroutine.Within.bind ?_ within_finishHeader
    cases laid.2 with
    | false => trivial
    | true =>
      exact (FragmentPool.within_acquire.zoom fun _ _ => trivial).bind fun _ => trivial

/-- A wait for a fragment ends with the lowest free one and the header, if one is counted. -/
theorem turn_waitingFragment (hmay : machine.scheduler.mayLock = true)
    (hguard : ¬ machine.shared.fragments.guard.isLocked = true) {index : Nat}
    (hlowest : machine.shared.fragments.available.count ≠ 0 →
      lowestBit 64 machine.shared.fragments.free.toNat = some index) :
    (waitingFragment list length direction).turn host machine =
      if machine.shared.fragments.available.count = 0 then
        .yielded (waitingFragment list length direction) machine
      else .returned (.ok { list with fragment := some index })
        (machine.withShared (headed list length direction (some index)
          { machine.shared with fragments := machine.shared.fragments.taken index })) := by
  have hpart : (machine.part TransferState.fragmentView).shared = machine.shared.fragments := rfl
  rw [waitingFragment, Coroutine.turn_bind,
    Coroutine.turn_zoom lawful_fragmentView FragmentPool.within_waiting,
    FragmentPool.turn_waiting _ hmay hguard hlowest, hpart]
  by_cases hempty : machine.shared.fragments.available.count = 0
  · rw [if_pos hempty, if_pos hempty]
    rfl
  · rw [if_neg hempty, if_neg hempty]
    rfl

/-- On a core that may lock, taking the fragment at first is the wait for it that goes on later. -/
theorem turn_takeFragment (hmay : machine.scheduler.mayLock = true) :
    ((takeFragment true).bind (finishHeader list length direction)).turn host machine =
      (waitingFragment list length direction).turn host machine := by
  have hsplit : (takeFragment true).bind (finishHeader list length direction) =
      ((FragmentPool.acquire.zoom TransferState.fragmentView).bind fun index =>
        finishHeader list length direction (some index) : Coroutine ε TransferState _) :=
    Coroutine.bind_assoc _ _ _
  rw [hsplit, waitingFragment, Coroutine.turn_bind, Coroutine.turn_bind,
    Coroutine.turn_zoom lawful_fragmentView FragmentPool.within_acquire,
    FragmentPool.turn_acquire _ hmay,
    Coroutine.turn_zoom lawful_fragmentView FragmentPool.within_waiting]

/-- The turn that lays a page list out goes on with its fragment and its header, unless the layout
is refused or meets a fault. -/
theorem turn_create_of_lay (host : Host ε TransferState) (busOf : UInt64 → UInt32)
    (buffer length : UInt64) (direction : Direction) (machine : Machine ε TransferState) :
    (create busOf buffer length direction).turn host machine =
      match lay busOf buffer length direction machine.shared with
      | .error cause => .failed cause machine
      | .ok (.error e) => .returned (.error e) machine
      | .ok (.ok (list, borrows, state)) =>
          ((takeFragment borrows).bind (finishHeader list length direction)).turn host
            (machine.withShared state) := by
  rw [create_eq, Coroutine.turn_bind, Coroutine.turn_act, layDown]
  cases lay busOf buffer length direction machine.shared with
  | error cause => rfl
  | ok answer =>
    cases answer with
    | error e => rfl
    | ok laid => rfl

/-- Laying a page list out is refused, meets a fault, or goes on in the same turn. -/
theorem turn_create_cases (host : Host ε TransferState) (machine : Machine ε TransferState)
    (busOf : UInt64 → UInt32) (buffer length : UInt64) (direction : Direction) :
    (∃ cause last, lay busOf buffer length direction machine.shared = .error cause ∧
      (create busOf buffer length direction).turn host machine = .failed cause last) ∨
    (∃ e, lay busOf buffer length direction machine.shared = .ok (.error e) ∧
      (create busOf buffer length direction).turn host machine =
        .returned (.error e) machine) ∨
    ∃ laid borrows next,
      lay busOf buffer length direction machine.shared = .ok (.ok (laid, borrows, next)) ∧
      (create busOf buffer length direction).turn host machine =
        ((takeFragment borrows).bind (finishHeader laid length direction)).turn host
          (machine.withShared next) := by
  rw [turn_create_of_lay]
  cases lay busOf buffer length direction machine.shared with
  | error cause => exact Or.inl ⟨_, _, rfl, rfl⟩
  | ok answer =>
    cases answer with
    | error e => exact Or.inr (Or.inl ⟨e, rfl, rfl⟩)
    | ok laid =>
      obtain ⟨list, borrows, next⟩ := laid
      exact Or.inr (Or.inr ⟨list, borrows, next, rfl, rfl⟩)

end PageList

/-! ## Calls -/

/-- A receive needs a fragment if its buffer begins or ends inside a cache line. -/
def NeedsFragment (buffer size : UInt64) (direction : BulkDirection) : Prop :=
  direction = .receive ∧ ((pageOffset buffer).toNat % 64 ≠ 0 ∨
    ((pageOffset buffer).toNat + size.toNat) % 64 ≠ 0)

/-- A transfer with what the last call that prepared it was asked to describe. -/
structure Transfer where
  bulk : Bulk
  buffer : UInt64 := 0
  size : UInt64 := 0
  direction : BulkDirection := .transmit

/-- What a call that prepares a transfer is given. -/
structure Preparation where
  bulk : Bulk
  handle : MemoryHandle
  buffer : UInt64
  size : UInt64
  direction : BulkDirection

namespace Preparation

variable (call : Preparation) (busOf : UInt64 → UInt32)

/-- The transfer that the call leaves behind. -/
def leaves (bulk : Bulk) : Transfer :=
  { bulk, buffer := call.buffer, size := call.size, direction := call.direction }

/-- The page list of the call's buffer at a place in memory. -/
def describes (descriptor : UInt64) (fragment : Option Nat) : PageList :=
  .describing busOf call.buffer call.size call.direction.direction descriptor fragment

/-- The transfer with a page list for the call's buffer. -/
def prepared (descriptor : UInt64) (fragment : Option Nat) : Transfer :=
  call.leaves (call.bulk.withPageList call.handle (call.describes busOf descriptor fragment))

/-- A handle that will not be used is remarked on. -/
def remark : Coroutine ε (Kernel η κ) Unit :=
  if call.handle ≠ MemoryHandle.invalid then
    Coroutine.act (Kernel.report .warning
      ("bulk memory handle " ++ MemoryHandle.text call.handle ++ " ignored"))
  else pure ()

/-- What follows once the buffer has been described or refused. -/
def concludes : Except PageListError PageList → Coroutine ε (Kernel η κ) Transfer
  | .error e =>
      (Coroutine.act (Kernel.report .warning ("create_pagelist failed: " ++ e.message))).bind
        fun _ => .done (call.leaves call.bulk)
  | .ok list => .done (call.leaves (call.bulk.withPageList call.handle list))

/-- The call, which forgets the status it answers. -/
def code : Coroutine ε (Kernel η κ) Transfer :=
  (Kernel.prepareBulk busOf call.bulk call.handle call.buffer call.size call.direction).bind
    fun answer => .done (call.leaves answer.2)

/-- What is left of the call while it waits for a fragment. -/
def waiting (descriptor : UInt64) : Coroutine ε (Kernel η κ) Transfer :=
  ((PageList.waitingFragment (call.describes busOf descriptor none) call.size
    call.direction.direction).zoom Kernel.transferView).bind call.concludes

/-- A preparation makes its remark, describes the buffer and then answers the engine. -/
theorem code_eq : (call.code busOf : Coroutine ε (Kernel η κ) Transfer) =
    call.remark.bind fun _ =>
      ((PageList.create busOf call.buffer call.size call.direction.direction).zoom
        Kernel.transferView).bind call.concludes := by
  have hanswered : ∀ answer : Except PageListError PageList,
      Coroutine.bind (match answer with
        | .error e => do
            Coroutine.act (Kernel.report .warning ("create_pagelist failed: " ++ e.message))
            return (TransferStatus.error, call.bulk)
        | .ok list => return (.success, call.bulk.withPageList call.handle list))
        (fun answer => .done (call.leaves answer.2)) =
      (call.concludes answer : Coroutine ε (Kernel η κ) Transfer) := by
    intro answer
    cases answer <;> rfl
  rw [code, Kernel.prepareBulk, remark]
  by_cases hhandle : call.handle ≠ MemoryHandle.invalid
  · simp only [if_pos hhandle]
    refine (Coroutine.bind_assoc _ _ _).trans ?_
    refine congrArg (Coroutine.bind _) (funext fun _ => ?_)
    refine (Coroutine.bind_assoc _ _ _).trans ?_
    exact congrArg (Coroutine.bind _) (funext hanswered)
  · simp only [if_neg hhandle]
    refine (Coroutine.bind_assoc _ _ _).trans ?_
    exact congrArg (Coroutine.bind _) (funext hanswered)

/-! ## Laying a page list out -/

/-- The state after the header of the call's page list was written. -/
def headed (descriptor : UInt64) (fragment : Option Nat) (part : TransferState) :
    TransferState :=
  PageList.headed (call.describes busOf descriptor none) call.size call.direction.direction
    fragment part

/-- A page list was laid out: it has a block above all blocks that were given out before, and
what these hold is still there. -/
structure LaidOut (descriptor : UInt64) (before after : TransferState) : Prop where
  fragments : after.fragments = before.fragments
  above : before.heap.next.toNat ≤ descriptor.toNat
  below : descriptor.toNat + 8 ≤ after.heap.next.toNat
  keeps : ∀ start : UInt64, start.toNat + 8 ≤ before.heap.next.toNat →
    Memory.AgreeOn before.memory after.memory start 8
  fits : call.buffer.toNat + call.size.toNat ≤ 2 ^ 64

variable {call busOf}

/-- In a pool of 64-byte lines, a page list that is laid out describes the call's buffer, and it
borrows a fragment exactly if the call needs one. -/
theorem laidOut_of_lay {before after : TransferState} {laid : PageList} {borrows : Bool}
    (hline : before.fragments.cacheLine = 64)
    (hlay : PageList.lay busOf call.buffer call.size call.direction.direction before =
      .ok (.ok (laid, borrows, after))) :
    ∃ descriptor, laid = call.describes busOf descriptor none ∧
      call.LaidOut descriptor before after ∧
      (borrows = true ↔ NeedsFragment call.buffer call.size call.direction) := by
  have hlaid := PageList.laidDown_of_lay hlay
  obtain ⟨descriptor, heap, words, hlength, hfits, hwords, rfl, rfl, hallocate, inside, hinside,
    rfl⟩ := PageList.lay_eq_ok hlay
  have habove : before.heap.next.toNat ≤ descriptor.toNat := hlaid.above
  have hbelow : descriptor.toNat + (call.describes busOf descriptor none).blockSize ≤
      heap.next.toNat := hlaid.below
  have hheader : 8 ≤ (call.describes busOf descriptor none).blockSize := Nat.le_add_right 8 _
  have hroom : descriptor.toNat + 8 ≤ heap.next.toNat := by omega
  have htop := heap.next.toNat_lt
  refine ⟨descriptor, rfl, ⟨rfl, habove, hroom, ?_, hfits⟩, ?_⟩
  · intro start hstart
    have hapart : Memory.Apart start 8 descriptor
        (call.describes busOf descriptor none).blockSize := .of_le (by omega) (by omega)
    exact hlaid.outside.agreeOn hapart.symm (by decide)
  · have hoffset : (pageOffset call.buffer).toNat < 4096 := by
      rw [toNat_pageOffset]
      omega
    have hpower : (64 : UInt64).toNat.isPowerOfTwo := ⟨6, rfl⟩
    have hline64 : (64 : UInt64).toNat = 64 := rfl
    rw [hline, PageList.misaligned_eq_ok hpower (by omega), hline64] at hinside
    cases hinside
    cases hdirection : call.direction <;>
      simp [NeedsFragment, BulkDirection.direction]

/-! ## Turns of a preparation -/

section Turns

variable {host : Host ε (Kernel η κ)} {machine : Machine ε (Kernel η κ)}

/-- A report is made at once. -/
theorem turn_report (severity : Severity) (message : String) :
    (Coroutine.act (Kernel.report severity message)).turn host machine =
      .returned () (machine.withShared
        (machine.shared.log severity platformLogSource message)) := by
  rw [Coroutine.turn_act]
  rfl

/-- The remark of a preparation touches neither the pool nor the memory nor the heap. -/
theorem turn_remark (call : Preparation) (host : Host ε (Kernel η κ))
    (machine : Machine ε (Kernel η κ)) :
    ∃ kernel, Kernel.transferView.get kernel = Kernel.transferView.get machine.shared ∧
      call.remark.turn host machine = .returned () (machine.withShared kernel) := by
  by_cases hhandle : call.handle ≠ MemoryHandle.invalid
  · rw [remark, if_pos hhandle, turn_report]
    refine ⟨_, ?_, rfl⟩
    rfl
  · rw [remark, if_neg hhandle]
    exact ⟨machine.shared, rfl, rfl⟩

/-- A refused description leaves the transfer as it was. -/
theorem turn_concludes_error (call : Preparation) (host : Host ε (Kernel η κ))
    (machine : Machine ε (Kernel η κ)) (e : PageListError) :
    ∃ last, Kernel.transferView.get last.shared = Kernel.transferView.get machine.shared ∧
      (call.concludes (.error e)).turn host machine = .returned (call.leaves call.bulk) last := by
  rw [concludes, Coroutine.turn_bind, turn_report]
  refine ⟨_, ?_, rfl⟩
  rfl

/-- A wait for a fragment goes on while none is counted, and otherwise ends with the lowest free
one and the header. -/
theorem turn_waiting (call : Preparation) (busOf : UInt64 → UInt32) (descriptor : UInt64)
    (host : Host ε (Kernel η κ)) {part : TransferState}
    (hpart : Kernel.transferView.get machine.shared = part)
    (hmay : machine.scheduler.mayLock = true)
    (hguard : ¬ part.fragments.guard.isLocked = true) {index : Nat}
    (hlowest : part.fragments.available.count ≠ 0 →
      lowestBit 64 part.fragments.free.toNat = some index) :
    (part.fragments.available.count = 0 →
      (call.waiting busOf descriptor).turn host machine =
        .yielded (call.waiting busOf descriptor) machine) ∧
    (part.fragments.available.count ≠ 0 →
      ∃ last, Kernel.transferView.get last.shared =
          call.headed busOf descriptor (some index)
            { part with fragments := part.fragments.taken index } ∧
        (call.waiting busOf descriptor).turn host machine =
          .returned (call.prepared busOf descriptor (some index)) last) := by
  have hshared : (machine.part Kernel.transferView).shared = part := hpart
  rw [waiting, Coroutine.turn_bind, Coroutine.turn_zoom Kernel.lawful_transferView
    PageList.within_waitingFragment, PageList.turn_waitingFragment, hshared]
  · constructor
    · intro hempty
      rw [if_pos hempty, Coroutine.Turn.onWhole,
        Machine.withPart_part Kernel.lawful_transferView]
      rfl
    · intro hsome
      rw [if_neg hsome]
      exact ⟨_, rfl, rfl⟩
  · exact hmay
  · rw [hshared]
    exact hguard
  · rw [hshared]
    exact hlowest

/-- A new preparation meets a fault or a refusal of the layout; otherwise it ends in this turn
without a fragment, or goes on as a wait for one. -/
theorem turn_cases (call : Preparation) (busOf : UInt64 → UInt32) (host : Host ε (Kernel η κ))
    (hmay : machine.scheduler.mayLock = true) {part : TransferState}
    (hpart : Kernel.transferView.get machine.shared = part)
    (hline : part.fragments.cacheLine = 64) :
    (∃ cause last,
      PageList.lay busOf call.buffer call.size call.direction.direction part = .error cause ∧
      (call.code busOf).turn host machine = .failed cause last) ∨
    (∃ e last,
      PageList.lay busOf call.buffer call.size call.direction.direction part = .ok (.error e) ∧
      Kernel.transferView.get last.shared = part ∧
      (call.code busOf).turn host machine = .returned (call.leaves call.bulk) last) ∨
    ∃ descriptor borrows after,
      PageList.lay busOf call.buffer call.size call.direction.direction part =
        .ok (.ok (call.describes busOf descriptor none, borrows, after)) ∧
      call.LaidOut descriptor part after ∧
      (¬ NeedsFragment call.buffer call.size call.direction →
        ∃ last, Kernel.transferView.get last.shared = call.headed busOf descriptor none after ∧
          (call.code busOf).turn host machine =
            .returned (call.prepared busOf descriptor none) last) ∧
      (NeedsFragment call.buffer call.size call.direction →
        ∃ kernel, Kernel.transferView.get kernel = after ∧
          (call.code busOf).turn host machine =
            (call.waiting busOf descriptor).turn host (machine.withShared kernel)) := by
  obtain ⟨kernel, hkernel, hremark⟩ := turn_remark call host machine
  have hshared : ((machine.withShared kernel).part Kernel.transferView).shared = part :=
    hkernel.trans hpart
  rw [code_eq, Coroutine.turn_bind, hremark]
  simp only [Coroutine.carryOn]
  rw [Coroutine.turn_bind, Coroutine.turn_zoom Kernel.lawful_transferView PageList.within_create]
  rcases PageList.turn_create_cases (.still ε TransferState)
      ((machine.withShared kernel).part Kernel.transferView) busOf call.buffer call.size
      call.direction.direction with
    ⟨cause, last, hlay, hturn⟩ | ⟨e, hlay, hturn⟩ | ⟨laid, borrows, after, hlay, hturn⟩
  · rw [hshared] at hlay
    rw [hturn]
    exact Or.inl ⟨cause, _, hlay, rfl⟩
  · rw [hshared] at hlay
    rw [hturn]
    obtain ⟨last, hlast, hconcludes⟩ :=
      turn_concludes_error call host (machine.withShared kernel) e
    refine Or.inr (Or.inl ⟨e, last, hlay, hlast.trans (hkernel.trans hpart), ?_⟩)
    rw [Coroutine.Turn.onWhole, Machine.withPart_part Kernel.lawful_transferView]
    exact hconcludes
  · rw [hshared] at hlay
    obtain ⟨descriptor, rfl, hlaid, hborrows⟩ := laidOut_of_lay hline hlay
    rw [hturn]
    refine Or.inr (Or.inr ⟨descriptor, borrows, after, hlay, hlaid, ?_, ?_⟩)
    · intro hplain
      obtain rfl : borrows = false := by
        rw [← Bool.not_eq_true, hborrows]
        exact hplain
      exact ⟨_, rfl, rfl⟩
    · intro hneeds
      obtain rfl : borrows = true := hborrows.2 hneeds
      refine ⟨Kernel.transferView.set after kernel, rfl, ?_⟩
      rw [PageList.turn_takeFragment]
      · rw [waiting, Coroutine.turn_bind, Coroutine.turn_zoom Kernel.lawful_transferView
          PageList.within_waitingFragment]
        rfl
      · exact hmay

/-- A preparation that needs a fragment and whose page list is laid out goes on as a wait. -/
theorem turn_of_lay (call : Preparation) (busOf : UInt64 → UInt32) (host : Host ε (Kernel η κ))
    (hmay : machine.scheduler.mayLock = true) {part after : TransferState}
    (hpart : Kernel.transferView.get machine.shared = part)
    (hline : part.fragments.cacheLine = 64)
    (hneeds : NeedsFragment call.buffer call.size call.direction) {laid : PageList}
    {borrows : Bool} (hlay : PageList.lay busOf call.buffer call.size call.direction.direction
      part = .ok (.ok (laid, borrows, after))) :
    ∃ kernel, Kernel.transferView.get kernel = after ∧
      call.LaidOut laid.descriptor part after ∧
      (call.code busOf).turn host machine =
        (call.waiting busOf laid.descriptor).turn host (machine.withShared kernel) := by
  rcases turn_cases call busOf host hmay hpart hline with
    ⟨cause, last, hfault, -⟩ | ⟨e, last, hrefused, -⟩ |
      ⟨descriptor, also, reached, hreached, hlaid, -, hwaits⟩
  · rw [hlay] at hfault
    cases hfault
  · rw [hlay] at hrefused
    cases hrefused
  · rw [hlay] at hreached
    cases hreached
    obtain ⟨kernel, hkernel, hturn⟩ := hwaits hneeds
    exact ⟨kernel, hkernel, hlaid, hturn⟩

end Turns

end Preparation

/-! ## Turns of a completion -/

namespace Kernel

variable {host : Host ε (Kernel η κ)} {machine : Machine ε (Kernel η κ)} {bulk : Bulk}
  {list : PageList}

/-- Completing a transfer without a page list does nothing. -/
theorem turn_completeBulk_none (hnone : bulk.pageList = none) :
    (completeBulk bulk).turn host machine = .returned bulk machine := by
  rw [completeBulk, hnone]
  rfl

/-- Completing a transfer without a fragment only forgets the page list. -/
theorem turn_completeBulk_plain (hlist : bulk.pageList = some list)
    (hfragment : list.fragment = none) :
    (completeBulk bulk).turn host machine = .returned { bulk with pageList := none } machine := by
  rw [completeBulk_eq hlist, PageList.finish_eq_done hfragment]
  rfl

/-- Completing a transfer with a fragment of which no more arrived than was asked for changes its
buffer only, and gives the fragment back. -/
theorem turn_completeBulk_lent {part : TransferState} {index : Nat} {line fragment : UInt64}
    (hpart : transferView.get machine.shared = part) (hmay : machine.scheduler.mayLock = true)
    (hguard : part.fragments.guard.isLocked = false) (hlist : bulk.pageList = some list)
    (hfragment : list.fragment = some index) (hlends : part.fragments.Lends index line fragment)
    (hoffset : list.offset = pageOffset list.buffer)
    (hfits : list.buffer.toNat + list.length.toNat ≤ 2 ^ 64)
    (hapart : Memory.Apart fragment (2 * line.toNat) list.buffer list.length.toNat)
    (hcount : bulk.actual.toInt ≤ list.length.toNat) :
    ∃ memory last,
      (∀ address, ¬ (address - list.buffer).toNat < list.length.toNat →
        memory.byte address = part.memory.byte address) ∧
      transferView.get last.shared =
        { part with memory, fragments := part.fragments.returned index } ∧
      (completeBulk bulk).turn host machine = .returned { bulk with pageList := none } last := by
  have hshared : (machine.part transferView).shared = part := hpart
  have hstays : ¬ PageList.Overruns list.length.toNat (list.buffer.toNat % 4096) line.toNat
      bulk.actual.toInt.toNat := PageList.not_overruns_of_le (by omega)
  obtain ⟨memory, hcopied, houtside, -⟩ :=
    PageList.exists_copied_inside hoffset hfits hlends hapart hstays
  rw [← hshared] at hcopied hlends hguard
  have hfinish : (PageList.finish list bulk.actual).turn (.still ε TransferState)
      (machine.part transferView) = _ :=
    PageList.turn_finish hfragment hmay hlends.lent hcopied hguard
  rw [completeBulk_eq hlist, Coroutine.turn_bind,
    Coroutine.turn_zoom lawful_transferView (PageList.within_finish _ _), hfinish, hshared]
  exact ⟨memory, _, houtside, rfl, rfl⟩

/-- Completing a transfer whose fragment is free already is a bug, if its copies succeed. -/
theorem turn_completeBulk_free {part : TransferState} {index : Nat} {memory : Memory}
    (hpart : transferView.get machine.shared = part) (hmay : machine.scheduler.mayLock = true)
    (hguard : part.fragments.guard.isLocked = false) (hlist : bulk.pageList = some list)
    (hfragment : list.fragment = some index) (hindex : index < part.fragments.count)
    (hfree : part.fragments.free &&& FragmentPool.bit index ≠ 0)
    (hcopied : PageList.copied list index bulk.actual part = .ok memory) :
    ∃ last, (completeBulk bulk).turn host machine = .failed (.bug none) last := by
  have hshared : (machine.part transferView).shared = part := hpart
  rw [← hshared] at hguard hindex hfree hcopied
  obtain ⟨last, hfinish⟩ : ∃ last, (PageList.finish list bulk.actual).turn (.still ε TransferState)
      (machine.part transferView) = .failed (.bug none) last :=
    PageList.turn_finish_free hfragment hmay hindex hfree hcopied hguard
  rw [completeBulk_eq hlist, Coroutine.turn_bind,
    Coroutine.turn_zoom lawful_transferView (PageList.within_finish _ _), hfinish]
  exact ⟨_, rfl⟩

end Kernel

end DriverHost
