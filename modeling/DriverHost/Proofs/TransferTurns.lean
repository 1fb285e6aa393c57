import DriverHost.Proofs.TransferAccounts

/-!
# Turns of the calls on transfers

Any number of transfers are prepared and completed, again and again, and their calls switch
wherever one waits for a fragment.  Each turn moves at most one fragment, from the pool to a page
list or back, and keeps the books on all transfers.

Main results:

- Inductive type `Transfer.Call`: the calls that a transfer allows.
- Theorem `Transfer.Books.turn`: a turn of any call keeps the books or meets a fault.
- Theorem `Transfer.Books.turn_completes`: completing a transfer takes one turn.
- Theorem `Transfer.Books.step` and theorem `Transfer.Books.elsewhere`: what turns of transfers
  and of other code leave of the books.
-/

namespace DriverHost

namespace Transfer

variable {ε η κ : Type}

/-! ## Calls -/

/-- The calls on a transfer: one without a page list is prepared, and any is completed, with no
more bytes reported than it was to transfer.  The engine may have changed the rest of the
transfer before. -/
inductive Call (busOf : UInt64 → UInt32) (own : Transfer) :
    Coroutine ε (Kernel η κ) Transfer → Prop
  | prepares {call : Preparation} (hnone : own.bulk.pageList = none)
      (hgiven : call.bulk.pageList = none) : Call busOf own (call.code busOf)
  | completes {given : Bulk} (hgiven : given.pageList = own.bulk.pageList)
      (hcount : ∀ list, given.pageList = some list → given.actual.toInt ≤ list.length.toNat) :
      Call busOf own ((Kernel.completeBulk given).bind fun bulk => .done { own with bulk })

/-- The buffers of all page lists lie outside the fragments and outside all page lists. -/
structure Placed (crew : Transfers ε η κ) : Prop where
  fragments : ∀ task list, (crew.own task).bulk.pageList = some list →
    Memory.Apart crew.shared.platform.fragments.base fragmentMemorySize.toNat
      list.buffer list.length.toNat
  descriptors : ∀ task other list second, (crew.own task).bulk.pageList = some list →
    (crew.own other).bulk.pageList = some second →
    Memory.Apart second.descriptor (8 + 4 * second.pages) list.buffer list.length.toNat

/-- Other code and the devices leave the transfers, the pool and the page lists alone, and take
blocks of the heap at most. -/
structure Elsewhere (crew next : Transfers ε η κ) : Prop where
  activity : next.activity = crew.activity
  fragments : next.shared.platform.fragments = crew.shared.platform.fragments
  heap : crew.shared.heap.next.toNat ≤ next.shared.heap.next.toNat
  keeps : ∀ task list, (crew.own task).bulk.pageList = some list →
    Memory.AgreeOn crew.shared.board.device next.shared.board.device list.descriptor
      (8 + 4 * list.pages)

/-- The pool that the platform begins with: all of its fragments are free. -/
structure IsPlatformPool (filled : FragmentPool) : Prop where
  count : filled.count = 64
  size : filled.fragmentSize.toNat = 2 * 64
  fits : filled.base.toNat + fragmentMemorySize.toNat ≤ 2 ^ 64
  free : filled.free = FragmentPool.allFree filled.count
  available : filled.available.count = UInt32.ofNat filled.count
  guard : ¬ filled.guard.isLocked = true

/-! ## What a turn keeps -/

/-- A turn that ends a call leaves its transfer's fragment alone, borrows one that is counted, or
gives the transfer's own one back. -/
inductive Moves (crew : Transfers ε η κ) (task : TaskId) (left : Transfer) : Prop
  | nothing (hsame : left.fragments = (crew.own task).fragments)
  | borrows (hsome : crew.shared.platform.fragments.available.count ≠ 0)
  | gives (hheld : (crew.own task).fragments ≠ []) (hnone : left.bulk.pageList = none)

/-- A turn meets a fault or keeps the books. -/
inductive Outcome (busOf : UInt64 → UInt32) (filled : FragmentPool) (crew : Transfers ε η κ)
    (task : TaskId) : Turn ε (Kernel η κ) Transfer → Prop
  | failed {cause last} : Outcome busOf filled crew task (.failed cause last)
  | yielded {rest last headers}
      (hbooks : Books busOf filled headers
        (crew.leave task last.shared (.calling (crew.own task) rest))) :
      Outcome busOf filled crew task (.yielded rest last)
  | returned {left last headers}
      (hbooks : Books busOf filled headers (crew.leave task last.shared (.idle left)))
      (hmoves : Moves crew task left) :
      Outcome busOf filled crew task (.returned left last)

namespace Books

variable {busOf : UInt64 → UInt32} {filled : FragmentPool} {headers : TaskId → Option UInt64}
  {crew : Transfers ε η κ} {task : TaskId} {call : Preparation} {own : Transfer}
  {descriptor : UInt64}

/-- A transfer that is left without a page list leaves all headers where they were. -/
theorem leave_bare (hbooks : Books busOf filled headers crew) (kernel : Kernel η κ)
    {left : Transfer} (hnone : left.bulk.pageList = none)
    (haccounted : FragmentPool.Accounted filled
      ((pool crew).leave task kernel.platform.fragments (.idle [])))
    (hheap : kernel.heap = crew.shared.heap)
    (hkeeps : ∀ other list, other ≠ task → (crew.own other).bulk.pageList = some list →
      Memory.AgreeOn crew.shared.board.device kernel.board.device list.descriptor 8) :
    ∃ headers, Books busOf filled headers (crew.leave task kernel (.idle left)) := by
  refine ⟨_, hbooks.leave ?_ ?_ (Or.inl rfl) ?_ (.bare hnone)⟩
  · rw [poolActivity, fragments_of_none hnone]
    exact haccounted
  · rw [hheap]
  · exact fun other list hne hlist _ => hkeeps other list hne hlist

/-- A page list that was laid out has its header's block, whatever becomes of its call. -/
theorem leave_laid (hbooks : Books busOf filled headers crew) (kernel : Kernel η κ)
    (activity : Activity ε (Kernel η κ) Transfer)
    (hlaid : call.LaidOut descriptor (Kernel.transferView.get crew.shared)
      (Kernel.transferView.get kernel)) (hown : activity.own = crew.own task)
    (htidy : Tidy busOf kernel.board.device (some descriptor) activity) :
    Books busOf filled (Function.update headers task (some descriptor))
      (crew.leave task kernel activity) := by
  have hfragments : kernel.platform.fragments = (pool crew).shared := hlaid.fragments
  have hheap : crew.shared.heap.next.toNat ≤ kernel.heap.next.toNat := by
    have habove := hlaid.above
    have hbelow := hlaid.below
    simp only [Kernel.transferView] at habove hbelow
    omega
  refine hbooks.leave ?_ hheap (Or.inr ⟨descriptor, rfl, hlaid.above, hlaid.below⟩) ?_ htidy
  · rw [hfragments]
    apply hbooks.accounted.leave_same
    · rw [own_poolActivity, hown, own_pool]
    · exact waits_poolActivity activity
  · intro other list _ _ hheader
    exact hlaid.keeps list.descriptor (hbooks.below other list.descriptor hheader)

/-- A page list whose header is written is stored with the fragment that the header names. -/
theorem leave_headed (hbooks : Books busOf filled headers crew)
    (hheader : headers task = some descriptor) {kernel : Kernel η κ} {fragment : Option Nat}
    {fragments : FragmentPool}
    (hkernel : Kernel.transferView.get kernel = call.headed busOf descriptor fragment
      { Kernel.transferView.get crew.shared with fragments })
    (haccounted : FragmentPool.Accounted filled
      ((pool crew).leave task fragments (.idle fragment.toList)))
    (hfits : call.buffer.toNat + call.size.toNat ≤ 2 ^ 64)
    (hborrowed : fragment.isSome = true ↔ NeedsFragment call.buffer call.size call.direction) :
    ∃ headers, Books busOf filled headers
      (crew.leave task kernel (.idle (call.prepared busOf descriptor fragment))) := by
  have hpool : kernel.platform.fragments = fragments := congrArg TransferState.fragments hkernel
  have hheap : kernel.heap = crew.shared.heap := congrArg TransferState.heap hkernel
  have hmemory : kernel.board.device = PageList.storeHeader crew.shared.board.device descriptor
      call.size.toUInt32 (PageList.kindOf call.direction.direction fragment)
      (pageOffset call.buffer).toUInt16 := congrArg TransferState.memory hkernel
  have htidy : Tidy busOf kernel.board.device
      (some (call.describes busOf descriptor fragment).descriptor)
      (.idle (call.prepared busOf descriptor fragment) : Activity ε (Kernel η κ) Transfer) := by
    refine .stored rfl ⟨rfl, hfits, hborrowed⟩ ?_
    rw [hmemory]
    exact PageList.kind_storeHeader _ _ _ _ _
  refine ⟨_, hbooks.leave ?_ ?_ (Or.inl hheader.symm) ?_ htidy⟩
  · rw [hpool]
    exact haccounted
  · rw [hheap]
  · intro other list hne _ hother
    rw [hmemory]
    exact PageList.agreeOn_storeHeader _ _ _ _
      (hbooks.apart task other descriptor list.descriptor (Ne.symm hne) hheader hother)

/-! ### Waiting -/

/-- A wait for a fragment goes on while none is counted, and otherwise stores the page list with
the lowest free one. -/
theorem turn_waits (hbooks : Books busOf filled headers crew) (hfilled : IsPlatformPool filled)
    (host : Host ε (Kernel η κ)) {machine : Machine ε (Kernel η κ)}
    (hshared : machine.shared = crew.shared) (hmay : machine.scheduler.mayLock = true)
    (hnone : (crew.own task).bulk.pageList = none) (hheader : headers task = some descriptor)
    (hactivity : crew.activity task = .calling own (call.waiting busOf descriptor))
    (hfits : call.buffer.toNat + call.size.toNat ≤ 2 ^ 64)
    (hneeds : NeedsFragment call.buffer call.size call.direction) :
    Outcome busOf filled crew task ((call.waiting busOf descriptor).turn host machine) := by
  have hcount : filled.count ≤ 64 := Nat.le_of_eq hfilled.count
  have hledger := hbooks.accounted.ledger
  have hpart : Kernel.transferView.get machine.shared = Kernel.transferView.get crew.shared := by
    rw [hshared]
  by_cases hempty : crew.shared.platform.fragments.available.count = 0
  · have hlowest : crew.shared.platform.fragments.available.count ≠ 0 →
        lowestBit 64 crew.shared.platform.fragments.free.toNat = some 0 :=
      fun hsome => absurd hempty hsome
    rw [(call.turn_waiting busOf descriptor host hpart hmay hledger.guard hlowest).1 hempty]
    have hsame : crew.leave task machine.shared
        (.calling (crew.own task) (call.waiting busOf descriptor)) = crew := by
      rw [Crew.own, hactivity, Activity.own, ← hactivity, hshared, Crew.leave_self]
    exact .yielded (hsame.symm ▸ hbooks)
  · obtain ⟨index, hlowest, hfree, -⟩ := hledger.exists_lowest hcount hempty
    obtain ⟨last, hlast, hturn⟩ := (call.turn_waiting busOf descriptor host hpart hmay
      hledger.guard fun _ => hlowest).2 hempty
    rw [hturn]
    have htaken : FragmentPool.Accounted filled ((pool crew).leave task
        (crew.shared.platform.fragments.taken index) (.idle [index])) := by
      have hleave : FragmentPool.Accounted filled ((pool crew).leave task
          ((pool crew).shared.taken index) (.idle (index :: (pool crew).own task))) :=
        hbooks.accounted.leave_taken hcount hfree hempty
      rw [own_pool, fragments_of_none hnone] at hleave
      exact hleave
    obtain ⟨headers, hlater⟩ := hbooks.leave_headed hheader hlast htaken hfits
      ⟨fun _ => hneeds, fun _ => rfl⟩
    exact .returned hlater (.borrows hempty)

/-! ### Preparing -/

/-- What a turn leaves of a transfer that was laid out first is what it leaves of it before. -/
theorem outcome_of_laid {kernel : Kernel η κ} {rest : Coroutine ε (Kernel η κ) Transfer}
    (hfragments : kernel.platform.fragments = crew.shared.platform.fragments)
    {turn : Turn ε (Kernel η κ) Transfer}
    (houtcome : Outcome busOf filled (crew.leave task kernel (.calling (crew.own task) rest)) task
      turn) : Outcome busOf filled crew task turn := by
  have hown : (crew.leave task kernel (.calling (crew.own task) rest)).own task =
      crew.own task := by
    rw [Crew.leave_own, if_pos rfl, Activity.own]
  cases houtcome with
  | failed => exact .failed
  | yielded hbooks =>
    rw [Crew.leave_leave, hown] at hbooks
    exact .yielded hbooks
  | returned hbooks hmoves =>
    rw [Crew.leave_leave] at hbooks
    refine .returned hbooks ?_
    cases hmoves with
    | nothing hsame => exact .nothing (hsame.trans (by rw [hown]))
    | borrows hsome =>
      rw [Crew.leave_shared, hfragments] at hsome
      exact .borrows hsome
    | gives hheld hnone =>
      rw [hown] at hheld
      exact .gives hheld hnone

/-- However long the pool has been in use, its lines have 64 bytes. -/
theorem cacheLine (hbooks : Books busOf filled headers crew) (hfilled : IsPlatformPool filled) :
    crew.shared.platform.fragments.cacheLine = 64 := by
  have hsize : crew.shared.platform.fragments.fragmentSize = filled.fragmentSize :=
    hbooks.accounted.ledger.size
  have htwo : (2 : UInt64).toNat = 2 := rfl
  rw [← UInt64.toNat_inj, FragmentPool.cacheLine, UInt64.toNat_div, hsize, hfilled.size, htwo]
  rfl

/-- A task that has no fragment may leave with none. -/
theorem accounted_leave_nil (hbooks : Books busOf filled headers crew)
    (hnothing : (crew.own task).fragments = []) :
    FragmentPool.Accounted filled
      ((pool crew).leave task crew.shared.platform.fragments (.idle [])) := by
  apply hbooks.accounted.leave_same
  · rw [own_pool, hnothing]
    rfl
  · exact Activity.calling_of_idle

/-- A transfer without a fragment is left without a page list by a call that moved nothing. -/
theorem leave_unmoved (hbooks : Books busOf filled headers crew) (kernel : Kernel η κ)
    (hnothing : (crew.own task).fragments = []) {left : Transfer}
    (hbare : left.bulk.pageList = none)
    (hkernel : Kernel.transferView.get kernel = Kernel.transferView.get crew.shared) :
    ∃ headers, Books busOf filled headers (crew.leave task kernel (.idle left)) := by
  have hfragments : kernel.platform.fragments = crew.shared.platform.fragments :=
    congrArg TransferState.fragments hkernel
  have hmemory : kernel.board.device = crew.shared.board.device :=
    congrArg TransferState.memory hkernel
  refine hbooks.leave_bare kernel hbare ?_ (congrArg TransferState.heap hkernel) ?_
  · rw [hfragments]
    exact hbooks.accounted_leave_nil hnothing
  · rw [hmemory]
    exact fun _ _ _ _ => Memory.AgreeOn.refl _ _ _

/-- A page list that needs no fragment is laid out and gets its header in one turn. -/
theorem leave_plain (hbooks : Books busOf filled headers crew)
    (hnone : (crew.own task).bulk.pageList = none) {after : TransferState} {kernel : Kernel η κ}
    (hlaid : call.LaidOut descriptor (Kernel.transferView.get crew.shared) after)
    (hkernel : Kernel.transferView.get kernel = call.headed busOf descriptor none after)
    (hplain : ¬ NeedsFragment call.buffer call.size call.direction) :
    ∃ headers, Books busOf filled headers
      (crew.leave task kernel (.idle (call.prepared busOf descriptor none))) := by
  have hlater := hbooks.leave_laid (Kernel.transferView.set after crew.shared)
    (.idle (crew.own task)) hlaid rfl (.bare hnone)
  have hbare : ((crew.leave task (Kernel.transferView.set after crew.shared)
      (.idle (crew.own task))).own task).bulk.pageList = none := by
    rw [Crew.leave_own, if_pos rfl]
    exact hnone
  have hstored := hlater.leave_headed (Function.update_self _ _ _) hkernel
    (hlater.accounted_leave_nil (fragments_of_none hbare)) hlaid.fits
    (iff_of_false Bool.false_ne_true hplain)
  rwa [Crew.leave_leave] at hstored

/-- A preparation that begins keeps the books. -/
theorem turn_prepares (hbooks : Books busOf filled headers crew)
    (hfilled : IsPlatformPool filled) (host : Host ε (Kernel η κ))
    {machine : Machine ε (Kernel η κ)} (hshared : machine.shared = crew.shared)
    (hmay : machine.scheduler.mayLock = true) (hnone : (crew.own task).bulk.pageList = none)
    (hgiven : call.bulk.pageList = none) :
    Outcome busOf filled crew task ((call.code busOf).turn host machine) := by
  have hpart : Kernel.transferView.get machine.shared = Kernel.transferView.get crew.shared := by
    rw [hshared]
  rcases Preparation.turn_cases call busOf host hmay hpart (hbooks.cacheLine hfilled) with
    ⟨cause, last, -, hturn⟩ | ⟨e, last, -, hlast, hturn⟩ |
      ⟨descriptor, -, after, -, hlaid, hplain, hneeds⟩
  · rw [hturn]
    exact .failed
  · rw [hturn]
    have hbare : (call.leaves call.bulk).bulk.pageList = none := hgiven
    obtain ⟨headers, hlater⟩ :=
      hbooks.leave_unmoved last.shared (fragments_of_none hnone) hbare hlast
    refine .returned hlater (.nothing ?_)
    rw [fragments_of_none hbare, fragments_of_none hnone]
  · by_cases hborrows : NeedsFragment call.buffer call.size call.direction
    · obtain ⟨kernel, rfl, hturn⟩ := hneeds hborrows
      have hlater := hbooks.leave_laid kernel
        (.calling (crew.own task) (call.waiting busOf descriptor)) hlaid rfl
        (.waiting hnone hlaid.fits hborrows)
      rw [hturn]
      refine outcome_of_laid hlaid.fragments (hlater.turn_waits hfilled host rfl hmay ?_
        (Function.update_self _ _ _) (Function.update_self _ _ _) hlaid.fits hborrows)
      rw [Crew.leave_own, if_pos rfl]
      exact hnone
    · obtain ⟨last, hlast, hturn⟩ := hplain hborrows
      obtain ⟨headers, hlater⟩ := hbooks.leave_plain hnone hlaid hlast hborrows
      rw [hturn]
      exact .returned hlater (.nothing (fragments_of_none hnone).symm)

/-! ### Completing -/

/-- The fragment of a page list is lent, and lies outside the page list's buffer. -/
theorem lends (hbooks : Books busOf filled headers crew) (hfilled : IsPlatformPool filled)
    (hplaced : Placed crew) {list : PageList} {index : Nat}
    (hlist : (crew.own task).bulk.pageList = some list) (hfragment : list.fragment = some index) :
    ∃ fragment, crew.shared.platform.fragments.Lends index 64 fragment ∧
      Memory.Apart fragment (2 * (64 : UInt64).toNat) list.buffer list.length.toNat := by
  have hledger := hbooks.accounted.ledger
  have hmem : index ∈ (pool crew).own task := by
    rw [own_pool, fragments_of_some hlist, hfragment]
    exact List.mem_singleton_self index
  have hindex := hledger.below task index hmem
  have hbase : crew.shared.platform.fragments.base = filled.base := hledger.base
  have hsize : crew.shared.platform.fragments.fragmentSize.toNat = 2 * 64 := by
    rw [← hfilled.size]
    exact congrArg UInt64.toNat hledger.size
  have hfits := hfilled.fits
  have hmemory : fragmentMemorySize.toNat = 8192 := rfl
  have hline : (64 : UInt64).toNat = 64 := rfl
  rw [hfilled.count] at hindex
  rw [← hbase, hmemory] at hfits
  have hbelow : crew.shared.platform.fragments.base.toNat +
      index * crew.shared.platform.fragments.fragmentSize.toNat < 2 ^ 64 := by
    rw [hsize]
    omega
  obtain ⟨fragment, haddress, hplace⟩ := FragmentPool.address_eq_ok hbelow (by omega)
  rw [hsize] at hplace
  refine ⟨fragment, ⟨by decide, by rw [hsize, hline], haddress, ?_, ?_⟩, ?_⟩
  · exact (hledger.count.trans hfilled.count).le
  · exact hledger.isLent hfilled.count.le hmem
  · refine (hplaced.fragments task list hlist).of_inside (by omega) ?_ ?_
    · rw [hline, hmemory]
      omega
    · rw [hmemory]
      omega

/-- Completing a transfer with a fragment gives the fragment back and writes to its buffer at
most. -/
theorem turn_completes_lent (hbooks : Books busOf filled headers crew)
    (hfilled : IsPlatformPool filled) (hplaced : Placed crew) (host : Host ε (Kernel η κ))
    {machine : Machine ε (Kernel η κ)} (hshared : machine.shared = crew.shared)
    (hmay : machine.scheduler.mayLock = true) {given : Bulk} {list : PageList} {index : Nat}
    (hlist : (crew.own task).bulk.pageList = some list)
    (hdescribed : (crew.own task).Described busOf list) (hfragment : list.fragment = some index)
    (hgiven : given.pageList = some list) (hcount : given.actual.toInt ≤ list.length.toNat)
    {left : Transfer} (hbare : left.bulk.pageList = none) :
    ∃ last headers,
      (Kernel.completeBulk given).turn host machine =
        .returned { given with pageList := none } last ∧
      last.shared.platform.fragments = crew.shared.platform.fragments.returned index ∧
      Books busOf filled headers (crew.leave task last.shared (.idle left)) := by
  have hcount64 : filled.count ≤ 64 := hfilled.count.le
  have hfits : list.buffer.toNat + list.length.toNat ≤ 2 ^ 64 := by
    rw [hdescribed.buffer, hdescribed.length]
    exact hdescribed.fits
  obtain ⟨fragment, hlends, hapart⟩ := hbooks.lends hfilled hplaced hlist hfragment
  obtain ⟨memory, last, houtside, hlast, hturn⟩ := Kernel.turn_completeBulk_lent
    (congrArg Kernel.transferView.get hshared) hmay
    (Bool.eq_false_iff.2 hbooks.accounted.ledger.guard) hgiven hfragment hlends
    hdescribed.offset hfits hapart hcount
  have hfragments : last.shared.platform.fragments =
      (pool crew).shared.returned index := congrArg TransferState.fragments hlast
  have hmemory : last.shared.board.device = memory := congrArg TransferState.memory hlast
  have hown : (pool crew).own task = [index] := by
    rw [own_pool, fragments_of_some hlist, hfragment]
    rfl
  have hreturned : FragmentPool.Accounted filled
      ((pool crew).leave task ((pool crew).shared.returned index) (.idle [])) := by
    have hleave : FragmentPool.Accounted filled ((pool crew).leave task
        ((pool crew).shared.returned index) (.idle (((pool crew).own task).erase index))) := by
      apply hbooks.accounted.leave_returned hcount64
      rw [hown]
      exact List.mem_singleton_self index
    rwa [hown, List.erase_cons_head] at hleave
  have hheaders : ∀ other second, other ≠ task →
      (crew.own other).bulk.pageList = some second →
      Memory.AgreeOn crew.shared.board.device last.shared.board.device second.descriptor 8 := by
    intro other second _ hsecond
    have hblock := (hplaced.descriptors task other list second hlist hsecond).symm
    rw [hmemory]
    exact .of_apart (hblock.mono (by omega)) (by decide) houtside
  obtain ⟨headers, hlater⟩ := hbooks.leave_bare last.shared hbare (hfragments ▸ hreturned)
    (congrArg TransferState.heap hlast) hheaders
  exact ⟨last, headers, hturn, hfragments, hlater⟩

/-- Completing a transfer takes one turn, leaves it without a page list and keeps the books. -/
theorem turn_completes (hbooks : Books busOf filled headers crew)
    (hfilled : IsPlatformPool filled) (hplaced : Placed crew) (host : Host ε (Kernel η κ))
    {machine : Machine ε (Kernel η κ)} (hshared : machine.shared = crew.shared)
    (hmay : machine.scheduler.mayLock = true) (hactivity : crew.activity task = .idle own)
    {given : Bulk} (hgiven : given.pageList = own.bulk.pageList)
    (hcount : ∀ list, given.pageList = some list → given.actual.toInt ≤ list.length.toNat) :
    ∃ last headers,
      (Kernel.completeBulk given).turn host machine =
        .returned { given with pageList := none } last ∧
      Books busOf filled headers (crew.leave task last.shared
        (.idle { own with bulk := { given with pageList := none } })) := by
  have hown : crew.own task = own := by rw [Crew.own, hactivity, Activity.own]
  have hpart : Kernel.transferView.get machine.shared = Kernel.transferView.get crew.shared := by
    rw [hshared]
  have hbare : ({ own with bulk := { given with pageList := none } } : Transfer).bulk.pageList =
      none := rfl
  have htidy := hbooks.tidy task
  rw [hactivity] at htidy
  generalize headers task = header at htidy
  cases htidy with
  | bare hnone =>
    rw [hnone] at hgiven
    have hsame : ({ given with pageList := none } : Bulk) = given := by rw [← hgiven]
    have hnothing : (crew.own task).fragments = [] := by rw [hown, fragments_of_none hnone]
    obtain ⟨headers, hlater⟩ := hbooks.leave_unmoved machine.shared hnothing hbare hpart
    refine ⟨machine, headers, ?_, hlater⟩
    rw [hsame]
    exact Kernel.turn_completeBulk_none hgiven
  | @stored _ list hlist hdescribed hkind =>
    rw [hlist] at hgiven
    rw [← hown] at hlist hdescribed
    cases hfragment : list.fragment with
    | none =>
      have hnothing : (crew.own task).fragments = [] := by
        rw [fragments_of_some hlist, hfragment]
        rfl
      obtain ⟨headers, hlater⟩ := hbooks.leave_unmoved machine.shared hnothing hbare hpart
      exact ⟨machine, headers, Kernel.turn_completeBulk_plain hgiven hfragment, hlater⟩
    | some index =>
      obtain ⟨last, headers, hturn, -, hlater⟩ :=
        hbooks.turn_completes_lent hfilled hplaced host hshared hmay hlist hdescribed hfragment
          hgiven (hcount list hgiven) hbare
      exact ⟨last, headers, hturn, hlater⟩

/-- The fragments that are counted and those that are borrowed are all there are. -/
theorem available_add_total (hbooks : Books busOf filled headers crew)
    (hfilled : IsPlatformPool filled) :
    crew.shared.platform.fragments.available.count.toNat + crew.total held = 64 := by
  rw [← total_pool, ← hfilled.count]
  exact hbooks.accounted.balanced

/-- The semaphore is at zero exactly if all 64 fragments are held. -/
theorem available_eq_zero_iff (hbooks : Books busOf filled headers crew)
    (hfilled : IsPlatformPool filled) :
    crew.shared.platform.fragments.available.count = 0 ↔ crew.total held = 64 := by
  have hsum := hbooks.available_add_total hfilled
  rw [← UInt32.toNat_inj, UInt32.toNat_zero]
  omega

/-! ### Every turn -/

/-- A turn of any call keeps the books or meets a fault. -/
theorem turn (hbooks : Books busOf filled headers crew) (hfilled : IsPlatformPool filled)
    (hplaced : Placed crew) (host : Host ε (Kernel η κ)) {machine : Machine ε (Kernel η κ)}
    {code : Coroutine ε (Kernel η κ) Transfer}
    (hoffers : (crew.activity task).Offers (Call busOf) code)
    (hshared : machine.shared = crew.shared) (hmay : machine.scheduler.mayLock = true) :
    Outcome busOf filled crew task (code.turn host machine) := by
  cases hactivity : crew.activity task with
  | calling own rest =>
    have hown : crew.own task = own := by rw [Crew.own, hactivity, Activity.own]
    have htidy := hbooks.tidy task
    rw [hactivity] at hoffers htidy
    cases hoffers
    generalize hheader : headers task = header at htidy
    cases htidy with
    | waiting hnone hfits hneeds =>
      exact hbooks.turn_waits hfilled host hshared hmay (hown.symm ▸ hnone) hheader hactivity
        hfits hneeds
  | idle own =>
    have hown : crew.own task = own := by rw [Crew.own, hactivity, Activity.own]
    rw [hactivity] at hoffers
    cases hoffers with
    | begins hcall =>
      cases hcall with
      | prepares hnone hgiven =>
        exact hbooks.turn_prepares hfilled host hshared hmay (hown.symm ▸ hnone) hgiven
      | @completes given hgiven hcount =>
        obtain ⟨last, headers, hturn, hlater⟩ :=
          hbooks.turn_completes hfilled hplaced host hshared hmay hactivity hgiven hcount
        rw [Coroutine.turn_bind, hturn]
        refine .returned hlater ?_
        by_cases hnothing : (crew.own task).fragments = []
        · exact .nothing hnothing.symm
        · exact .gives hnothing rfl

/-- A step of any task keeps the books, and moves the fragments of that task only. -/
theorem step (hbooks : Books busOf filled headers crew) (hfilled : IsPlatformPool filled)
    (hplaced : Placed crew) {host : Host ε (Kernel η κ)} {next : Transfers ε η κ}
    (hstep : Crew.Step host (Call busOf) crew next) :
    (∃ headers, Books busOf filled headers next) ∧
      ∃ task, Moves crew task (next.own task) ∧ ∀ other, other ≠ task →
        next.own other = crew.own other := by
  cases hstep with
  | @returned task code machine left last hoffers hshared hmay hturn =>
    have houtcome := hbooks.turn hfilled hplaced host hoffers hshared hmay
    rw [hturn] at houtcome
    cases houtcome with
    | returned hlater hmoves =>
      refine ⟨⟨_, hlater⟩, task, ?_, ?_⟩
      · rw [Crew.leave_own, if_pos rfl]
        exact hmoves
      · intro other hother
        rw [Crew.leave_own, if_neg hother]
  | @yielded task code machine rest last hoffers hshared hmay hturn =>
    have houtcome := hbooks.turn hfilled hplaced host hoffers hshared hmay
    rw [hturn] at houtcome
    cases houtcome with
    | yielded hlater =>
      have hsame : (crew.leave task last.shared (.calling (crew.own task) rest)).own =
          crew.own := by
        apply Crew.own_leave_same
        rfl
      refine ⟨⟨_, hlater⟩, task, ?_, ?_⟩
      · rw [hsame]
        exact .nothing rfl
      · intro other _
        rw [hsame]

/-- Other code keeps the books. -/
theorem elsewhere (hbooks : Books busOf filled headers crew) {next : Transfers ε η κ}
    (helsewhere : Elsewhere crew next) : Books busOf filled headers next := by
  have hpool : pool next = pool crew := by
    rw [pool, pool, helsewhere.activity, helsewhere.fragments]
  refine ⟨?accounted, ?below, hbooks.apart, ?tidy⟩
  case accounted =>
    rw [hpool]
    exact hbooks.accounted
  case below =>
    intro task start hstart
    exact (hbooks.below task start hstart).trans helsewhere.heap
  case tidy =>
    intro task
    rw [helsewhere.activity]
    refine (hbooks.tidy task).keep fun list hlist _ => ?_
    intro place hplace
    exact helsewhere.keeps task list hlist place (by omega)

end Books

end Transfer

end DriverHost
