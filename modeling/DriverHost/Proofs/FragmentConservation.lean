import DriverHost.Proofs.BringUp
import DriverHost.Proofs.PreparedTransfers

/-!
# Transfers neither leak nor share fragments

Whatever is transferred and however the calls interleave, every fragment is free or named by one
page list of one transfer, and the header in memory tells the VideoCore which one.

Main results:

- Definition `Transfer.Run`: transfers that are prepared and completed while other code goes on
  with its own memory.
- Theorem `Transfer.Run.otherCompleted`: with every fragment borrowed, a transfer gets one only
  after another one was completed.
- Theorem `Transfer.neither_leaks_nor_shares`: what holds of all transfers at every switch.
-/

namespace DriverHost

namespace Transfer

variable {ε η κ : Type}

/-! ## Runs -/

/-- Calls on any transfers take turns in any order, with other code in between. -/
def Run (host : Host ε (Kernel η κ)) (busOf : UInt64 → UInt32) :
    Transfers ε η κ → Transfers ε η κ → Prop :=
  Relation.ReflTransGen fun crew next =>
    (Crew.Step host (Call busOf) crew next ∨ Elsewhere crew next) ∧ Placed next

/-- On the way from one state to another, a transfer other than the given one had a fragment and
was completed. -/
def OtherCompleted (host : Host ε (Kernel η κ)) (busOf : UInt64 → UInt32) (task : TaskId)
    (crew later : Transfers ε η κ) : Prop :=
  ∃ before after other, Run host busOf crew before ∧ Crew.Step host (Call busOf) before after ∧
    Run host busOf after later ∧ other ≠ task ∧ (before.own other).fragments ≠ [] ∧
    (after.own other).bulk.pageList = none

section Runs

variable {host : Host ε (Kernel η κ)} {busOf : UInt64 → UInt32} {filled : FragmentPool}
  {first crew : Transfers ε η κ}

/-- The books are kept on every run. -/
theorem Run.books (hrun : Run host busOf first crew) (hfilled : IsPlatformPool filled)
    (hbegin : ∃ headers, Books busOf filled headers first) (hplaced : Placed first) :
    (∃ headers, Books busOf filled headers crew) ∧ Placed crew := by
  induction hrun with
  | refl => exact ⟨hbegin, hplaced⟩
  | tail _ hnext ih =>
    obtain ⟨⟨headers, hbooks⟩, hplaced⟩ := ih
    refine ⟨?_, hnext.2⟩
    rcases hnext.1 with hstep | helsewhere
    · exact (hbooks.step hfilled hplaced hstep).1
    · exact ⟨headers, hbooks.elsewhere helsewhere⟩

/-- While every fragment is borrowed, a transfer gets one only after another transfer that had
one was completed. -/
theorem Run.otherCompleted (hfilled : IsPlatformPool filled) {later : Transfers ε η κ}
    (hrun : Run host busOf crew later) (hbooks : ∃ headers, Books busOf filled headers crew)
    (hplaced : Placed crew) (hfull : crew.total held = 64) {task : TaskId}
    (hnothing : (crew.own task).fragments = []) (hgets : (later.own task).fragments ≠ []) :
    OtherCompleted host busOf task crew later := by
  induction hrun using Relation.ReflTransGen.head_induction_on with
  | refl => exact absurd hnothing hgets
  | @head crew next hnext hrest ih =>
    obtain ⟨headers, hbooks⟩ := hbooks
    -- As long as the transfers have what they had, the pool stays empty and the task waits.
    have hgoes : (∃ headers, Books busOf filled headers next) →
        (∀ other, (next.own other).fragments = (crew.own other).fragments) →
        OtherCompleted host busOf task crew later := by
      intro hlater hsame
      have hstill : next.total held = 64 := by
        rw [← hfull]
        exact Crew.total_congr fun other => congrArg List.length (hsame other)
      obtain ⟨before, after, other, hbefore, hrest⟩ :=
        ih hlater hnext.2 hstill ((hsame task).trans hnothing)
      exact ⟨before, after, other, hbefore.head hnext, hrest⟩
    rcases hnext.1 with hstep | helsewhere
    · obtain ⟨hlater, acting, hmoves, hothers⟩ := hbooks.step hfilled hplaced hstep
      cases hmoves with
      | nothing hsame =>
        refine hgoes hlater fun other => ?_
        by_cases hother : other = acting
        · rw [hother, hsame]
        · rw [hothers other hother]
      | borrows hsome => exact absurd ((hbooks.available_eq_zero_iff hfilled).2 hfull) hsome
      | gives hheld hnone =>
        refine ⟨crew, next, acting, .refl, hstep, hrest, ?_, hheld, hnone⟩
        rintro rfl
        exact hheld hnothing
    · refine hgoes ⟨headers, hbooks.elsewhere helsewhere⟩ fun other => ?_
      rw [Crew.own, Crew.own, helsewhere.activity]

end Runs

/-! ## A platform that was just brought up -/

/-- The number in a header that says what kind of transfer it is. -/
def kindNumber : BulkDirection → Option Nat → Nat
  | .transmit, _ => 0
  | .receive, none => 1
  | .receive, some index => 2 + index

/-- What all transfers may rely on at every switch. -/
structure Conserved (crew : Transfers ε η κ) : Prop where
  /-- Finitely many transfers have a fragment. -/
  few : crew.FewCount held
  /-- The fragments that no transfer has are counted as free. -/
  counted : crew.shared.platform.fragments.freeCount.toNat + crew.total held = 64
  /-- No two transfers have the same fragment. -/
  exclusive : ∀ task other index, index ∈ (crew.own task).fragments →
    index ∈ (crew.own other).fragments → task = other
  /-- A page list describes what its transfer was last asked to describe. -/
  described : ∀ task list, (crew.own task).bulk.pageList = some list →
    list.buffer = (crew.own task).buffer ∧ list.length = (crew.own task).size ∧
      list.direction = (crew.own task).direction.direction
  /-- The header of a page list names its fragment. -/
  kind : ∀ task list, (crew.own task).bulk.pageList = some list →
    (list.kind crew.shared.board.device).toNat =
      kindNumber (crew.own task).direction list.fragment
  /-- A page list has a fragment exactly if its transfer needs one. -/
  borrowed : ∀ task list, (crew.own task).bulk.pageList = some list →
    (list.fragment.isSome = true ↔
      NeedsFragment (crew.own task).buffer (crew.own task).size (crew.own task).direction)

/-- Completing any transfer ends in its turn, and completing it once more changes nothing. -/
def CompletesOnce (host : Host ε (Kernel η κ)) (crew : Transfers ε η κ) : Prop :=
  ∀ task own given machine, crew.activity task = .idle own →
    given.pageList = own.bulk.pageList →
    (∀ list, given.pageList = some list → given.actual.toInt ≤ list.length.toNat) →
    machine.shared = crew.shared → machine.scheduler.mayLock = true →
    ∃ last, (Kernel.completeBulk given).turn host machine =
        .returned { given with pageList := none } last ∧
      ∀ later, (Kernel.completeBulk { given with pageList := none }).turn host later =
        .returned { given with pageList := none } later

/-- A preparation that needs a fragment waits, and a transfer without one gets one only after
another transfer that has one was completed. -/
structure Waits (host : Host ε (Kernel η κ)) (busOf : UInt64 → UInt32)
    (crew : Transfers ε η κ) : Prop where
  yields : ∀ (call : Preparation) machine laid borrows after,
    NeedsFragment call.buffer call.size call.direction → machine.shared = crew.shared →
    machine.scheduler.mayLock = true →
    PageList.lay busOf call.buffer call.size call.direction.direction
      (Kernel.transferView.get crew.shared) = .ok (.ok (laid, borrows, after)) →
    ∃ rest last, (call.code busOf).turn host machine = .yielded rest last
  served : ∀ later task, (crew.own task).fragments = [] → Run host busOf crew later →
    (later.own task).fragments ≠ [] → OtherCompleted host busOf task crew later

section Filled

variable {busOf : UInt64 → UInt32} {filled : FragmentPool} {crew : Transfers ε η κ}

/-- The kind in a page list's header is the number that the transfer's direction and fragment call
for. -/
theorem toNat_kindOf {direction : BulkDirection} {fragment : Option Nat}
    (hbelow : ∀ index, fragment = some index → index < 64)
    (hreceive : fragment.isSome = true → direction = .receive) :
    (PageList.kindOf direction.direction fragment).toNat = kindNumber direction fragment := by
  cases fragment with
  | none => cases direction <;> rfl
  | some index =>
    rw [hreceive rfl]
    exact PageList.toNat_kindOf_some _ (hbelow index rfl)

/-- Books that are kept conserve the 64 fragments: none is free and lent, and none is lost. -/
theorem Books.conserved {headers : TaskId → Option UInt64}
    (hbooks : Books busOf filled headers crew) (hfilled : IsPlatformPool filled) :
    Conserved crew := by
  have hledger := hbooks.accounted.ledger
  have hstored : ∀ task list, (crew.own task).bulk.pageList = some list →
      (crew.own task).Described busOf list ∧ list.kind crew.shared.board.device =
        PageList.kindOf list.direction list.fragment :=
    fun task list hlist => (hbooks.tidy task).of_some hlist
  refine ⟨?few, ?counted, ?exclusive, ?described, ?kind, ?borrowed⟩
  case few =>
    have hfew := hbooks.accounted.few
    simp only [Crew.FewCount, own_pool] at hfew
    exact hfew
  case counted => exact hbooks.available_add_total hfilled
  case exclusive =>
    intro task other index hone hother
    rw [← own_pool] at hone hother
    exact hledger.exclusive task other index hone hother
  case described =>
    intro task list hlist
    have hdescribed := (hstored task list hlist).1
    exact ⟨hdescribed.buffer, hdescribed.length, hdescribed.direction⟩
  case kind =>
    intro task list hlist
    obtain ⟨hdescribed, hkind⟩ := hstored task list hlist
    rw [hkind, hdescribed.direction]
    apply toNat_kindOf
    · intro index hfragment
      rw [← hfilled.count]
      apply hledger.below task
      rw [own_pool, fragments_of_some hlist, hfragment]
      exact List.mem_singleton_self index
    · exact fun hsome => (hdescribed.borrowed.1 hsome).1
  case borrowed => exact fun task list hlist => (hstored task list hlist).1.borrowed

/-- Transfers without page lists and a pool that was just filled begin the books. -/
theorem books_begin (busOf : UInt64 → UInt32) (hfilled : IsPlatformPool filled)
    (hshared : crew.shared.platform.fragments = filled)
    (hidle : ∀ task, ∃ own, crew.activity task = .idle own ∧ own.bulk.pageList = none) :
    Books busOf filled (fun _ => none) crew := by
  have hpool : pool crew = Crew.start filled [] := by
    have hactivity : ∀ task, poolActivity (crew.activity task) = .idle [] := by
      intro task
      obtain ⟨own, hown, hnone⟩ := hidle task
      rw [hown, poolActivity, fragments_of_none hnone]
    rw [pool, Crew.start, hshared, funext hactivity]
  refine ⟨?accounted, ?below, ?apart, ?tidy⟩
  case accounted =>
    rw [hpool]
    exact FragmentPool.accounted_start hfilled.count.le hfilled.free hfilled.available
      hfilled.guard
  case below => exact fun _ start hnever => absurd hnever (Option.some_ne_none start).symm
  case apart => exact fun _ _ start _ _ hnever => absurd hnever (Option.some_ne_none start).symm
  case tidy =>
    intro task
    obtain ⟨own, hown, hnone⟩ := hidle task
    rw [hown]
    exact .bare hnone

/-- Before anything is transferred, no two buffers can overlap. -/
theorem placed_begin
    (hidle : ∀ task, ∃ own, crew.activity task = .idle own ∧ own.bulk.pageList = none) :
    Placed crew := by
  have hnothing : ∀ task list, (crew.own task).bulk.pageList ≠ some list := by
    intro task list hlist
    obtain ⟨own, hown, hnone⟩ := hidle task
    rw [Crew.own, hown, Activity.own, hnone] at hlist
    cases hlist
  exact ⟨fun task list hlist => absurd hlist (hnothing task list),
    fun task _ list _ hlist => absurd hlist (hnothing task list)⟩

/-- A pool that was just filled is one that the platform may begin with. -/
theorem isPlatformPool_refilled (before : FragmentPool) {base : UInt64}
    (hguard : before.guard.isLocked = false)
    (hfits : base.toNat + fragmentMemorySize.toNat ≤ 2 ^ 64) :
    IsPlatformPool (before.refilled base) := by
  refine ⟨rfl, rfl, hfits, rfl, rfl, ?_⟩
  rw [FragmentPool.guard_refilled, hguard]
  exact Bool.false_ne_true

/-- Filling the kernel's pool is filling a pool behind the slots. -/
theorem refillFragments_of_refill (before : Kernel η κ) {slots base : UInt64}
    {filled : FragmentPool} (hbase : addWords slots slotMemorySize = .ok base)
    (hrefill : before.platform.fragments.refill base FragmentPool.maxFragments cacheLineSize =
      .ok filled) :
    Kernel.refillFragments slots before =
      .ok () { before with platform := { before.platform with fragments := filled } } := by
  cases (before.platform.fragments.refill_platform base).symm.trans hrefill
  rw [Kernel.refillFragments_apply, hbase]

/-- The platform fills its pool with all of its fragments. -/
theorem refillFragments_eq_ok (before : Kernel η κ) {slots : UInt64}
    (hguard : before.platform.fragments.guard.isLocked = false)
    (hfits : slots.toNat + sharedMemorySize.toNat < 2 ^ 64) :
    ∃ ready, Kernel.refillFragments slots before = .ok () ready ∧
      IsPlatformPool ready.platform.fragments := by
  obtain ⟨hsum, hroom⟩ := toNat_behindSlots hfits.le
  have hbase : addWords slots slotMemorySize = .ok (slots + slotMemorySize) := by
    rw [addWords, ensureWord_eq_ok_iff, hsum]
  exact ⟨_, refillFragments_of_refill before hbase (FragmentPool.refill_platform _ _),
    isPlatformPool_refilled before.platform.fragments hguard hroom⟩

/-- Transfers of any buffers outside the page lists and the fragments are prepared and completed
in any order, with any outcome.  At every switch each fragment is free or has one transfer and
the headers tell which, completing a transfer takes one turn and once more does nothing, a
preparation is refused, served or left waiting in its first turn and a wait ends as soon as there is
a fragment, and while every fragment is borrowed the next transfer that needs one waits for a
completion. -/
theorem neither_leaks_nor_shares (host : Host ε (Kernel η κ)) (busOf : UInt64 → UInt32)
    (before : Kernel η κ) {slots : UInt64}
    (hguard : before.platform.fragments.guard.isLocked = false)
    (hfits : slots.toNat + sharedMemorySize.toNat < 2 ^ 64) :
    ∃ ready, Kernel.refillFragments slots before = .ok () ready ∧
      ∀ first crew : Transfers ε η κ,
        first.shared.platform.fragments = ready.platform.fragments →
        (∀ task, ∃ own, first.activity task = .idle own ∧ own.bulk.pageList = none) →
        Run host busOf first crew →
        Conserved crew ∧ CompletesOnce host crew ∧ Prepares host busOf crew ∧
          (crew.total held = 64 → Waits host busOf crew) := by
  obtain ⟨ready, hrefill, hfilled⟩ := refillFragments_eq_ok before hguard hfits
  refine ⟨ready, hrefill, fun first crew hshared hidle hrun => ?_⟩
  have hbegin := books_begin busOf hfilled hshared hidle
  obtain ⟨⟨headers, hbooks⟩, hplaced⟩ := hrun.books hfilled ⟨_, hbegin⟩ (placed_begin hidle)
  refine ⟨hbooks.conserved hfilled, ?_, hbooks.prepares hfilled host, fun hfull => ⟨?_, ?_⟩⟩
  · intro task own given machine hactivity hgiven hcount hshared hmay
    obtain ⟨last, -, hturn, -⟩ :=
      hbooks.turn_completes hfilled hplaced host hshared hmay hactivity hgiven hcount
    exact ⟨last, hturn, fun later => Kernel.turn_completeBulk_none rfl⟩
  · intro call machine laid borrows after hneeds hshared hmay hlay
    obtain ⟨last, -, hturn⟩ :=
      (hbooks.turn_needing hfilled host hshared hmay hneeds hlay).1 hfull
    exact ⟨_, last, hturn⟩
  · intro later task hnothing hlater hgets
    exact hlater.otherCompleted hfilled ⟨headers, hbooks⟩ hplaced hfull hnothing hgets

end Filled

/-- A receive of nine bytes across the end of a page. -/
def receiveNine : Preparation where
  bulk := { size := 9, direction := .receive }
  handle := MemoryHandle.invalid
  buffer := 0x2200ffc
  size := 9
  direction := .receive

theorem needsFragment_receiveNine :
    NeedsFragment receiveNine.buffer receiveNine.size receiveNine.direction :=
  ⟨rfl, Or.inl (by decide)⟩

/-- The block of a page list for two pages in a heap that only has such blocks. -/
def block (place : Nat) : UInt64 :=
  UInt64.ofNat (0x2000000 + 16 * place)

def heapWith (count : Nat) : Bump :=
  Heap.ofRange (block count) 0x2100000

/-- The blocks of the example's page lists lie 16 bytes apart. -/
theorem toNat_block {place : Nat} (hplace : place ≤ 64) :
    (block place).toNat = 0x2000000 + 16 * place := by
  rw [block]
  exact UInt64.toNat_ofNat_of_lt' (by rw [UInt64.size]; omega)

/-- Each page list of the example takes the next 16 bytes of the heap. -/
theorem allocate_heapWith {count : Nat} (hcount : count ≤ 64) :
    Heap.allocate (heapWith count) 16 = .ok (.ok (block count, heapWith (count + 1))) := by
  have hall : ∀ place : Fin 65, Heap.allocate (heapWith place) 16 =
      .ok (.ok (block place, heapWith (place + 1))) := by decide
  exact hall ⟨count, by omega⟩

/-- Every receive of the example is laid out in the next block and needs a fragment. -/
theorem lay_receiveNine {count : Nat} (hcount : count ≤ 64) {part : TransferState}
    (hheap : part.heap = heapWith count) (hline : part.fragments.cacheLine = 64) :
    ∃ laid after,
      PageList.lay busOfPhysical receiveNine.buffer receiveNine.size
        receiveNine.direction.direction part = .ok (.ok (laid, true, after)) ∧
      laid.descriptor = block count ∧ after.heap = heapWith (count + 1) := by
  have hsmall : ¬ UInt32.size ≤ receiveNine.size.toNat := by decide
  have hblock : Heap.allocate part.heap (PageList.descriptorSize
      (PageList.pageCount (pageOffset receiveNine.buffer) receiveNine.size)) =
        .ok (.ok (block count, heapWith (count + 1))) := by
    rw [hheap]
    exact allocate_heapWith hcount
  obtain ⟨addresses, words, haddresses, hwords⟩ : ∃ addresses words,
      pageAddresses busOfPhysical (pageBase receiveNine.buffer)
        (PageList.pageCount (pageOffset receiveNine.buffer) receiveNine.size) =
          .ok addresses ∧ (runsOf addresses).mapM PageRun.encode = .ok words :=
    ⟨[0xc2200000, 0xc2201000], [0xc2200001], by decide, by decide⟩
  have hinside : PageList.misaligned (pageOffset receiveNine.buffer) receiveNine.size
      part.fragments.cacheLine = .ok true := by
    rw [hline]
    rfl
  rw [PageList.lay, if_neg hsmall]
  simp only [hblock, bind, Except.bind, haddresses, hwords, hinside]
  exact ⟨_, _, rfl, rfl, rfl⟩

/-- So many transfers have been prepared for nine bytes, and the others have never been. -/
structure NinesLent (count : Nat) (crew : Transfers Empty Empty Unit) : Prop where
  heap : crew.shared.heap = heapWith count
  total : crew.total held = count
  unused : ∀ task, count ≤ task → crew.activity task = .idle { bulk := receiveNine.bulk }
  stored : ∀ task list, (crew.own task).bulk.pageList = some list →
    ∃ place fragment, place < count ∧
      list = receiveNine.describes busOfPhysical (block place) (some fragment)

theorem apart_receiveNine {start : UInt64} {size : Nat} (hle : start.toNat + size ≤ 0x2200ffc) :
    Memory.Apart start size receiveNine.buffer receiveNine.size.toNat :=
  .of_le hle (by decide)

/-- The buffer of all these transfers lies behind the fragments and the heap. -/
theorem NinesLent.placed {count : Nat} {crew : Transfers Empty Empty Unit}
    (hlent : NinesLent count crew) (hcount : count ≤ 64)
    (hbase : crew.shared.platform.fragments.base = 0x1c41000) : Placed crew := by
  refine ⟨fun task list hlist => ?_, fun task other list second hlist hsecond => ?_⟩
  · obtain ⟨place, fragment, -, rfl⟩ := hlent.stored task list hlist
    apply apart_receiveNine
    rw [hbase]
    decide
  · obtain ⟨place, fragment, -, rfl⟩ := hlent.stored task list hlist
    obtain ⟨behind, lent, hbehind, rfl⟩ := hlent.stored other second hsecond
    have hblock := toNat_block (hbehind.le.trans hcount)
    have happart : Memory.Apart (block behind) 16 receiveNine.buffer receiveNine.size.toNat :=
      apart_receiveNine (by omega)
    exact happart

/-- One transfer more gets a fragment while there is one. -/
theorem NinesLent.step {count : Nat} {crew : Transfers Empty Empty Unit}
    {headers : TaskId → Option UInt64} {filled : FragmentPool}
    (hlent : NinesLent count crew) (hcount : count < 64)
    (hbooks : Books busOfPhysical filled headers crew) (hfilled : IsPlatformPool filled) :
    ∃ next, Crew.Step (Host.still Empty (Kernel Empty Unit)) (Call busOfPhysical) crew next ∧
      NinesLent (count + 1) next := by
  have hheap : (Kernel.transferView.get crew.shared).heap = heapWith count := hlent.heap
  obtain ⟨laid, after, hlay, hdescriptor, hafter⟩ :=
    lay_receiveNine hcount.le hheap (hbooks.cacheLine hfilled)
  have hactivity := hlent.unused count (Nat.le_refl _)
  have hsome : crew.total held ≠ 64 := by
    rw [hlent.total]
    exact hcount.ne
  obtain ⟨machine, hshared, hmay⟩ : ∃ machine : Machine Empty (Kernel Empty Unit),
    machine.shared = crew.shared ∧ machine.scheduler.mayLock = true :=
      ⟨{ shared := crew.shared }, rfl, rfl⟩
  obtain ⟨index, last, -, hlast, -, hturn⟩ :=
    (hbooks.turn_needing hfilled (Host.still _ _) hshared hmay
      needsFragment_receiveNine hlay).2 hsome
  rw [hdescriptor] at hturn
  have hoffers : (crew.activity count).Offers (Call busOfPhysical)
      (receiveNine.code busOfPhysical) := by
    rw [hactivity]
    exact .begins (.prepares rfl rfl)
  refine ⟨_, .returned hoffers hshared hmay hturn, ?heap, ?total, ?unused, ?stored⟩
  case heap => exact hlast.trans hafter
  case total =>
    have hfew : crew.FewCount held := (hbooks.conserved hfilled).few
    have hnothing : held (crew.own count) = 0 := by
      rw [Crew.own, hactivity]
      rfl
    have hone : held (receiveNine.prepared busOfPhysical (block count) (some index)) = 1 := rfl
    have htotal := Crew.total_leave hfew count last.shared
      (.idle (receiveNine.prepared busOfPhysical (block count) (some index)))
    rwa [hnothing, hlent.total, Activity.own, hone] at htotal
  case unused =>
    intro task htask
    have hother : task ≠ count := by omega
    rw [Crew.leave_activity, if_neg hother]
    exact hlent.unused task (by omega)
  case stored =>
    intro task list hlist
    rw [Crew.leave_own] at hlist
    by_cases htask : task = count
    · rw [if_pos htask] at hlist
      exact ⟨count, index, Nat.lt_succ_self _, (Option.some.inj hlist).symm⟩
    · rw [if_neg htask] at hlist
      obtain ⟨place, fragment, hplace, hsame⟩ := hlent.stored task list hlist
      exact ⟨place, fragment, by omega, hsame⟩

/-- A kernel before its platform comes up. -/
def freshKernel : Kernel Empty Unit where
  board := { device := Memory.zeroed }
  heap := heapWith 0
  interrupts := { base := 0x3f00b000 }
  outside := ()

/-- The kernel with the pool of its platform filled. -/
def readyKernel : Kernel Empty Unit :=
  { freshKernel with
    platform := { fragments := {
      base := 0x1c41000, fragmentSize := 128, count := 64, free := FragmentPool.allFree 64
      available := { count := 64 } } } }

/-- The example's pool is one that the platform fills. -/
theorem isPlatformPool_readyKernel : IsPlatformPool readyKernel.platform.fragments :=
  ⟨rfl, rfl, by decide, rfl, rfl, by decide⟩

/-- As many of these transfers as there are fragments are prepared one after the other. -/
theorem exists_ninesLent {count : Nat} (hcount : count ≤ 64) :
    ∃ crew headers, Run (Host.still Empty (Kernel Empty Unit)) busOfPhysical
        (Crew.start readyKernel { bulk := receiveNine.bulk }) crew ∧
      NinesLent count crew ∧
      Books busOfPhysical readyKernel.platform.fragments headers crew := by
  have hfilled := isPlatformPool_readyKernel
  induction count with
  | zero =>
    refine ⟨_, _, .refl, ⟨rfl, Crew.total_start _ _ rfl, fun _ _ => rfl, ?_⟩,
      books_begin busOfPhysical hfilled rfl fun task => ⟨_, rfl, rfl⟩⟩
    intro task list hlist
    cases hlist
  | succ count ih =>
    obtain ⟨crew, headers, hrun, hlent, hbooks⟩ := ih (by omega)
    have hplaced := hlent.placed (by omega) hbooks.accounted.ledger.base
    obtain ⟨next, hstep, hmore⟩ := hlent.step (by omega) hbooks hfilled
    obtain ⟨⟨after, hlater⟩, -⟩ := hbooks.step hfilled hplaced hstep
    have hnext := hmore.placed hcount hlater.accounted.ledger.base
    exact ⟨next, after, hrun.tail ⟨Or.inl hstep, hnext⟩, hmore, hlater⟩

/-- A receive of nine bytes may begin on any of these heaps, and there is no reason to refuse it. -/
theorem mayBegin_receiveNine {crew : Transfers Empty Empty Unit} {count : Nat}
    (hcount : count ≤ 64) (hheap : crew.shared.heap = heapWith count) :
    MayBegin crew receiveNine { shared := crew.shared } ∧
      PageList.refusal crew.shared.heap receiveNine.buffer receiveNine.size = none := by
  have hblock := toNat_block hcount
  have hstop : (0x2100000 : UInt64).toNat = 0x2100000 := rfl
  have hplaced : Heap.Placed (heapWith count) :=
    Heap.placed_ofRange (by omega) (UInt64.le_iff_toNat_le.2 (by omega)) (by omega)
  have hroom : ∀ place : Fin 65, PageList.refusal (heapWith place) receiveNine.buffer
      receiveNine.size = none := by decide
  refine ⟨⟨rfl, rfl, hheap ▸ hplaced, by decide⟩, ?_⟩
  rw [hheap]
  exact hroom ⟨count, by omega⟩

/-- The first receive of nine bytes is served with the first fragment.  When as many of them as
there are fragments have one each, one more of them waits. -/
theorem neither_leaks_nor_shares_of_nines :
    Kernel.refillFragments 0x1c00000 freshKernel = .ok () readyKernel ∧
      (∃ descriptor last, (receiveNine.code busOfPhysical).turn
          (Host.still Empty (Kernel Empty Unit)) { shared := readyKernel } =
        .returned (receiveNine.prepared busOfPhysical descriptor (some 0)) last) ∧
      ∃ crew : Transfers Empty Empty Unit,
        Run (Host.still Empty (Kernel Empty Unit)) busOfPhysical
          (Crew.start readyKernel { bulk := receiveNine.bulk }) crew ∧
        crew.total held = 64 ∧ Conserved crew ∧
        CompletesOnce (Host.still Empty (Kernel Empty Unit)) crew ∧
        ∃ descriptor last, (receiveNine.code busOfPhysical).turn
            (Host.still Empty (Kernel Empty Unit)) { shared := crew.shared } =
          .yielded (receiveNine.waiting busOfPhysical descriptor) last := by
  have hfits : (0x1c00000 : UInt64).toNat + sharedMemorySize.toNat < 2 ^ 64 := by decide
  obtain ⟨ready, hready, hall⟩ := neither_leaks_nor_shares
    (Host.still Empty (Kernel Empty Unit)) busOfPhysical freshKernel rfl hfits
  have hbase : addWords 0x1c00000 slotMemorySize = .ok 0x1c41000 := rfl
  have hkernel : Kernel.refillFragments 0x1c00000 freshKernel = .ok () readyKernel :=
    refillFragments_of_refill freshKernel hbase rfl
  cases hready.symm.trans hkernel
  refine ⟨hkernel, ?_, ?_⟩
  · obtain ⟨-, -, hprepares, -⟩ := hall (Crew.start readyKernel { bulk := receiveNine.bulk }) _ rfl
      (fun _ => ⟨_, rfl, rfl⟩) .refl
    have hheap : (Crew.start readyKernel { bulk := receiveNine.bulk } :
        Transfers Empty Empty Unit).shared.heap = heapWith 0 := rfl
    obtain ⟨hmay, hrefusal⟩ := mayBegin_receiveNine (Nat.zero_le _) hheap
    have hnobody : (Crew.start readyKernel { bulk := receiveNine.bulk } :
        Transfers Empty Empty Unit).total held = 0 := Crew.total_start _ _ rfl
    obtain ⟨descriptor, index, last, hindex, -, hturn⟩ :=
      hprepares.lends receiveNine _ hmay hrefusal needsFragment_receiveNine (by omega)
    have hzero : index = 0 := by
      by_contra hne
      obtain ⟨task, hheld⟩ := hindex.lowest 0 (Nat.pos_of_ne_zero hne)
      cases hheld
    exact ⟨descriptor, last, hzero ▸ hturn⟩
  · obtain ⟨crew, headers, hrun, hlent, -⟩ := exists_ninesLent (Nat.le_refl 64)
    obtain ⟨hconserved, hcompletes, hprepares, -⟩ := hall _ _ rfl (fun _ => ⟨_, rfl, rfl⟩) hrun
    obtain ⟨hmay, hrefusal⟩ := mayBegin_receiveNine (Nat.le_refl _) hlent.heap
    obtain ⟨descriptor, last, -, hturn⟩ :=
      hprepares.waits receiveNine _ hmay hrefusal needsFragment_receiveNine hlent.total
    exact ⟨crew, hrun, hlent.total, hconserved, hcompletes, descriptor, last, hturn⟩

end Transfer

end DriverHost
