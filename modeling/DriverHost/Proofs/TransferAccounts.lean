import DriverHost.Proofs.Ownership
import DriverHost.Proofs.TransferCalls

/-!
# Books on fragments and page lists

A fragment that the pool has lent is named by the page list of exactly one transfer, and the page
lists of different transfers never share a header.  The invariant of all transfers says both: the
pool's ledger, read off the transfers, and a place in memory for the header of each page list,
also of one whose transfer still waits for its fragment.

Main results:

- Structure `FragmentPool.Accounted`: the pool counts exactly the fragments that nobody has.
- Definition `Transfer.pool`: the transfers, as the pool sees them.
- Structure `Transfer.Books`: the invariant of all transfers.
- Theorem `Transfer.Books.leave`: what a turn may do to one transfer and keep the books.
-/

namespace DriverHost

variable {ε η κ : Type}

/-! ## Fragments -/

namespace FragmentPool

/-- The ledger holds, and the fragments that tasks have and those that are counted as free add up
to all of the pool's. -/
structure Accounted (filled : FragmentPool) (crew : Crew ε FragmentPool (List Nat)) : Prop where
  ledger : Ledger filled crew
  few : crew.FewCount List.length
  balanced : crew.shared.available.count.toNat + crew.total List.length = filled.count

namespace Accounted

variable {filled : FragmentPool} {crew : Crew ε FragmentPool (List Nat)} {task : TaskId}

/-- A task that keeps what it has leaves the accounts in order. -/
theorem leave_same (haccounted : Accounted filled crew)
    {activity : Activity ε FragmentPool (List Nat)} (hown : activity.own = crew.own task)
    (hactivity : ∀ own rest, activity = .calling own rest → rest = waitingFor own) :
    Accounted filled (crew.leave task crew.shared activity) := by
  have htotal := Crew.total_leave haccounted.few task crew.shared activity
  have hbalanced := haccounted.balanced
  refine ⟨haccounted.ledger.leave_same hown hactivity, haccounted.few.leave _ _ _, ?_⟩
  rw [hown] at htotal
  rw [Crew.leave_shared]
  omega

/-- A task that takes a free fragment leaves the accounts in order. -/
theorem leave_taken (haccounted : Accounted filled crew) (hcount : filled.count ≤ 64) {index : Nat}
    (hfree : crew.shared.isFree index = true) (hsome : crew.shared.available.count ≠ 0) :
    Accounted filled
      (crew.leave task (crew.shared.taken index) (.idle (index :: crew.own task))) := by
  have htotal := Crew.total_leave haccounted.few task (crew.shared.taken index)
    (.idle (index :: crew.own task))
  have hless := toNat_available_taken index hsome
  have hbalanced := haccounted.balanced
  refine ⟨haccounted.ledger.leave_taken hcount hfree hsome, haccounted.few.leave _ _ _, ?_⟩
  rw [Activity.own, List.length_cons] at htotal
  rw [Crew.leave_shared]
  omega

/-- A task that returns a fragment it has leaves the accounts in order. -/
theorem leave_returned (haccounted : Accounted filled crew) (hcount : filled.count ≤ 64)
    {index : Nat} (hown : index ∈ crew.own task) :
    Accounted filled (crew.leave task (crew.shared.returned index)
      (.idle ((crew.own task).erase index))) := by
  have htotal := Crew.total_leave haccounted.few task (crew.shared.returned index)
    (.idle ((crew.own task).erase index))
  have hbalanced := haccounted.balanced
  have hmore : (crew.shared.returned index).available.count.toNat =
      crew.shared.available.count.toNat + 1 := toNat_available_returned (by omega)
  have hpositive := List.length_pos_of_mem hown
  refine ⟨haccounted.ledger.leave_returned hcount hown, haccounted.few.leave _ _ _, ?_⟩
  rw [Activity.own, List.length_erase_of_mem hown] at htotal
  rw [Crew.leave_shared]
  omega

end Accounted

/-- In a pool that has just been filled, the accounts are in order while nobody has anything. -/
theorem accounted_start {filled : FragmentPool} (hcount : filled.count ≤ 64)
    (hfree : filled.free = allFree filled.count)
    (havailable : filled.available.count = UInt32.ofNat filled.count)
    (hguard : ¬ filled.guard.isLocked = true) :
    Accounted filled (Crew.start filled [] : Crew ε FragmentPool (List Nat)) := by
  refine ⟨ledger_start hcount hfree havailable hguard, ?_, ?_⟩
  · have hnobody : (Function.support fun task =>
        ((Crew.start filled [] : Crew ε FragmentPool (List Nat)).own task).length) = ∅ := by
      apply Function.support_eq_empty_iff.2
      rfl
    rw [Crew.FewCount, hnobody]
    exact Set.finite_empty
  · have hnothing : ([] : List Nat).length = 0 := rfl
    rw [Crew.total_start List.length filled hnothing, Crew.start, havailable,
      UInt32.toNat_ofNat']
    omega

end FragmentPool

/-! ## Transfers -/

/-- Transfers with the kernel they share.  A transfer is lent to one task for the whole of a call,
so a call in progress is told from the others by its transfer, whichever task makes it. -/
abbrev Transfers (ε η κ : Type) : Type 1 :=
  Crew ε (Kernel η κ) Transfer

namespace Transfer

/-- The fragment that a transfer has borrowed, if its page list has one. -/
def fragments (transfer : Transfer) : List Nat :=
  (transfer.bulk.pageList.bind PageList.fragment).toList

/-- How many fragments a transfer has. -/
def held (transfer : Transfer) : Nat :=
  transfer.fragments.length

theorem fragments_of_none {transfer : Transfer} (hnone : transfer.bulk.pageList = none) :
    transfer.fragments = [] := by
  rw [fragments, hnone]
  rfl

/-- A transfer has the fragment of its page list, if that has one. -/
theorem fragments_of_some {transfer : Transfer} {list : PageList}
    (hlist : transfer.bulk.pageList = some list) :
    transfer.fragments = list.fragment.toList := by
  rw [fragments, hlist]
  rfl

/-! ### The transfers as the pool sees them -/

/-- Every call in progress waits for a fragment. -/
def poolActivity : Activity ε (Kernel η κ) Transfer → Activity ε FragmentPool (List Nat)
  | .idle own => .idle own.fragments
  | .calling own _ => .calling own.fragments (FragmentPool.waitingFor own.fragments)

/-- The transfers as the pool sees them: each has its fragment, if any. -/
def pool (crew : Transfers ε η κ) : Crew ε FragmentPool (List Nat) where
  shared := crew.shared.platform.fragments
  activity task := poolActivity (crew.activity task)

/-- Of a transfer, the pool sees the fragment that it has. -/
theorem own_poolActivity (activity : Activity ε (Kernel η κ) Transfer) :
    (poolActivity activity).own = activity.own.fragments := by
  cases activity <;> rfl

/-- To the pool, every transfer in progress is a wait for a fragment. -/
theorem waits_poolActivity (activity : Activity ε (Kernel η κ) Transfer) :
    ∀ own rest, poolActivity activity = .calling own rest →
      rest = FragmentPool.waitingFor own := by
  intro own rest hcalling
  cases activity <;> cases hcalling
  rfl

theorem own_pool (crew : Transfers ε η κ) (task : TaskId) :
    (pool crew).own task = (crew.own task).fragments :=
  own_poolActivity _

/-- To the pool, what a transfer leaves behind is what a task of its own leaves. -/
theorem pool_leave (crew : Transfers ε η κ) (task : TaskId) (shared : Kernel η κ)
    (activity : Activity ε (Kernel η κ) Transfer) :
    pool (crew.leave task shared activity) =
      (pool crew).leave task shared.platform.fragments (poolActivity activity) :=
  congrArg (Crew.mk shared.platform.fragments)
    (Function.comp_update poolActivity crew.activity task activity)

/-- The transfers hold as many fragments as the pool's tasks have. -/
theorem total_pool (crew : Transfers ε η κ) :
    (pool crew).total List.length = crew.total held := by
  simp only [Crew.total, own_pool, held]

/-! ## The invariant -/

/-- A page list that describes what its transfer was last asked to describe. -/
structure Described (busOf : UInt64 → UInt32) (own : Transfer) (list : PageList) : Prop where
  describes : list = .describing busOf own.buffer own.size own.direction.direction
    list.descriptor list.fragment
  fits : own.buffer.toNat + own.size.toNat ≤ 2 ^ 64
  borrowed : list.fragment.isSome = true ↔ NeedsFragment own.buffer own.size own.direction

namespace Described

variable {busOf : UInt64 → UInt32} {own : Transfer} {list : PageList}

theorem buffer (hdescribed : Described busOf own list) : list.buffer = own.buffer :=
  congrArg PageList.buffer hdescribed.describes

theorem length (hdescribed : Described busOf own list) : list.length = own.size :=
  congrArg PageList.length hdescribed.describes

theorem direction (hdescribed : Described busOf own list) :
    list.direction = own.direction.direction :=
  congrArg PageList.direction hdescribed.describes

theorem offset (hdescribed : Described busOf own list) : list.offset = pageOffset list.buffer := by
  rw [hdescribed.buffer]
  exact congrArg PageList.offset hdescribed.describes

end Described

/-- A transfer is without a page list, has one with its header written, or is prepared and waits
for a fragment; the block that is named has the header. -/
inductive Tidy (busOf : UInt64 → UInt32) (memory : Memory) :
    Option UInt64 → Activity ε (Kernel η κ) Transfer → Prop
  | bare {header own} (hnone : own.bulk.pageList = none) : Tidy busOf memory header (.idle own)
  | stored {own list} (hlist : own.bulk.pageList = some list)
      (hdescribed : own.Described busOf list)
      (hkind : list.kind memory = PageList.kindOf list.direction list.fragment) :
      Tidy busOf memory (some list.descriptor) (.idle own)
  | waiting {own descriptor} {call : Preparation} (hnone : own.bulk.pageList = none)
      (hfits : call.buffer.toNat + call.size.toNat ≤ 2 ^ 64)
      (hneeds : NeedsFragment call.buffer call.size call.direction) :
      Tidy busOf memory (some descriptor) (.calling own (call.waiting busOf descriptor))

/-- A tidy transfer's page list describes its buffer, and its header has the kind that goes with
its fragment. -/
theorem Tidy.of_some {busOf : UInt64 → UInt32} {memory : Memory} {header : Option UInt64}
    {activity : Activity ε (Kernel η κ) Transfer} {list : PageList}
    (htidy : Tidy busOf memory header activity)
    (hlist : activity.own.bulk.pageList = some list) :
    activity.own.Described busOf list ∧
      list.kind memory = PageList.kindOf list.direction list.fragment := by
  cases htidy with
  | bare hnone => exact absurd (hnone.symm.trans hlist) (Option.some_ne_none list).symm
  | waiting hnone => exact absurd (hnone.symm.trans hlist) (Option.some_ne_none list).symm
  | stored hsome hdescribed hkind =>
    obtain rfl := Option.some.inj (hsome.symm.trans hlist)
    exact ⟨hdescribed, hkind⟩

/-- A transfer stays tidy where the header of its page list stays as it is. -/
theorem Tidy.keep {busOf : UInt64 → UInt32} {before after : Memory} {header : Option UInt64}
    {activity : Activity ε (Kernel η κ) Transfer} (htidy : Tidy busOf before header activity)
    (hkeeps : ∀ list, activity.own.bulk.pageList = some list → header = some list.descriptor →
      Memory.AgreeOn before after list.descriptor 8) :
    Tidy busOf after header activity := by
  cases htidy with
  | bare hnone => exact .bare hnone
  | waiting hnone hfits hneeds => exact .waiting hnone hfits hneeds
  | @stored own list hlist hdescribed hkind =>
    refine .stored hlist hdescribed ?_
    rw [← hkind, PageList.kind, PageList.kind]
    exact Memory.half_congr (hkeeps list hlist rfl) (by decide : 4 + 2 ≤ 8)

/-- The pool agrees with the transfers, and the headers of their page lists have blocks of their
own that the heap gave out. -/
structure Books (busOf : UInt64 → UInt32) (filled : FragmentPool)
    (headers : TaskId → Option UInt64) (crew : Transfers ε η κ) : Prop where
  accounted : FragmentPool.Accounted filled (pool crew)
  below : ∀ task start, headers task = some start →
    start.toNat + 8 ≤ crew.shared.heap.next.toNat
  apart : ∀ task other start second, task ≠ other → headers task = some start →
    headers other = some second → Memory.Apart start 8 second 8
  tidy : ∀ task, Tidy busOf crew.shared.board.device (headers task) (crew.activity task)

namespace Books

variable {busOf : UInt64 → UInt32} {filled : FragmentPool} {headers : TaskId → Option UInt64}
  {crew : Transfers ε η κ}

/-- A turn keeps the books if the pool stays accounted, the transfer is left tidy with its old
header or one in a new block, and the headers of all other page lists stay as they are. -/
theorem leave (hbooks : Books busOf filled headers crew) {task : TaskId} {shared : Kernel η κ}
    {activity : Activity ε (Kernel η κ) Transfer} {header : Option UInt64}
    (haccounted : FragmentPool.Accounted filled
      ((pool crew).leave task shared.platform.fragments (poolActivity activity)))
    (hheap : crew.shared.heap.next.toNat ≤ shared.heap.next.toNat)
    (hheader : header = headers task ∨ ∃ start, header = some start ∧
      crew.shared.heap.next.toNat ≤ start.toNat ∧ start.toNat + 8 ≤ shared.heap.next.toNat)
    (hkeeps : ∀ other list, other ≠ task → (crew.own other).bulk.pageList = some list →
      headers other = some list.descriptor →
      Memory.AgreeOn crew.shared.board.device shared.board.device list.descriptor 8)
    (htidy : Tidy busOf shared.board.device header activity) :
    Books busOf filled (Function.update headers task header)
      (crew.leave task shared activity) := by
  have htop := shared.heap.next.toNat_lt
  have hnew : ∀ start, header = some start → start.toNat + 8 ≤ shared.heap.next.toNat ∧
      ∀ other second, other ≠ task → headers other = some second →
        Memory.Apart second 8 start 8 := by
    intro start hstart
    rcases hheader with hold | ⟨fresh, hfresh, habove, hbelow⟩
    · rw [hold] at hstart
      have hbelow := hbooks.below task start hstart
      exact ⟨by omega, fun other second hne hsecond =>
        hbooks.apart other task second start hne hsecond hstart⟩
    · obtain rfl : fresh = start := Option.some.inj (hfresh.symm.trans hstart)
      refine ⟨hbelow, fun other second hne hsecond => ?_⟩
      have hold := hbooks.below other second hsecond
      exact Memory.Apart.of_le (by omega) (by omega)
  refine ⟨?accounted, ?below, ?apart, ?tidy⟩
  case accounted =>
    rw [pool_leave]
    exact haccounted
  case below =>
    intro other start hstart
    rw [Function.update_apply] at hstart
    by_cases hother : other = task
    · rw [if_pos hother] at hstart
      exact (hnew start hstart).1
    · rw [if_neg hother] at hstart
      exact Nat.le_trans (hbooks.below other start hstart) hheap
  case apart =>
    intro one other start second hne hstart hsecond
    rw [Function.update_apply] at hstart hsecond
    by_cases hone : one = task
    · have hother : other ≠ task := fun hsame => hne (hone.trans hsame.symm)
      rw [if_pos hone] at hstart
      rw [if_neg hother] at hsecond
      exact ((hnew start hstart).2 other second hother hsecond).symm
    · rw [if_neg hone] at hstart
      by_cases hother : other = task
      · rw [if_pos hother] at hsecond
        exact (hnew second hsecond).2 one start hone hstart
      · rw [if_neg hother] at hsecond
        exact hbooks.apart one other start second hne hstart hsecond
  case tidy =>
    intro other
    rw [Function.update_apply, Crew.leave_activity, Crew.leave_shared]
    by_cases hother : other = task
    · rw [if_pos hother, if_pos hother]
      exact htidy
    · rw [if_neg hother, if_neg hother]
      exact (hbooks.tidy other).keep fun list hlist => hkeeps other list hother hlist

end Books

end Transfer

end DriverHost
