import DriverHost.Proofs.Crew
import DriverHost.Proofs.FragmentTurns
import DriverHost.Proofs.MemoryBlocks

/-!
# Who has which fragment

The pool keeps the same fact in its bitmap and in its semaphore.  When tasks that take fragments
and return their own switch in any order, both agree with what the tasks have: a fragment is free
exactly if nobody has it, and no two tasks have the same one.

Main results:

- Structure `FragmentPool.Ledger`: the invariant, with the place of each waiting task.
- Theorem `FragmentPool.Ledger.step`: every turn keeps it, and none meets a fault.
- Structure `FragmentPool.Serves` and theorem `FragmentPool.Ledger.serves`: what a task gets in its
  turn.
- Theorem `FragmentPool.owned_by_one`: what it says of a pool that was just filled.
-/

namespace DriverHost

namespace FragmentPool

variable {ε : Type}

/-! ## Calls -/

/-- The calls of a task that has some fragments: it takes another one, or returns one it has. -/
inductive Call (own : List Nat) : Coroutine ε FragmentPool (List Nat) → Prop
  | takes : Call own (acquire.bind fun index => .done (index :: own))
  | returns {index} (hown : index ∈ own) :
      Call own ((release index).bind fun _ => .done (own.erase index))

/-- A task that waits for a fragment, with those it has. -/
def waitingFor (own : List Nat) : Coroutine ε FragmentPool (List Nat) :=
  waiting.bind fun index => .done (index :: own)

/-- The code with which a task takes a fragment in its next turn: it begins to, or goes on with a
call that has not ended. -/
inductive Taking : Activity ε FragmentPool (List Nat) → Coroutine ε FragmentPool (List Nat) → Prop
  | begins {own} : Taking (.idle own) (acquire.bind fun index => .done (index :: own))
  | continues {own rest} : Taking (.calling own rest) rest

/-- The lowest of the fragments below a count that no task has. -/
structure LowestFree (count : Nat) (own : TaskId → List Nat) (index : Nat) : Prop where
  below : index < count
  free : ∀ task, index ∉ own task
  lowest : ∀ lower < index, ∃ task, lower ∈ own task

/-- There is only one lowest fragment that nobody has. -/
theorem LowestFree.unique {count : Nat} {own : TaskId → List Nat} {index other : Nat}
    (hindex : LowestFree count own index) (hother : LowestFree count own other) :
    index = other := by
  rcases Nat.lt_trichotomy index other with hlt | hsame | hlt
  · obtain ⟨task, hheld⟩ := hother.lowest index hlt
    exact absurd hheld (hindex.free task)
  · exact hsame
  · obtain ⟨task, hheld⟩ := hindex.lowest other hlt
    exact absurd hheld (hother.free task)

/-! ## Counting free fragments -/

/-- Fragments below a count that are free. -/
def freeBelow (pool : FragmentPool) (count : Nat) : Nat :=
  (List.range count).countP pool.isFree

/-- Leaving out one number that counts makes the count one less. -/
theorem countP_range_erase {counts : Nat → Bool} {index bound : Nat} (hindex : index < bound)
    (hcounts : counts index = true) :
    (List.range bound).countP (fun other => counts other && decide (other ≠ index)) + 1 =
      (List.range bound).countP counts := by
  induction bound with
  | zero => omega
  | succ bound ih =>
    rw [List.range_succ, List.countP_append, List.countP_append, List.countP_singleton,
      List.countP_singleton]
    by_cases hlast : index = bound
    · subst hlast
      have hsame : (List.range index).countP
          (fun other => counts other && decide (other ≠ index)) =
          (List.range index).countP counts := by
        apply List.countP_congr
        intro other hother
        have hlt : other < index := List.mem_range.1 hother
        simp [Nat.ne_of_lt hlt]
      rw [hsame, hcounts]
      simp
    · have hlt : index < bound := by omega
      have hkept : (counts bound && decide (bound ≠ index)) = counts bound := by
        simp [Ne.symm hlast]
      rw [hkept, ← ih hlt]
      omega

/-- Taking a free fragment leaves one free fragment fewer. -/
theorem freeBelow_taken {pool : FragmentPool} {index count : Nat} (hindex : index < count)
    (hcount : count ≤ 64) (hfree : pool.isFree index = true) :
    (pool.taken index).freeBelow count + 1 = pool.freeBelow count := by
  rw [freeBelow, freeBelow, ← countP_range_erase hindex hfree]
  congr 2
  funext other
  exact isFree_taken pool (by omega) other

/-- Returning a lent fragment makes one more free. -/
theorem freeBelow_returned {pool : FragmentPool} {index count : Nat} (hindex : index < count)
    (hcount : count ≤ 64) (hlent : pool.isFree index = false) :
    (pool.returned index).freeBelow count = pool.freeBelow count + 1 := by
  have hback : (pool.returned index).isFree index = true := by
    rw [isFree_returned pool (by omega), decide_eq_true rfl, Bool.or_true]
  rw [freeBelow, freeBelow, ← countP_range_erase hindex hback]
  congr 2
  funext other
  rw [isFree_returned pool (by omega)]
  by_cases hother : other = index
  · subst hother
    simp [hlent]
  · simp [hother]

/-- No more fragments are free than there are. -/
theorem freeBelow_le (pool : FragmentPool) (count : Nat) : pool.freeBelow count ≤ count := by
  have hle := List.countP_le_length (p := pool.isFree) (l := List.range count)
  rwa [List.length_range] at hle

/-- Taking a fragment takes one off the semaphore, which does not wrap around if a unit was there.
-/
theorem toNat_available_taken {pool : FragmentPool} (index : Nat)
    (hsome : pool.available.count ≠ 0) :
    (pool.taken index).available.count.toNat + 1 = pool.available.count.toNat :=
  Semaphore.toNat_pred_add_one hsome

/-- Returning a fragment adds one to the semaphore, if that fits in a word. -/
theorem toNat_available_returned {pool : FragmentPool} {index : Nat}
    (hfits : pool.available.count.toNat + 1 < 2 ^ 32) :
    (pool.returned index).available.count.toNat = pool.available.count.toNat + 1 := by
  rw [returned, Semaphore.give, UInt32.toNat_add]
  exact Nat.mod_eq_of_lt hfits

/-- A pool that counts a free fragment has a lowest one. -/
theorem exists_lowest {pool : FragmentPool} {count : Nat} (hcount : count ≤ 64)
    (hsome : pool.freeBelow count ≠ 0) :
    ∃ index, lowestBit 64 pool.free.toNat = some index ∧ pool.isFree index = true ∧
      ∀ lower < index, pool.isFree lower = false := by
  rcases pool.takeLowest_cases with ⟨index, _, hfree, hlower, htake⟩ | ⟨hnone, _⟩
  · exact ⟨index, (takeLowest_eq_ok_iff.1 htake).1, hfree, hlower⟩
  · obtain ⟨index, hmem, hfree⟩ := List.countP_pos_iff.1 (Nat.pos_of_ne_zero hsome)
    have hlt : index < count := List.mem_range.1 hmem
    rw [hnone index (by omega)] at hfree
    cases hfree

/-! ## The invariant -/

/-- At a switch the bitmap and the semaphore agree with what the tasks have, nobody has the
guard, and every call in progress is a task that waits for a fragment. -/
structure Ledger (filled : FragmentPool) (crew : Crew ε FragmentPool (List Nat)) : Prop where
  base : crew.shared.base = filled.base
  size : crew.shared.fragmentSize = filled.fragmentSize
  count : crew.shared.count = filled.count
  guard : ¬ crew.shared.guard.isLocked = true
  below : ∀ task, ∀ index ∈ crew.own task, index < filled.count
  distinct : ∀ task, (crew.own task).Nodup
  exclusive : ∀ task other index, index ∈ crew.own task → index ∈ crew.own other → task = other
  free : ∀ index, crew.shared.isFree index = true ↔
    index < filled.count ∧ ∀ task, index ∉ crew.own task
  counted : crew.shared.available.count.toNat = crew.shared.freeBelow filled.count
  waits : ∀ task own rest, crew.activity task = .calling own rest → rest = waitingFor own

/-- What the tasks get in their turns.  Who takes a fragment, in a new call or in one that has not
ended, gets the lowest one that nobody has, as long as there is one, and waits otherwise; and who
returns one is rid of it at once. -/
structure Serves (host : Host ε FragmentPool) (count : Nat)
    (crew : Crew ε FragmentPool (List Nat)) : Prop where
  lends : ∀ task code machine index, Taking (crew.activity task) code →
    machine.shared = crew.shared → machine.scheduler.mayLock = true →
    LowestFree count crew.own index →
    code.turn host machine =
      .returned (index :: crew.own task) (machine.withShared (crew.shared.taken index))
  waits : ∀ task code machine, Taking (crew.activity task) code →
    machine.shared = crew.shared → machine.scheduler.mayLock = true →
    (∀ index < count, ∃ other, index ∈ crew.own other) →
    code.turn host machine = .yielded (waitingFor (crew.own task)) machine
  returns : ∀ task own index machine, crew.activity task = .idle own → index ∈ own →
    machine.shared = crew.shared → machine.scheduler.mayLock = true →
    ((release index).bind fun _ => .done (own.erase index)).turn host machine =
      .returned (own.erase index) (machine.withShared (crew.shared.returned index))

namespace Ledger

variable (host : Host ε FragmentPool) {filled : FragmentPool}
  {crew : Crew ε FragmentPool (List Nat)} {task : TaskId}

/-- A fragment that a task has is not free in the bitmap. -/
theorem not_isFree (hledger : Ledger filled crew) {index : Nat} (hown : index ∈ crew.own task) :
    crew.shared.isFree index = false := by
  rw [← Bool.not_eq_true, hledger.free]
  intro hfree
  exact hfree.2 task hown

/-- A fragment that a task has is lent, so that its release passes the checks. -/
theorem isLent (hledger : Ledger filled crew) (hcount : filled.count ≤ 64) {index : Nat}
    (hown : index ∈ crew.own task) : crew.shared.IsLent index := by
  have hbelow := hledger.below task index hown
  refine ⟨?_, ?_⟩
  · rw [hledger.count]
    exact hbelow
  · rw [and_bit_eq_zero_iff (by omega)]
    exact hledger.not_isFree hown

/-- A semaphore that counts a fragment promises a lowest free one. -/
theorem exists_lowest (hledger : Ledger filled crew) (hcount : filled.count ≤ 64)
    (hsome : crew.shared.available.count ≠ 0) :
    ∃ index, lowestBit 64 crew.shared.free.toNat = some index ∧
      crew.shared.isFree index = true ∧ ∀ lower < index, crew.shared.isFree lower = false := by
  apply FragmentPool.exists_lowest hcount
  rw [← hledger.counted, ← UInt32.toNat_zero]
  exact fun hzero => hsome (UInt32.toNat_inj.1 hzero)

/-- The lowest fragment that nobody has is the lowest one with its bit set. -/
theorem lowestFree_iff (hledger : Ledger filled crew) {index : Nat} :
    LowestFree filled.count crew.own index ↔
      crew.shared.isFree index = true ∧ ∀ lower < index, crew.shared.isFree lower = false := by
  constructor
  · intro hlowest
    refine ⟨(hledger.free index).2 ⟨hlowest.below, hlowest.free⟩, fun lower hlt => ?_⟩
    obtain ⟨task, hheld⟩ := hlowest.lowest lower hlt
    exact hledger.not_isFree hheld
  · rintro ⟨hfree, hlower⟩
    obtain ⟨hbelow, hnobody⟩ := (hledger.free index).1 hfree
    refine ⟨hbelow, hnobody, fun lower hlt => ?_⟩
    by_contra hnone
    have hlowerFree := (hledger.free lower).2
      ⟨Nat.lt_trans hlt hbelow, fun other hheld => hnone ⟨other, hheld⟩⟩
    rw [hlower lower hlt] at hlowerFree
    cases hlowerFree

/-- The semaphore counts nothing exactly if somebody has each of the fragments. -/
theorem available_eq_zero_iff (hledger : Ledger filled crew) :
    crew.shared.available.count = 0 ↔
      ∀ index < filled.count, ∃ other, index ∈ crew.own other := by
  rw [← UInt32.toNat_inj, UInt32.toNat_zero, hledger.counted, freeBelow, List.countP_eq_zero]
  constructor
  · intro hnone index hindex
    by_contra hnobody
    exact hnone index (List.mem_range.2 hindex)
      ((hledger.free index).2 ⟨hindex, fun other hheld => hnobody ⟨other, hheld⟩⟩)
  · intro hall index hmem
    obtain ⟨other, hheld⟩ := hall index (List.mem_range.1 hmem)
    rw [hledger.not_isFree hheld]
    exact Bool.false_ne_true

/-! ### Turns -/

/-- What is left of taking a fragment takes the lowest one that nobody has, or goes on waiting
where somebody has each of them. -/
theorem turn_waitingFor (hledger : Ledger filled crew) (hcount : filled.count ≤ 64)
    {machine : Machine ε FragmentPool} (hshared : machine.shared = crew.shared)
    (hmay : machine.scheduler.mayLock = true) (own : List Nat) :
    (∃ index, LowestFree filled.count crew.own index ∧
      crew.shared.available.count ≠ 0 ∧
      (waitingFor own).turn host machine =
        .returned (index :: own) (machine.withShared (crew.shared.taken index))) ∨
    (∀ index < filled.count, ∃ other, index ∈ crew.own other) ∧
      (waitingFor own).turn host machine = .yielded (waitingFor own) machine := by
  have hguard : ¬ machine.shared.guard.isLocked = true := by
    rw [hshared]
    exact hledger.guard
  by_cases hempty : crew.shared.available.count = 0
  · refine Or.inr ⟨hledger.available_eq_zero_iff.1 hempty, ?_⟩
    have hlowest : machine.shared.available.count ≠ 0 →
        lowestBit 64 machine.shared.free.toNat = some 0 := by
      rw [hshared]
      exact fun hsome => absurd hempty hsome
    rw [waitingFor, Coroutine.turn_bind, turn_waiting machine hmay hguard hlowest, hshared,
      if_pos hempty]
    rfl
  · obtain ⟨index, hlowest, hfree⟩ := hledger.exists_lowest hcount hempty
    have hmachine : machine.shared.available.count ≠ 0 →
        lowestBit 64 machine.shared.free.toNat = some index := by
      rw [hshared]
      exact fun _ => hlowest
    refine Or.inl ⟨index, hledger.lowestFree_iff.2 hfree, hempty, ?_⟩
    rw [waitingFor, Coroutine.turn_bind, turn_waiting machine hmay hguard hmachine, hshared,
      if_neg hempty]
    rfl

/-- So does every task that takes one. -/
theorem turn_taking (hledger : Ledger filled crew) (hcount : filled.count ≤ 64)
    {code : Coroutine ε FragmentPool (List Nat)} {machine : Machine ε FragmentPool}
    (htaking : Taking (crew.activity task) code) (hshared : machine.shared = crew.shared)
    (hmay : machine.scheduler.mayLock = true) :
    (∃ index, LowestFree filled.count crew.own index ∧
      crew.shared.available.count ≠ 0 ∧
      code.turn host machine =
        .returned (index :: crew.own task) (machine.withShared (crew.shared.taken index))) ∨
    (∀ index < filled.count, ∃ other, index ∈ crew.own other) ∧
      code.turn host machine = .yielded (waitingFor (crew.own task)) machine := by
  have hwaits : code.turn host machine = (waitingFor (crew.own task)).turn host machine := by
    cases hactivity : crew.activity task with
    | calling own rest =>
      have hown : crew.own task = own := by rw [Crew.own, hactivity, Activity.own]
      rw [hactivity] at htaking
      cases htaking
      rw [hledger.waits task own code hactivity, hown]
    | idle own =>
      have hown : crew.own task = own := by rw [Crew.own, hactivity, Activity.own]
      rw [hactivity] at htaking
      cases htaking
      -- Behind the check of the core, a task that begins to take a fragment already waits.
      rw [hown, waitingFor, Coroutine.turn_bind, Coroutine.turn_bind, turn_acquire machine hmay]
  rw [hwaits]
  exact hledger.turn_waitingFor host hcount hshared hmay (crew.own task)

/-- A task that returns a fragment it has does so in one turn. -/
theorem turn_returns (hledger : Ledger filled crew) (hcount : filled.count ≤ 64)
    {machine : Machine ε FragmentPool} (hshared : machine.shared = crew.shared)
    (hmay : machine.scheduler.mayLock = true) {index : Nat} (hmem : index ∈ crew.own task)
    (left : List Nat) :
    ((release index).bind fun _ => .done left).turn host machine =
      .returned left (machine.withShared (crew.shared.returned index)) := by
  have hlent := hledger.isLent hcount hmem
  rw [← hshared] at hlent ⊢
  rw [Coroutine.turn_bind, turn_release machine hmay hlent, turn_returning machine hmay hlent,
    if_neg]
  · rfl
  · rw [hshared]
    exact hledger.guard

/-- A turn takes the lowest fragment that nobody has, returns one that the task has, or leaves the
task waiting; it never meets a fault. -/
theorem turn_cases (hledger : Ledger filled crew) (hcount : filled.count ≤ 64)
    {code : Coroutine ε FragmentPool (List Nat)} {machine : Machine ε FragmentPool}
    (hoffers : (crew.activity task).Offers Call code) (hshared : machine.shared = crew.shared)
    (hmay : machine.scheduler.mayLock = true) :
    (∃ index, LowestFree filled.count crew.own index ∧
      crew.shared.available.count ≠ 0 ∧
      code.turn host machine =
        .returned (index :: crew.own task) (machine.withShared (crew.shared.taken index))) ∨
    (∃ index ∈ crew.own task, code.turn host machine =
      .returned ((crew.own task).erase index)
        (machine.withShared (crew.shared.returned index))) ∨
    code.turn host machine = .yielded (waitingFor (crew.own task)) machine := by
  cases hactivity : crew.activity task with
  | calling own rest =>
    rw [hactivity] at hoffers
    cases hoffers
    have htaking : Taking (crew.activity task) code := hactivity ▸ .continues
    exact (hledger.turn_taking host hcount htaking hshared hmay).imp_right
      fun hwaits => Or.inr hwaits.2
  | idle own =>
    have hown : crew.own task = own := by rw [Crew.own, hactivity, Activity.own]
    rw [hactivity] at hoffers
    cases hoffers with
    | begins hcall =>
      cases hcall with
      | takes =>
        have htaking : Taking (crew.activity task)
            (acquire.bind fun index => .done (index :: own)) := hactivity ▸ .begins
        exact (hledger.turn_taking host hcount htaking hshared hmay).imp_right
          fun hwaits => Or.inr hwaits.2
      | @returns index hmem =>
        have hheld : index ∈ crew.own task := hown.symm ▸ hmem
        refine Or.inr (Or.inl ⟨index, hheld, ?_⟩)
        rw [hown]
        exact hledger.turn_returns host hcount hshared hmay hheld _

/-! ### What a turn keeps -/

/-- A task that takes a free fragment keeps the ledger. -/
theorem leave_taken (hledger : Ledger filled crew) (hcount : filled.count ≤ 64) {index : Nat}
    (hfree : crew.shared.isFree index = true) (hsome : crew.shared.available.count ≠ 0) :
    Ledger filled (crew.leave task (crew.shared.taken index) (.idle (index :: crew.own task))) := by
  obtain ⟨hindex, hnobody⟩ := (hledger.free index).1 hfree
  have howns : ∀ other held, held ∈ (crew.leave task (crew.shared.taken index)
      (.idle (index :: crew.own task))).own other ↔
      held ∈ crew.own other ∨ (other = task ∧ held = index) := by
    intro other held
    rw [Crew.leave_own]
    by_cases hother : other = task
    · rw [if_pos hother, hother, Activity.own, List.mem_cons, or_comm]
      simp only [true_and]
    · rw [if_neg hother]
      simp only [hother, false_and, or_false]
  refine ⟨hledger.base, hledger.size, hledger.count, Bool.false_ne_true, ?below, ?distinct,
    ?exclusive, ?free, ?counted, Crew.calling_leave hledger.waits _ Activity.calling_of_idle⟩
  case below =>
    intro other held hheld
    rcases (howns other held).1 hheld with hold | ⟨-, rfl⟩
    · exact hledger.below other held hold
    · exact hindex
  case distinct =>
    intro other
    rw [Crew.leave_own]
    by_cases hother : other = task
    · rw [if_pos hother]
      exact List.nodup_cons.2 ⟨hnobody task, hledger.distinct task⟩
    · rw [if_neg hother]
      exact hledger.distinct other
  case exclusive =>
    intro first second held hfirst hsecond
    rcases (howns first held).1 hfirst with hold | ⟨hnew, hheld⟩
    · rcases (howns second held).1 hsecond with hother | ⟨-, hheld⟩
      · exact hledger.exclusive first second held hold hother
      · exact absurd (hheld ▸ hold) (hnobody first)
    · rcases (howns second held).1 hsecond with hother | ⟨hsame, -⟩
      · exact absurd (hheld ▸ hother) (hnobody second)
      · exact hnew.trans hsame.symm
  case free =>
    intro held
    rw [Crew.leave_shared, isFree_taken crew.shared (by omega), Bool.and_eq_true, hledger.free,
      decide_eq_true_iff]
    constructor
    · rintro ⟨⟨hbelow, hfree⟩, hother⟩
      refine ⟨hbelow, fun other hheld => ?_⟩
      rcases (howns other held).1 hheld with hold | ⟨-, hsame⟩
      · exact hfree other hold
      · exact hother hsame
    · rintro ⟨hbelow, hfree⟩
      refine ⟨⟨hbelow, fun other hold => hfree other ((howns other held).2 (Or.inl hold))⟩, ?_⟩
      rintro rfl
      exact hfree task ((howns task held).2 (Or.inr ⟨rfl, rfl⟩))
  case counted =>
    have hless := freeBelow_taken hindex hcount hfree
    have htaken := toNat_available_taken index hsome
    have hcounted := hledger.counted
    rw [Crew.leave_shared]
    omega

/-- A task that returns a fragment it has keeps the ledger. -/
theorem leave_returned (hledger : Ledger filled crew) (hcount : filled.count ≤ 64) {index : Nat}
    (hown : index ∈ crew.own task) :
    Ledger filled (crew.leave task (crew.shared.returned index)
      (.idle ((crew.own task).erase index))) := by
  have hindex := hledger.below task index hown
  have howns : ∀ other held, held ∈ (crew.leave task (crew.shared.returned index)
      (.idle ((crew.own task).erase index))).own other ↔ held ∈ crew.own other ∧ held ≠ index := by
    intro other held
    rw [Crew.leave_own]
    by_cases hother : other = task
    · rw [if_pos hother, hother, Activity.own, (hledger.distinct task).mem_erase_iff, and_comm]
    · rw [if_neg hother]
      refine ⟨fun hheld => ⟨hheld, ?_⟩, fun hheld => hheld.1⟩
      rintro rfl
      exact hother (hledger.exclusive other task held hheld hown)
  refine ⟨hledger.base, hledger.size, hledger.count, Bool.false_ne_true, ?below, ?distinct,
    ?exclusive, ?free, ?counted, Crew.calling_leave hledger.waits _ Activity.calling_of_idle⟩
  case below =>
    intro other held hheld
    exact hledger.below other held ((howns other held).1 hheld).1
  case distinct =>
    intro other
    rw [Crew.leave_own]
    by_cases hother : other = task
    · rw [if_pos hother]
      exact (hledger.distinct task).erase index
    · rw [if_neg hother]
      exact hledger.distinct other
  case exclusive =>
    intro first second held hfirst hsecond
    exact hledger.exclusive first second held ((howns first held).1 hfirst).1
      ((howns second held).1 hsecond).1
  case free =>
    intro held
    rw [Crew.leave_shared, isFree_returned crew.shared (by omega), Bool.or_eq_true, hledger.free,
      decide_eq_true_iff]
    constructor
    · rintro (⟨hbelow, hfree⟩ | rfl)
      · exact ⟨hbelow, fun other hheld => hfree other ((howns other held).1 hheld).1⟩
      · exact ⟨hindex, fun other hheld => ((howns other held).1 hheld).2 rfl⟩
    · rintro ⟨hbelow, hfree⟩
      by_cases hheld : held = index
      · exact Or.inr hheld
      · exact Or.inl ⟨hbelow, fun other hold => hfree other ((howns other held).2 ⟨hold, hheld⟩)⟩
  case counted =>
    have hmore := freeBelow_returned hindex hcount (hledger.not_isFree hown)
    have hfits := freeBelow_le (crew.shared.returned index) filled.count
    have hcounted := hledger.counted
    rw [Crew.leave_shared, toNat_available_returned (by omega)]
    omega

/-- A task that has got nothing new keeps the ledger if it is between calls or waits. -/
theorem leave_same (hledger : Ledger filled crew) {activity : Activity ε FragmentPool (List Nat)}
    (hown : activity.own = crew.own task)
    (hactivity : ∀ own rest, activity = .calling own rest → rest = waitingFor own) :
    Ledger filled (crew.leave task crew.shared activity) := by
  have hsame := Crew.own_leave_same hown crew.shared
  refine ⟨hledger.base, hledger.size, hledger.count, hledger.guard, ?below, ?distinct, ?exclusive,
    ?free, hledger.counted, Crew.calling_leave hledger.waits _ hactivity⟩
  case below =>
    rw [hsame]
    exact hledger.below
  case distinct =>
    rw [hsame]
    exact hledger.distinct
  case exclusive =>
    rw [hsame]
    exact hledger.exclusive
  case free =>
    rw [hsame]
    exact hledger.free

/-- A task that goes on waiting leaves the pool in order. -/
theorem leave_waiting (hledger : Ledger filled crew) :
    Ledger filled (crew.leave task crew.shared
      (.calling (crew.own task) (waitingFor (crew.own task)))) := by
  apply hledger.leave_same
  · rfl
  · rintro own rest hcalling
    cases hcalling
    rfl

/-! ### Every turn -/

/-- No turn on a pool in order meets a fault: whoever releases a fragment has it. -/
theorem not_mayFail (hledger : Ledger filled crew) (hcount : filled.count ≤ 64) :
    ¬ crew.MayFail host Call := by
  rintro ⟨task, code, machine, cause, last, hoffers, hshared, hmay, hturn⟩
  rcases hledger.turn_cases host hcount hoffers hshared hmay with
    ⟨index, -, -, htakes⟩ | ⟨index, -, hreturns⟩ | hwaits
  · rw [htakes] at hturn
    cases hturn
  · rw [hreturns] at hturn
    cases hturn
  · rw [hwaits] at hturn
    cases hturn

/-- What one turn of any task can do to the crew. -/
theorem step_cases (hledger : Ledger filled crew) (hcount : filled.count ≤ 64)
    {next : Crew ε FragmentPool (List Nat)} (hstep : Crew.Step host Call crew next) :
    ∃ task,
      (∃ index, LowestFree filled.count crew.own index ∧
        crew.shared.available.count ≠ 0 ∧
        next = crew.leave task (crew.shared.taken index) (.idle (index :: crew.own task))) ∨
      (∃ index ∈ crew.own task, next = crew.leave task (crew.shared.returned index)
        (.idle ((crew.own task).erase index))) ∨
      next = crew.leave task crew.shared
        (.calling (crew.own task) (waitingFor (crew.own task))) := by
  cases hstep with
  | @returned task code machine own last hoffers hshared hmay hturn =>
    refine ⟨task, ?_⟩
    rcases hledger.turn_cases host hcount hoffers hshared hmay with
      ⟨index, hlowest, hsome, htakes⟩ | ⟨index, hown, hreturns⟩ | hwaits
    · rw [htakes] at hturn
      cases hturn
      exact Or.inl ⟨index, hlowest, hsome, rfl⟩
    · rw [hreturns] at hturn
      cases hturn
      exact Or.inr (Or.inl ⟨index, hown, rfl⟩)
    · rw [hwaits] at hturn
      cases hturn
  | @yielded task code machine rest last hoffers hshared hmay hturn =>
    refine ⟨task, Or.inr (Or.inr ?_)⟩
    rcases hledger.turn_cases host hcount hoffers hshared hmay with
      ⟨index, -, -, htakes⟩ | ⟨index, -, hreturns⟩ | hwaits
    · rw [htakes] at hturn
      cases hturn
    · rw [hreturns] at hturn
      cases hturn
    · rw [hwaits] at hturn
      cases hturn
      rw [hshared]

/-- Every turn keeps the ledger. -/
theorem step (hledger : Ledger filled crew) (hcount : filled.count ≤ 64)
    {next : Crew ε FragmentPool (List Nat)} (hstep : Crew.Step host Call crew next) :
    Ledger filled next := by
  obtain ⟨task, ⟨index, hlowest, hsome, rfl⟩ | ⟨index, hown, rfl⟩ | rfl⟩ :=
    hledger.step_cases host hcount hstep
  · exact hledger.leave_taken hcount (hledger.lowestFree_iff.1 hlowest).1 hsome
  · exact hledger.leave_returned hcount hown
  · exact hledger.leave_waiting

/-- A turn that gives a task one more fragment gives it the lowest one that nobody had. -/
theorem step_takes_lowest (hledger : Ledger filled crew) (hcount : filled.count ≤ 64)
    {next : Crew ε FragmentPool (List Nat)} (hstep : Crew.Step host Call crew next) {index : Nat}
    (htaken : next.own task = index :: crew.own task) :
    LowestFree filled.count crew.own index := by
  have hmore : ∀ own : List Nat, own.length ≤ (crew.own task).length →
      own ≠ index :: crew.own task := by
    rintro own hle rfl
    rw [List.length_cons] at hle
    omega
  obtain ⟨acting, ⟨found, hlowest, -, rfl⟩ | ⟨found, -, rfl⟩ | rfl⟩ :=
    hledger.step_cases host hcount hstep
  · rw [Crew.leave_own] at htaken
    by_cases hacting : task = acting
    · rw [if_pos hacting, ← hacting, Activity.own, List.cons.injEq] at htaken
      exact htaken.1 ▸ hlowest
    · rw [if_neg hacting] at htaken
      exact absurd htaken (hmore _ (Nat.le_refl _))
  · rw [Crew.leave_own] at htaken
    by_cases hacting : task = acting
    · rw [if_pos hacting, ← hacting, Activity.own] at htaken
      exact absurd htaken (hmore _ List.length_erase_le)
    · rw [if_neg hacting] at htaken
      exact absurd htaken (hmore _ (Nat.le_refl _))
  · rw [Crew.leave_own] at htaken
    by_cases hacting : task = acting
    · rw [if_pos hacting, ← hacting, Activity.own] at htaken
      exact absurd htaken (hmore _ (Nat.le_refl _))
    · rw [if_neg hacting] at htaken
      exact absurd htaken (hmore _ (Nat.le_refl _))

/-- Whatever turns have led here, every task gets in its next turn what it may expect. -/
theorem serves (hledger : Ledger filled crew) (hcount : filled.count ≤ 64) :
    Serves host filled.count crew := by
  refine ⟨?lends, ?waits, ?returns⟩
  case lends =>
    intro task code machine index htaking hshared hmay hlowest
    rcases hledger.turn_taking host hcount htaking hshared hmay with
      ⟨found, hfound, -, hturn⟩ | ⟨hall, -⟩
    · rw [hlowest.unique hfound]
      exact hturn
    · obtain ⟨other, hheld⟩ := hall index hlowest.below
      exact absurd hheld (hlowest.free other)
  case waits =>
    intro task code machine htaking hshared hmay hall
    rcases hledger.turn_taking host hcount htaking hshared hmay with
      ⟨found, hfound, -, -⟩ | ⟨-, hturn⟩
    · obtain ⟨other, hheld⟩ := hall found hfound.below
      exact absurd hheld (hfound.free other)
    · exact hturn
  case returns =>
    intro task own index machine hactivity hmem hshared hmay
    have hheld : index ∈ crew.own task := by
      rw [Crew.own, hactivity]
      exact hmem
    exact hledger.turn_returns host hcount hshared hmay hheld _

end Ledger

/-- A task between two calls can take the lowest fragment that nobody has. -/
theorem Serves.step {host : Host ε FragmentPool} {count : Nat}
    {crew : Crew ε FragmentPool (List Nat)} (hserves : Serves host count crew) (task : TaskId)
    {own : List Nat} {index : Nat} (hidle : crew.activity task = .idle own)
    (hlowest : LowestFree count crew.own index) :
    Crew.Step host Call crew
      (crew.leave task (crew.shared.taken index) (.idle (index :: own))) := by
  have htaking : Taking (crew.activity task)
      (acquire.bind fun index => .done (index :: own)) := hidle ▸ .begins
  have hown : crew.own task = own := by rw [Crew.own, hidle, Activity.own]
  have hturn := hserves.lends task _ { shared := crew.shared } index htaking rfl rfl hlowest
  rw [hown] at hturn
  exact .returned (hidle ▸ .begins .takes) rfl rfl hturn

/-! ## A pool that was just filled -/

section Filled

variable {base line : UInt64} {count : Nat}

/-- Filling a pool succeeds where its fragments fit the address space, and all of them are then
free. -/
theorem refill_eq_ok (before : FragmentPool) (hpositive : 1 ≤ count) (hcount : count ≤ 64)
    (hline : isPowerOfTwo line = true)
    (hfits : base.toNat + count * (2 * line.toNat) < 2 ^ 64) :
    ∃ size, size.toNat = 2 * line.toNat ∧ before.refill base count line = .ok { before with
      base, fragmentSize := size, count
      free := allFree count
      available := { count := UInt32.ofNat count } } := by
  have hsmall : 2 * line.toNat < 2 ^ 64 := by
    have hone : 1 * (2 * line.toNat) ≤ count * (2 * line.toNat) :=
      Nat.mul_le_mul_right _ hpositive
    omega
  have htwo : (2 : UInt64).toNat = 2 := rfl
  have hsize : mulWords 2 line = .ok (UInt64.ofNat (2 * line.toNat)) := by
    rw [mulWords, ensureWord_eq_ok_iff, htwo, UInt64.toNat_ofNat_of_lt' hsmall]
  have hinside : (count == 0 || decide (maxFragments < count)) = false := by
    rw [Bool.or_eq_false_iff, beq_eq_false_iff_ne, decide_eq_false_iff_not, maxFragments]
    omega
  refine ⟨UInt64.ofNat (2 * line.toNat), UInt64.toNat_ofNat_of_lt' hsmall, ?_⟩
  simp only [refill, hinside, hline, bugIf, hsize, Bool.not_true, Bool.false_eq_true, if_false]
  rfl

/-- The fragments of a pool that fit the address space lie one after the other. -/
theorem address_eq_ok {pool : FragmentPool} {index : Nat}
    (hfits : pool.base.toNat + index * pool.fragmentSize.toNat < 2 ^ 64)
    (hindex : index < 2 ^ 64) :
    ∃ start, pool.address (UInt64.ofNat index) = .ok start ∧
      start.toNat = pool.base.toNat + index * pool.fragmentSize.toNat := by
  have hsmall : index * pool.fragmentSize.toNat < 2 ^ 64 := by omega
  have hplace : mulWords (UInt64.ofNat index) pool.fragmentSize =
      .ok (UInt64.ofNat (index * pool.fragmentSize.toNat)) := by
    rw [mulWords, ensureWord_eq_ok_iff, UInt64.toNat_ofNat_of_lt' hindex,
      UInt64.toNat_ofNat_of_lt' hsmall]
  refine ⟨UInt64.ofNat (pool.base.toNat + index * pool.fragmentSize.toNat), ?_,
    UInt64.toNat_ofNat_of_lt' hfits⟩
  simp only [address, hplace, bind, Except.bind]
  rw [addWords, ensureWord_eq_ok_iff, UInt64.toNat_ofNat_of_lt' hfits,
    UInt64.toNat_ofNat_of_lt' hsmall]

/-- A crew without fragments and a pool with all of them agree. -/
theorem ledger_start {filled : FragmentPool} (hcount : filled.count ≤ 64)
    (hfree : filled.free = allFree filled.count)
    (havailable : filled.available.count = UInt32.ofNat filled.count)
    (hguard : ¬ filled.guard.isLocked = true) :
    Ledger filled (Crew.start filled [] : Crew ε FragmentPool (List Nat)) := by
  have hbits : ∀ index, filled.isFree index = decide (index < filled.count) := by
    intro index
    rw [isFree, hfree, testBit_allFree hcount]
  have hnothing : ∀ task index,
      index ∉ (Crew.start filled [] : Crew ε FragmentPool (List Nat)).own task :=
    fun _ _ => List.not_mem_nil
  refine ⟨rfl, rfl, rfl, hguard, ?below, fun _ => List.nodup_nil, ?exclusive, ?free, ?counted,
    ?waits⟩
  case below =>
    intro task index hown
    exact absurd hown (hnothing task index)
  case exclusive =>
    intro task other index hown
    exact absurd hown (hnothing task index)
  case free =>
    intro index
    change filled.isFree index = true ↔ _
    rw [hbits, decide_eq_true_iff]
    exact ⟨fun hlt => ⟨hlt, fun task => hnothing task index⟩, fun hboth => hboth.1⟩
  case counted =>
    have hall : filled.freeBelow filled.count = filled.count := by
      rw [freeBelow, List.countP_eq_length.2, List.length_range]
      intro index hmem
      rw [hbits, decide_eq_true_iff]
      exact List.mem_range.1 hmem
    change filled.available.count.toNat = filled.freeBelow filled.count
    rw [hall, havailable, UInt32.toNat_ofNat']
    omega
  case waits =>
    intro task own rest hcalling
    rw [Crew.start] at hcalling
    cases hcalling

/-- Two fragments of a pool that fits the address space do not share a byte. -/
theorem apart_of_ne {pool : FragmentPool}
    (hfits : pool.base.toNat + pool.count * pool.fragmentSize.toNat < 2 ^ 64)
    (hcount : pool.count ≤ 64) {first second : Nat} (hfirst : first < pool.count)
    (hsecond : second < pool.count) (hne : first ≠ second) :
    ∃ one other, pool.address (UInt64.ofNat first) = .ok one ∧
      pool.address (UInt64.ofNat second) = .ok other ∧
      Memory.Apart one pool.fragmentSize.toNat other pool.fragmentSize.toNat := by
  have hends : ∀ index < pool.count, pool.base.toNat + (index + 1) * pool.fragmentSize.toNat <
      2 ^ 64 := by
    intro index hindex
    have hle : (index + 1) * pool.fragmentSize.toNat ≤ pool.count * pool.fragmentSize.toNat :=
      Nat.mul_le_mul_right _ hindex
    omega
  have hplaced : ∀ index < pool.count, ∃ start, pool.address (UInt64.ofNat index) = .ok start ∧
      start.toNat = pool.base.toNat + index * pool.fragmentSize.toNat := by
    intro index hindex
    have hend := hends index hindex
    rw [Nat.add_one_mul] at hend
    exact address_eq_ok (by omega) (by omega)
  -- The fragment with the smaller index ends where the other one begins, or before.
  have hbefore : ∀ low high one other, low < high → high < pool.count →
      one.toNat = pool.base.toNat + low * pool.fragmentSize.toNat →
      other.toNat = pool.base.toNat + high * pool.fragmentSize.toNat →
      Memory.Apart one pool.fragmentSize.toNat other pool.fragmentSize.toNat := by
    intro low high one other hlt hhigh hone hother
    have hend := hends high hhigh
    have hle : (low + 1) * pool.fragmentSize.toNat ≤ high * pool.fragmentSize.toNat :=
      Nat.mul_le_mul_right _ hlt
    rw [Nat.add_one_mul] at hend hle
    exact Memory.Apart.of_le (by omega) (by omega)
  obtain ⟨one, hone, honePlace⟩ := hplaced first hfirst
  obtain ⟨other, hother, hotherPlace⟩ := hplaced second hsecond
  refine ⟨one, other, hone, hother, ?_⟩
  rcases Nat.lt_or_gt_of_ne hne with hlt | hlt
  · exact hbefore first second one other hlt hsecond honePlace hotherPlace
  · exact (hbefore second first other one hlt hfirst hotherPlace honePlace).symm

/-- What tasks that share a pool may rely on at every switch: no two of them have the same
fragment, the pool's own records agree with what they have, and nobody is inside the guard. -/
structure OwnedByOne (count : Nat) (line : UInt64) (crew : Crew ε FragmentPool (List Nat)) :
    Prop where
  below : ∀ task, ∀ index ∈ crew.own task, index < count
  distinct : ∀ task, (crew.own task).Nodup
  exclusive : ∀ task other index, index ∈ crew.own task → index ∈ crew.own other → task = other
  free : ∀ index, crew.shared.isFree index = true ↔
    index < count ∧ ∀ task, index ∉ crew.own task
  counted : crew.shared.freeCount.toNat = (List.range count).countP crew.shared.isFree
  guard : crew.shared.guard.isLocked = false
  apart : ∀ first < count, ∀ second < count, first ≠ second →
    ∃ one other, crew.shared.address (UInt64.ofNat first) = .ok one ∧
      crew.shared.address (UInt64.ofNat second) = .ok other ∧
      Memory.Apart one (2 * line.toNat) other (2 * line.toNat)

/-- When any number of tasks take fragments of a pool that was just filled and return their own,
switching in any order, every fragment has one owner at every switch, no turn meets a fault, and
a task that takes a fragment gets the lowest one that nobody has, in the turn in which there is
one. -/
theorem owned_by_one (host : Host ε FragmentPool) (before : FragmentPool)
    (hguard : before.guard.isLocked = false) (hpositive : 1 ≤ count) (hcount : count ≤ 64)
    (hline : isPowerOfTwo line = true)
    (hfits : base.toNat + count * (2 * line.toNat) < 2 ^ 64) :
    ∃ filled, before.refill base count line = .ok filled ∧
      ∀ crew, Crew.Reaches host Call (Crew.start filled []) crew →
        OwnedByOne count line crew ∧ ¬ crew.MayFail host Call ∧ Serves host count crew ∧
        ∀ next task index, Crew.Step host Call crew next →
          next.own task = index :: crew.own task → LowestFree count crew.own index := by
  obtain ⟨size, hsize, hrefill⟩ := refill_eq_ok before hpositive hcount hline hfits
  refine ⟨_, hrefill, ?_⟩
  intro crew hreach
  have hunlocked : ¬ before.guard.isLocked = true := by
    rw [hguard]
    exact Bool.false_ne_true
  have hledger := hreach.invariant (ledger_start hcount rfl rfl hunlocked)
    fun crew next hledger hstep => hledger.step host hcount hstep
  refine ⟨⟨hledger.below, hledger.distinct, hledger.exclusive, hledger.free, hledger.counted,
    Bool.eq_false_iff.2 hledger.guard, ?_⟩, hledger.not_mayFail host hcount,
    hledger.serves host hcount, ?_⟩
  · intro first hfirst second hsecond hne
    have hbaseNow : crew.shared.base = base := hledger.base
    have hsizeNow : crew.shared.fragmentSize = size := hledger.size
    have hcountNow : crew.shared.count = count := hledger.count
    rw [← hsize, ← hsizeNow] at hfits ⊢
    rw [← hbaseNow, ← hcountNow] at hfits
    rw [← hcountNow] at hcount hfirst hsecond
    exact apart_of_ne hfits hcount hfirst hsecond hne
  · intro next task index hstep htaken
    exact hledger.step_takes_lowest host hcount hstep htaken

/-- A pool of two fragments, both of them free. -/
def twoFragments : FragmentPool :=
  { base := 0x1c00000, fragmentSize := 128, count := 2, free := 3, available := { count := 2 } }

/-- A first task has taken one of them. -/
def oneLent : Crew Empty FragmentPool (List Nat) :=
  (Crew.start twoFragments []).leave 1 (twoFragments.taken 0) (.idle [0])

/-- Then a second task has taken the other. -/
def bothLent : Crew Empty FragmentPool (List Nat) :=
  oneLent.leave 2 (oneLent.shared.taken 1) (.idle [1])

/-- Two tasks that each take one of two fragments have different ones.  Another task that takes one
then waits, and the first one can return its own. -/
theorem owned_by_one_of_two :
    ({} : FragmentPool).refill 0x1c00000 2 64 = .ok twoFragments ∧
      Crew.Reaches (Host.still Empty FragmentPool) Call (Crew.start twoFragments []) bothLent ∧
      bothLent.own 1 = [0] ∧ bothLent.own 2 = [1] ∧ OwnedByOne 2 64 bothLent ∧
      (acquire.bind fun index => .done [index]).turn (Host.still Empty FragmentPool)
        { shared := bothLent.shared } = .yielded (waitingFor []) { shared := bothLent.shared } ∧
      ((release 0).bind fun _ => .done ([] : List Nat)).turn (Host.still Empty FragmentPool)
        { shared := bothLent.shared } = .returned [] { shared := bothLent.shared.returned 0 } := by
  have hfits : (0x1c00000 : UInt64).toNat + 2 * (2 * (64 : UInt64).toNat) < 2 ^ 64 := by decide
  have hline : isPowerOfTwo 64 = true := by decide
  have hfilled : ({} : FragmentPool).refill 0x1c00000 2 64 = .ok twoFragments := rfl
  obtain ⟨filled, hrefill, hall⟩ := owned_by_one (Host.still Empty FragmentPool) {} rfl
    (by decide) (by decide) hline hfits
  obtain rfl : filled = twoFragments := Except.ok.inj (hrefill.symm.trans hfilled)
  -- The first task gets the fragment with number zero, as nobody has any, and the second the next.
  have hzero : LowestFree 2 (Crew.start twoFragments [] : Crew Empty FragmentPool _).own 0 :=
    ⟨by decide, fun _ => List.not_mem_nil, fun _ hlt => absurd hlt (Nat.not_lt_zero _)⟩
  have hone := Relation.ReflTransGen.single ((hall _ .refl).2.2.1.step 1 rfl hzero)
  have hnext : LowestFree 2 oneLent.own 1 := by
    refine ⟨by decide, fun task => ?_, fun lower hlt => ⟨1, ?_⟩⟩
    · rw [oneLent, Crew.leave_own]
      split
      · decide
      · exact List.not_mem_nil
    · rw [Nat.lt_one_iff.1 hlt]
      exact List.mem_singleton_self 0
  have htwo := hone.tail ((hall oneLent hone).2.2.1.step 2 rfl hnext)
  obtain ⟨howned, -, hserves, -⟩ := hall bothLent htwo
  have hlent : ∀ index < 2, ∃ other, index ∈ bothLent.own other := by
    intro index hindex
    rcases (by omega : index = 0 ∨ index = 1) with rfl | rfl
    · exact ⟨1, List.mem_singleton_self 0⟩
    · exact ⟨2, List.mem_singleton_self 1⟩
  exact ⟨hfilled, htwo, rfl, rfl, howned, hserves.waits 3 _ _ .begins rfl rfl hlent,
    hserves.returns 1 [0] 0 _ rfl (List.mem_singleton_self 0) rfl rfl⟩

end Filled

end FragmentPool

end DriverHost
