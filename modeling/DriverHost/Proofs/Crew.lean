import DriverHost.Proofs.TaskRun
import Mathlib.Algebra.BigOperators.Finprod
import Mathlib.Logic.Function.Basic
import Mathlib.Logic.Relation

/-!
# Crews of tasks

Any number of tasks make calls on one shared state.  A task is between two calls or in the
middle of one, where it gave the processor up, and the tasks take turns in any order.  What a
task has got out of its calls so far is its own, and says which calls it may make next.

Main results:

- Structure `Crew` and relation `Crew.Step`: one turn of any task.
- Definition `Crew.Reaches`: the states that turns in any order lead to, and definition
  `Crew.ReachesWithin`: those that are reached without leaving a bound.
- Definition `Crew.MayFail`: some task's next turn meets a fault.
- Theorem `Crew.Reaches.invariant`: what each turn keeps holds at every switch.
- Theorem `Crew.finsum_leave`: how a turn changes a sum over all tasks.
- Definition `Crew.total` and theorem `Crew.total_leave`: what all tasks together count, and
  how a turn changes it.
-/

namespace DriverHost

variable {ε σ ω : Type}

/-- What a task is doing at a switch. -/
inductive Activity (ε σ ω : Type) : Type 1 where
  /-- It is between two calls. -/
  | idle (own : ω)
  /-- It is in the middle of a call and has the rest of it left to run. -/
  | calling (own : ω) (rest : Coroutine ε σ ω)

namespace Activity

/-- What the task had got when its last call was over. -/
def own : Activity ε σ ω → ω
  | idle own => own
  | calling own _ => own

/-- The code that a task may run in its next turn: the rest of its call, or a new one. -/
inductive Offers (calls : ω → Coroutine ε σ ω → Prop) :
    Activity ε σ ω → Coroutine ε σ ω → Prop
  | begins {own code} (hcall : calls own code) : Offers calls (.idle own) code
  | continues {own rest} : Offers calls (.calling own rest) rest

/-- Whatever is asked of calls in progress holds of a task between two calls. -/
theorem calling_of_idle {between : ω} {wanted : ω → Coroutine ε σ ω → Prop} (own : ω)
    (rest : Coroutine ε σ ω) (hidle : idle between = calling own rest) : wanted own rest := by
  cases hidle

end Activity

/-- Tasks with a state they share. -/
structure Crew (ε σ ω : Type) : Type 1 where
  /-- The state that all tasks share. -/
  shared : σ
  /-- What each task is doing. -/
  activity : TaskId → Activity ε σ ω

namespace Crew

/-- A crew that has made no calls yet. -/
def start (shared : σ) (own : ω) : Crew ε σ ω where
  shared
  activity _ := .idle own

/-- What a task has got out of its calls. -/
def own (crew : Crew ε σ ω) (task : TaskId) : ω :=
  (crew.activity task).own

/-- The crew after a task has left the shared state and its own call in some way. -/
def leave (crew : Crew ε σ ω) (task : TaskId) (shared : σ) (activity : Activity ε σ ω) :
    Crew ε σ ω where
  shared
  activity := Function.update crew.activity task activity

@[simp] theorem leave_shared (crew : Crew ε σ ω) (task : TaskId) (shared : σ)
    (activity : Activity ε σ ω) : (crew.leave task shared activity).shared = shared :=
  rfl

/-- What one task leaves behind does not touch what the others are doing. -/
theorem leave_activity (crew : Crew ε σ ω) (task : TaskId) (shared : σ)
    (activity : Activity ε σ ω) (other : TaskId) :
    (crew.leave task shared activity).activity other =
      if other = task then activity else crew.activity other :=
  Function.update_apply _ _ _ _

/-- What one task leaves behind does not touch what the others own. -/
theorem leave_own (crew : Crew ε σ ω) (task : TaskId) (shared : σ)
    (activity : Activity ε σ ω) (other : TaskId) :
    (crew.leave task shared activity).own other =
      if other = task then activity.own else crew.own other := by
  rw [own, leave_activity]
  by_cases hother : other = task
  · rw [if_pos hother, if_pos hother]
  · rw [if_neg hother, if_neg hother]
    rfl

/-- What a task leaves last counts. -/
theorem leave_leave (crew : Crew ε σ ω) (task : TaskId) (first second : σ)
    (one other : Activity ε σ ω) :
    (crew.leave task first one).leave task second other = crew.leave task second other := by
  rw [leave, leave, leave, Function.update_idem]

/-- A task that leaves everything as it is leaves the crew as it is. -/
theorem leave_self (crew : Crew ε σ ω) (task : TaskId) :
    crew.leave task crew.shared (crew.activity task) = crew := by
  rw [leave, Function.update_eq_self]

/-- A task that has got nothing new leaves everybody with what they had. -/
theorem own_leave_same {crew : Crew ε σ ω} {task : TaskId} {activity : Activity ε σ ω}
    (hown : activity.own = crew.own task) (shared : σ) :
    (crew.leave task shared activity).own = crew.own := by
  funext other
  rw [leave_own]
  by_cases hother : other = task
  · rw [if_pos hother, hother, hown]
  · rw [if_neg hother]

/-- What is asked of all calls in progress still holds if it holds of the task that had the turn,
or that task is between two calls. -/
theorem calling_leave {crew : Crew ε σ ω} {task : TaskId} {wanted : ω → Coroutine ε σ ω → Prop}
    (hcrew : ∀ task own rest, crew.activity task = .calling own rest → wanted own rest)
    (shared : σ) {activity : Activity ε σ ω}
    (hactivity : ∀ own rest, activity = .calling own rest → wanted own rest) :
    ∀ other own rest, (crew.leave task shared activity).activity other = .calling own rest →
      wanted own rest := by
  intro other own rest hcalling
  rw [leave_activity] at hcalling
  by_cases hother : other = task
  · rw [if_pos hother] at hcalling
    exact hactivity own rest hcalling
  · rw [if_neg hother] at hcalling
    exact hcrew other own rest hcalling

section Turns

variable (host : Host ε σ) (calls : ω → Coroutine ε σ ω → Prop)

/-- One turn of any task that may touch locks. -/
inductive Step : Crew ε σ ω → Crew ε σ ω → Prop
  /-- The turn ends the task's call. -/
  | returned {crew : Crew ε σ ω} {task code machine own last}
      (hoffers : (crew.activity task).Offers calls code) (hshared : machine.shared = crew.shared)
      (hmay : machine.scheduler.mayLock = true)
      (hturn : code.turn host machine = .returned own last) :
      Step crew (crew.leave task last.shared (.idle own))
  /-- The task gives the processor up in its call. -/
  | yielded {crew : Crew ε σ ω} {task code machine rest last}
      (hoffers : (crew.activity task).Offers calls code) (hshared : machine.shared = crew.shared)
      (hmay : machine.scheduler.mayLock = true)
      (hturn : code.turn host machine = .yielded rest last) :
      Step crew (crew.leave task last.shared (.calling (crew.own task) rest))

/-- The states that turns in any order lead to. -/
def Reaches : Crew ε σ ω → Crew ε σ ω → Prop :=
  Relation.ReflTransGen (Step host calls)

/-- The states that turns in any order lead to without leaving a bound on the way. -/
def ReachesWithin (allowed : Crew ε σ ω → Prop) : Crew ε σ ω → Crew ε σ ω → Prop :=
  Relation.ReflTransGen fun crew next => Step host calls crew next ∧ allowed next

/-- Some task's next turn meets a fault. -/
def MayFail (crew : Crew ε σ ω) : Prop :=
  ∃ task code machine cause last, (crew.activity task).Offers calls code ∧
    machine.shared = crew.shared ∧ machine.scheduler.mayLock = true ∧
    code.turn host machine = .failed cause last

end Turns

variable {host : Host ε σ} {calls : ω → Coroutine ε σ ω → Prop}

/-- What each turn keeps holds at every switch. -/
theorem Reaches.invariant {holds : Crew ε σ ω → Prop} {first crew : Crew ε σ ω}
    (hreach : Reaches host calls first crew) (hbegin : holds first)
    (hstep : ∀ crew next, holds crew → Step host calls crew next → holds next) : holds crew := by
  induction hreach with
  | refl => exact hbegin
  | tail _ hnext ih => exact hstep _ _ ih hnext

/-- What each turn within the bound keeps holds at every switch, and so does the bound. -/
theorem ReachesWithin.invariant {allowed holds : Crew ε σ ω → Prop} {first crew : Crew ε σ ω}
    (hreach : ReachesWithin host calls allowed first crew) (hallowed : allowed first)
    (hbegin : holds first)
    (hstep : ∀ crew next, holds crew → allowed crew → Step host calls crew next → allowed next →
      holds next) : holds crew ∧ allowed crew := by
  induction hreach with
  | refl => exact ⟨hbegin, hallowed⟩
  | tail _ hnext ih => exact ⟨hstep _ _ ih.1 ih.2 hnext.1 hnext.2, hnext.2⟩

/-! ## Counting over all tasks -/

/-- Only finitely many tasks count. -/
def FewCount (count : ω → Nat) (crew : Crew ε σ ω) : Prop :=
  (Function.support fun task => count (crew.own task)).Finite

/-- What all tasks together count. -/
noncomputable def total (count : ω → Nat) (crew : Crew ε σ ω) : Nat :=
  ∑ᶠ task, count (crew.own task)

section Sums

variable {M : Type} {part : ω → M} {crew : Crew ε σ ω}

theorem own_leave_eq_update (part : ω → M) (crew : Crew ε σ ω) (task : TaskId) (shared : σ)
    (activity : Activity ε σ ω) :
    (fun other => part ((crew.leave task shared activity).own other)) =
      Function.update (fun other => part (crew.own other)) task (part activity.own) := by
  funext other
  rw [leave_own, Function.update_apply]
  split <;> rfl

/-- When few tasks own something, a step of one task leaves few tasks that do. -/
theorem support_leave_finite [Zero M]
    (hfew : (Function.support fun task => part (crew.own task)).Finite) (task : TaskId)
    (shared : σ) (activity : Activity ε σ ω) :
    (Function.support fun other => part ((crew.leave task shared activity).own other)).Finite := by
  rw [own_leave_eq_update]
  refine (hfew.insert task).subset fun other hother => ?_
  by_cases htask : other = task
  · exact Or.inl htask
  · simpa [htask] using hother

/-- A turn changes a sum over all tasks by what it changes for its own task. -/
theorem finsum_leave [AddCommMonoid M]
    (hfew : (Function.support fun task => part (crew.own task)).Finite) (task : TaskId)
    (shared : σ) (activity : Activity ε σ ω) :
    ∑ᶠ other, part ((crew.leave task shared activity).own other) + part (crew.own task) =
      ∑ᶠ other, part (crew.own other) + part activity.own := by
  have hcounts : ∀ other, part (crew.own other) ≠ 0 → other ∈ hfew.toFinset :=
    fun other hother => hfew.mem_toFinset.2 hother
  have hbefore : (Function.support fun other => part (crew.own other)) ⊆
      ↑(insert task hfew.toFinset) :=
    fun other hother => Finset.mem_insert_of_mem (hcounts other hother)
  have hafter : (Function.support fun other =>
      part ((crew.leave task shared activity).own other)) ⊆ ↑(insert task hfew.toFinset) := by
    rw [own_leave_eq_update]
    intro other hother
    by_cases htask : other = task
    · simp [htask]
    · rw [Function.mem_support, Function.update_of_ne htask] at hother
      exact Finset.mem_insert_of_mem (hcounts other hother)
  rw [finsum_eq_sum_of_support_subset _ hbefore, finsum_eq_sum_of_support_subset _ hafter,
    own_leave_eq_update, Finset.sum_update_of_mem (Finset.mem_insert_self _ _),
    Finset.sum_eq_add_sum_sdiff_singleton_of_mem (Finset.mem_insert_self task _), add_right_comm,
    add_comm (part activity.own) (part (crew.own task)), add_right_comm]

end Sums

/-- A count that few tasks have stays one that few tasks have. -/
theorem FewCount.leave {count : ω → Nat} {crew : Crew ε σ ω} (hfew : crew.FewCount count)
    (task : TaskId) (shared : σ) (activity : Activity ε σ ω) :
    (crew.leave task shared activity).FewCount count :=
  support_leave_finite hfew task shared activity

/-- A turn changes what all tasks count by what it changes for its own task. -/
theorem total_leave {count : ω → Nat} {crew : Crew ε σ ω} (hfew : crew.FewCount count)
    (task : TaskId) (shared : σ) (activity : Activity ε σ ω) :
    (crew.leave task shared activity).total count + count (crew.own task) =
      crew.total count + count activity.own :=
  finsum_leave hfew task shared activity

/-- A total depends only on what each task counts. -/
theorem total_congr {count : ω → Nat} {crew next : Crew ε σ ω}
    (hsame : ∀ task, count (next.own task) = count (crew.own task)) :
    next.total count = crew.total count :=
  finsum_congr hsame

/-- At the start no task counts anything. -/
theorem fewCount_start {count : ω → Nat} (shared : σ) {own : ω} (hown : count own = 0) :
    (start shared own : Crew ε σ ω).FewCount count := by
  apply Set.Finite.subset Set.finite_empty
  intro task htask
  exact absurd hown htask

theorem total_start (count : ω → Nat) (shared : σ) {own : ω} (hown : count own = 0) :
    (start shared own : Crew ε σ ω).total count = 0 := by
  simp [total, start, Crew.own, Activity.own, hown]

/-- What one task counts is part of the total. -/
theorem le_total {count : ω → Nat} {crew : Crew ε σ ω} (hfew : crew.FewCount count)
    (task : TaskId) : count (crew.own task) ≤ crew.total count :=
  single_le_finsum task hfew fun _ => Nat.zero_le _

/-- What two tasks count together is part of the total. -/
theorem add_le_total {count : ω → Nat} {crew : Crew ε σ ω} (hfew : crew.FewCount count)
    {task other : TaskId} (hne : task ≠ other) :
    count (crew.own task) + count (crew.own other) ≤ crew.total count := by
  have hsupport : (Function.support fun task => count (crew.own task)) ⊆
      ↑(({task, other} : Finset TaskId) ∪ hfew.toFinset) :=
    fun some hsome => Finset.mem_union_right _ (hfew.mem_toFinset.2 hsome)
  rw [total, finsum_eq_sum_of_support_subset _ hsupport,
    ← Finset.sum_pair (f := fun task => count (crew.own task)) hne]
  exact Finset.sum_le_sum_of_subset Finset.subset_union_left

/-- A positive total is due to some task. -/
theorem exists_of_total_pos {count : ω → Nat} {crew : Crew ε σ ω}
    (hpositive : 0 < crew.total count) : ∃ task, 0 < count (crew.own task) := by
  by_contra hnone
  have hzero : crew.total count = 0 := by
    apply finsum_eq_zero_of_forall_eq_zero
    intro task
    by_contra hcounts
    exact hnone ⟨task, Nat.pos_of_ne_zero hcounts⟩
  omega

end Crew

end DriverHost
