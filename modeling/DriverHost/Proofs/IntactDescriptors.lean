import DriverHost.Proofs.Crew
import DriverHost.Proofs.DescriptorBlocks

/-!
# Page lists stay intact

Any number of tasks describe buffers, complete transfers, and take plain and cleared blocks of one
heap, in any order and with any other code running between their turns.  The heap never takes a
block back, so every page list keeps a block of its own, also while its description still waits
for a fragment.  Whatever a turn writes is in the block of the page list it works on, in a block
that the heap gave out just then, or in the buffer of the transfer it completes.  What was read
from a page list when it was returned can therefore be read from it ever after.

Main results:

- Structure `Kept`: a page list with what was read from it when it was returned.
- Relation `HeapUsers.Step`: a turn of any task on any core, or other code.
- Structure `Apportioned`: page lists in blocks of their own, with one lemma for each kind of
  write.
- Theorem `HeapUsers.Tidy.step`: every step keeps the page lists in their blocks.
- Theorem `HeapUsers.descriptors_stay_intact`: a description writes to its own block, and every
  page list that was returned still has its kind and its runs.
-/

namespace DriverHost

variable {ε η κ : Type}

/-! ## Page lists that were returned -/

/-- A page list with what was read from it in the turn that returned it. -/
structure Kept where
  list : PageList
  kind : UInt16
  runs : List PageRun

namespace Kept

/-- What is read from a page list now. -/
def read (list : PageList) (memory : Memory) : Kept where
  list
  kind := list.kind memory
  runs := list.runs memory

/-- The page list still has the kind and the runs that it had. -/
def Intact (kept : Kept) (memory : Memory) : Prop :=
  kept.list.kind memory = kept.kind ∧ kept.list.runs memory = kept.runs

/-- A page list is intact in the memory that it has just been read from. -/
theorem intact_read (list : PageList) (memory : Memory) : (read list memory).Intact memory :=
  ⟨rfl, rfl⟩

/-- A page list stays intact as long as nothing is written to its block. -/
theorem Intact.keep {kept : Kept} {before after : Memory} (hintact : kept.Intact before)
    (hfew : kept.list.runCount ≤ kept.list.pages)
    (hagree : Memory.AgreeOn before after kept.list.descriptor kept.list.blockSize) :
    kept.Intact after :=
  ⟨(PageList.kind_congr hagree).trans hintact.1,
    (PageList.runs_congr hfew hagree).trans hintact.2⟩

end Kept

/-! ## Blocks -/

/-- The blocks of two page lists do not overlap. -/
def PageList.Apart (first second : PageList) : Prop :=
  Memory.Apart first.descriptor first.blockSize second.descriptor second.blockSize

/-- The block of a page list lies below the heap's cursor. -/
def PageList.Below (list : PageList) (heap : Bump) : Prop :=
  list.descriptor.toNat + list.blockSize ≤ heap.next.toNat

/-- Every page list that was returned, and every one whose description still waits for a
fragment, has a block that the heap gave out, and what waits may write to its own block without
touching another. -/
structure Apportioned (pending : TaskId → Option PageList) (own : TaskId → List Kept)
    (heap : Bump) (memory : Memory) : Prop where
  kept_below : ∀ task, ∀ kept ∈ own task, kept.list.Below heap
  pending_below : ∀ task laid, pending task = some laid → laid.Below heap
  kept_apart : ∀ task other laid, pending task = some laid → ∀ kept ∈ own other,
    laid.Apart kept.list
  pending_apart : ∀ task other laid second, task ≠ other → pending task = some laid →
    pending other = some second → laid.Apart second
  sound : ∀ task, ∀ kept ∈ own task, kept.list.Sound
  intact : ∀ task, ∀ kept ∈ own task, kept.Intact memory

namespace Apportioned

variable {pending : TaskId → Option PageList} {own : TaskId → List Kept} {heap later : Bump}
  {memory after : Memory} {task : TaskId} {laid : PageList}

/-- Nothing is apportioned at the beginning. -/
theorem nothing (heap : Bump) (memory : Memory) :
    Apportioned (fun _ => none) (fun _ => []) heap memory := by
  refine ⟨?_, ?_, ?_, ?_, ?_, ?_⟩ <;> simp

/-- The heap gives out more blocks, and nothing writes to the page lists that were returned. -/
theorem keep (happortioned : Apportioned pending own heap memory)
    (hheap : heap.next.toNat ≤ later.next.toNat)
    (hkeeps : ∀ task, ∀ kept ∈ own task,
      Memory.AgreeOn memory after kept.list.descriptor kept.list.blockSize) :
    Apportioned pending own later after where
  kept_below task kept hkept := (happortioned.kept_below task kept hkept).trans hheap
  pending_below task laid hlaid := (happortioned.pending_below task laid hlaid).trans hheap
  kept_apart := happortioned.kept_apart
  pending_apart := happortioned.pending_apart
  sound := happortioned.sound
  intact task kept hkept := (happortioned.intact task kept hkept).keep
    (happortioned.sound task kept hkept).few (hkeeps task kept hkept)

/-- A write to a block apart from all page lists that were returned. -/
theorem write {start : UInt64} {size : Nat} (happortioned : Apportioned pending own heap memory)
    (hsame : Memory.SameOutside start size memory after)
    (hapart : ∀ task, ∀ kept ∈ own task,
      Memory.Apart start size kept.list.descriptor kept.list.blockSize) :
    Apportioned pending own heap after := by
  refine happortioned.keep (Nat.le_refl _) fun task kept hkept => ?_
  have hbelow := happortioned.kept_below task kept hkept
  have htop := heap.next.toNat_lt
  rw [PageList.Below] at hbelow
  exact hsame.agreeOn (hapart task kept hkept) (by omega)

/-- A write to the block of a page list whose description waits. -/
theorem write_pending (happortioned : Apportioned pending own heap memory)
    (hpending : pending task = some laid)
    (hsame : Memory.SameOutside laid.descriptor laid.blockSize memory after) :
    Apportioned pending own heap after :=
  happortioned.write hsame fun other kept hkept =>
    happortioned.kept_apart task other laid hpending kept hkept

/-- A write to a block that the heap gave out just now. -/
theorem write_new {start : UInt64} {size : Nat}
    (happortioned : Apportioned pending own heap memory)
    (habove : heap.next.toNat ≤ start.toNat) (hbelow : start.toNat + size ≤ later.next.toNat)
    (hsame : Memory.SameOutside start size memory after) :
    Apportioned pending own later after := by
  have htop := later.next.toNat_lt
  refine (happortioned.write hsame fun task kept hkept => Memory.Apart.symm ?_).keep
    (by omega) fun _ _ _ => .refl _ _ _
  have hold := happortioned.kept_below task kept hkept
  rw [PageList.Below] at hold
  exact .of_le (by omega) (by omega)

/-- Who waits after one task's page list was replaced: that task, or another that did before. -/
theorem waits_update {value : Option PageList} {other : TaskId}
    (hwaits : Function.update pending task value other = some laid) :
    other = task ∧ value = some laid ∨ other ≠ task ∧ pending other = some laid := by
  by_cases hother : other = task
  · subst hother
    rw [Function.update_self] at hwaits
    exact Or.inl ⟨rfl, hwaits⟩
  · rw [Function.update_of_ne hother] at hwaits
    exact Or.inr ⟨hother, hwaits⟩

/-- A page list that was laid out in a new block waits for its fragment. -/
theorem lay (happortioned : Apportioned pending own heap memory)
    (habove : heap.next.toNat ≤ laid.descriptor.toNat) (hbelow : laid.Below later) :
    Apportioned (Function.update pending task (some laid)) own later memory := by
  have htop := later.next.toNat_lt
  have hnew : ∀ list : PageList, list.Below heap → list.Apart laid := by
    intro list hlist
    rw [PageList.Below] at hlist hbelow
    exact .of_le (by omega) (by omega)
  have hgrown : Apportioned pending own later memory := by
    rw [PageList.Below] at hbelow
    exact happortioned.keep (by omega) fun _ _ _ => .refl _ _ _
  refine ⟨hgrown.kept_below, ?_, ?_, ?_, hgrown.sound, hgrown.intact⟩
  · intro other second hsecond
    rcases waits_update hsecond with ⟨-, hlaid⟩ | ⟨-, hold⟩
    · cases hlaid
      exact hbelow
    · exact hgrown.pending_below other second hold
  · intro other third second hsecond kept hkept
    rcases waits_update hsecond with ⟨-, hlaid⟩ | ⟨-, hold⟩
    · cases hlaid
      exact (hnew kept.list (happortioned.kept_below third kept hkept)).symm
    · exact happortioned.kept_apart other third second hold kept hkept
  · intro one other first second hne hfirst hsecond
    rcases waits_update hfirst with ⟨rfl, hlaid⟩ | ⟨-, hone⟩
    · cases hlaid
      rcases waits_update hsecond with ⟨rfl, -⟩ | ⟨-, hother⟩
      · exact absurd rfl hne
      · exact (hnew second (happortioned.pending_below other second hother)).symm
    · rcases waits_update hsecond with ⟨-, hlaid⟩ | ⟨-, hother⟩
      · cases hlaid
        exact hnew first (happortioned.pending_below one first hone)
      · exact happortioned.pending_apart one other first second hne hone hother

/-- A description that is over waits no longer. -/
theorem drop (happortioned : Apportioned pending own heap memory) (task : TaskId) :
    Apportioned (Function.update pending task none) own heap memory := by
  have hwaited : ∀ other laid, Function.update pending task none other = some laid →
      pending other = some laid := by
    intro other laid hlaid
    rcases waits_update hlaid with ⟨-, hnone⟩ | ⟨-, hold⟩
    · cases hnone
    · exact hold
  exact ⟨happortioned.kept_below,
    fun other laid hlaid => happortioned.pending_below other laid (hwaited other laid hlaid),
    fun other third laid hlaid => happortioned.kept_apart other third laid
      (hwaited other laid hlaid),
    fun one other laid second hne hlaid hsecond => happortioned.pending_apart one other laid
      second hne (hwaited one laid hlaid) (hwaited other second hsecond),
    happortioned.sound, happortioned.intact⟩

/-- A page list that is returned keeps the block in which it waited. -/
theorem store (happortioned : Apportioned pending own heap memory)
    (hpending : pending task = some laid) (hsound : laid.Sound) (fragment : Option Nat) :
    Apportioned (Function.update pending task none)
      (Function.update own task (Kept.read { laid with fragment } memory :: own task)) heap
      memory := by
  have hdropped := happortioned.drop task
  have hmem : ∀ other kept,
      kept ∈ Function.update own task (Kept.read { laid with fragment } memory :: own task)
        other → kept ∈ own other ∨ kept = Kept.read { laid with fragment } memory := by
    intro other kept hkept
    rw [Function.update_apply] at hkept
    split at hkept
    · next hother =>
      rw [hother]
      exact (List.mem_cons.1 hkept).symm
    · exact Or.inl hkept
  refine ⟨?_, hdropped.pending_below, ?_, hdropped.pending_apart, ?_, ?_⟩
  · intro other kept hkept
    rcases hmem other kept hkept with hold | rfl
    · exact happortioned.kept_below other kept hold
    · exact happortioned.pending_below task laid hpending
  · intro one other second hsecond kept hkept
    rcases hmem other kept hkept with hold | rfl
    · exact hdropped.kept_apart one other second hsecond kept hold
    · rcases waits_update hsecond with ⟨-, hnone⟩ | ⟨hone, hwaits⟩
      · cases hnone
      · exact happortioned.pending_apart one task second laid hone hwaits hpending
  · intro other kept hkept
    rcases hmem other kept hkept with hold | rfl
    · exact happortioned.sound other kept hold
    · exact ⟨hsound.few, hsound.offset, hsound.fits⟩
  · intro other kept hkept
    rcases hmem other kept hkept with hold | rfl
    · exact happortioned.intact other kept hold
    · exact Kept.intact_read _ _

end Apportioned

/-! ## Users of the heap -/

/-- Tasks that use the heap, each with the page lists that were returned to it, and the kernel
they share. -/
abbrev HeapUsers (ε η κ : Type) : Type 1 :=
  Crew ε (Kernel η κ) (List Kept)

namespace HeapUsers

/-- Read a page list that is returned, in the same turn. -/
def note (own : List Kept) :
    Except PageListError PageList → Coroutine ε (Kernel η κ) (List Kept)
  | .error _ => .done own
  | .ok list => .survey fun _ kernel => Kept.read list kernel.board.device :: own

/-- The calls that a task may begin: it describes any buffer under any translation, completes any
transfer whose page list was returned and whose buffer overlaps no page list, with no more bytes
reported than the buffer has, or takes or gives back a block of the heap.  Where the fragments lie
does not matter, since they are only read. -/
inductive Begins (crew : HeapUsers ε η κ) (own : List Kept) :
    Coroutine ε (Kernel η κ) (List Kept) → Prop
  | describes (busOf : UInt64 → UInt32) (buffer length : UInt64) (direction : Direction) :
      Begins crew own (((PageList.create busOf buffer length direction).zoom
        Kernel.transferView).bind (note own))
  | completes {holder kept actual} (hkept : kept ∈ crew.own holder)
      (hcount : Int32.toInt actual ≤ kept.list.length.toNat)
      (hclear : ∀ task, ∀ other ∈ crew.own task,
        Memory.Apart kept.list.buffer kept.list.length.toNat other.list.descriptor
          other.list.blockSize) :
      Begins crew own (((PageList.finish kept.list actual).zoom Kernel.transferView).bind
        fun _ => .done own)
  | allocates (size : UInt64) :
      Begins crew own ((Coroutine.act (Kernel.allocate size)).bind fun _ => .done own)
  | clears (size : UInt64) :
      Begins crew own ((Coroutine.act (Kernel.allocateZeroed size)).bind fun _ => .done own)
  | frees : Begins crew own (.done own)

/-- The code that a task may run in its next turn: the rest of its call, or a new one. -/
inductive Offers (crew : HeapUsers ε η κ) :
    Activity ε (Kernel η κ) (List Kept) → Coroutine ε (Kernel η κ) (List Kept) → Prop
  | begins {own code} (hbegins : Begins crew own code) : Offers crew (.idle own) code
  | continues {own rest} : Offers crew (.calling own rest) rest

/-- Other code and the devices do not write to page lists, and take blocks of the heap at
most. -/
structure Elsewhere (crew next : HeapUsers ε η κ) : Prop where
  activity : next.activity = crew.activity
  heap : crew.shared.heap.next.toNat ≤ next.shared.heap.next.toNat
  keeps : ∀ task, ∀ kept ∈ crew.own task, Memory.AgreeOn crew.shared.board.device
    next.shared.board.device kept.list.descriptor kept.list.blockSize

/-- One turn of any task on any core, or other code. -/
inductive Step (host : Host ε (Kernel η κ)) : HeapUsers ε η κ → HeapUsers ε η κ → Prop
  /-- The turn ends the task's call. -/
  | returned {crew : HeapUsers ε η κ} {task code machine own last}
      (hoffers : Offers crew (crew.activity task) code) (hshared : machine.shared = crew.shared)
      (hturn : code.turn host machine = .returned own last) :
      Step host crew (crew.leave task last.shared (.idle own))
  /-- The task gives the processor up in its call. -/
  | yielded {crew : HeapUsers ε η κ} {task code machine rest last}
      (hoffers : Offers crew (crew.activity task) code) (hshared : machine.shared = crew.shared)
      (hturn : code.turn host machine = .yielded rest last) :
      Step host crew (crew.leave task last.shared (.calling (crew.own task) rest))
  /-- Other code runs. -/
  | elsewhere {crew next : HeapUsers ε η κ} (helsewhere : Elsewhere crew next) :
      Step host crew next

/-- What any number of steps lead to. -/
def Run (host : Host ε (Kernel η κ)) : HeapUsers ε η κ → HeapUsers ε η κ → Prop :=
  Relation.ReflTransGen (Step host)

/-! ## What every step keeps -/

/-- What is left of a call in progress, with the page list that it is to return: the wait of a
description, or a transfer that gives its fragment back. -/
inductive Stage : Option PageList → Activity ε (Kernel η κ) (List Kept) → Prop
  | idle {own} : Stage none (.idle own)
  | waiting {own laid pooled} (hsound : laid.Sound) (hpooled : pooled.Within fun _ _ => True) :
      Stage (some laid) (.calling own
        (((PageList.heading laid pooled).zoom Kernel.transferView).bind (note own)))
  | returning {own} {pooled : Coroutine ε FragmentPool Unit}
      (hpooled : pooled.Within fun _ _ => True) :
      Stage none (.calling own (((pooled.zoom TransferState.fragmentView).zoom
        Kernel.transferView).bind fun _ => .done own))

/-- Page lists have blocks of their own, and calls in progress are such that they stay so. -/
structure Tidy (pending : TaskId → Option PageList) (crew : HeapUsers ε η κ) : Prop where
  apportioned : Apportioned pending crew.own crew.shared.heap crew.shared.board.device
  stages : ∀ task, Stage (pending task) (crew.activity task)

/-- A turn meets a fault or leaves everything tidy. -/
inductive Outcome (crew : HeapUsers ε η κ) (task : TaskId) :
    Turn ε (Kernel η κ) (List Kept) → Prop
  | failed {cause last} : Outcome crew task (.failed cause last)
  | yielded {rest last pending}
      (htidy : Tidy pending (crew.leave task last.shared (.calling (crew.own task) rest))) :
      Outcome crew task (.yielded rest last)
  | returned {own last pending} (htidy : Tidy pending (crew.leave task last.shared (.idle own))) :
      Outcome crew task (.returned own last)

namespace Tidy

variable {pending : TaskId → Option PageList} {crew : HeapUsers ε η κ} {task : TaskId}
  {laid : PageList} {host : Host ε (Kernel η κ)} {machine : Machine ε (Kernel η κ)}

/-- What a task leaves is what it owns, and the others own what they did. -/
theorem own_leave (crew : HeapUsers ε η κ) (task : TaskId) (shared : Kernel η κ)
    (activity : Activity ε (Kernel η κ) (List Kept)) :
    (crew.leave task shared activity).own = Function.update crew.own task activity.own :=
  Crew.own_leave_eq_update (fun own => own) crew task shared activity

/-- A turn leaves everything tidy if it leaves the page lists in blocks of their own and its own
call at a stage. -/
theorem leave (htidy : Tidy pending crew) {shared : Kernel η κ} {value : Option PageList}
    {activity : Activity ε (Kernel η κ) (List Kept)}
    (happortioned : Apportioned (Function.update pending task value)
      (Function.update crew.own task activity.own) shared.heap shared.board.device)
    (hstage : Stage value activity) :
    Tidy (Function.update pending task value) (crew.leave task shared activity) := by
  refine ⟨?_, fun other => ?_⟩
  · rw [own_leave]
    exact happortioned
  · rw [Crew.leave_activity, Function.update_apply]
    by_cases hother : other = task
    · rw [if_pos hother, if_pos hother]
      exact hstage
    · rw [if_neg hother, if_neg hother]
      exact htidy.stages other

/-- A call that is over leaves everything tidy. -/
theorem outcome_idle (htidy : Tidy pending crew) {last : Machine ε (Kernel η κ)}
    (happortioned : Apportioned pending crew.own last.shared.heap last.shared.board.device) :
    Outcome crew task (.returned (crew.own task) last) := by
  refine .returned (htidy.leave ?_ .idle)
  rw [Activity.own, Function.update_eq_self]
  exact happortioned.drop task

/-- A description whose page list is laid out waits on, or stores its page list. -/
theorem outcome_of_heads (htidy : Tidy pending crew) (hsound : laid.Sound)
    {reached : Machine ε TransferState}
    {turn : Turn ε TransferState (Except PageListError PageList)}
    (hheads : PageList.Heads laid reached turn)
    (happortioned : Apportioned (Function.update pending task (some laid)) crew.own
      reached.shared.heap reached.shared.memory) :
    Outcome crew task (Coroutine.carryOn host (note (crew.own task))
      (Coroutine.Turn.onWhole Kernel.transferView machine turn)) := by
  have hwaits := Function.update_self task (some laid) pending
  cases hheads with
  | failed => exact .failed
  | @waits pooled last hpooled hmemory hheap =>
    refine .yielded (htidy.leave ?_ (.waiting hsound hpooled))
    rw [Activity.own, Function.update_eq_self]
    rw [← hmemory, ← hheap] at happortioned
    exact happortioned
  | @headed fragment last hmemory hheap =>
    have hheader := PageList.sameOutside_storeHeader reached.shared.memory laid.descriptor
      laid.length.toUInt32 (PageList.kindOf laid.direction fragment) laid.offset.toUInt16
    have hinside : 8 ≤ laid.blockSize := by
      rw [PageList.blockSize]
      omega
    have hstored := (happortioned.write_pending hwaits (hheader.mono hinside)).store hwaits
      hsound fragment
    rw [Function.update_idem, ← hmemory, ← hheap] at hstored
    exact .returned (htidy.leave hstored .idle)

/-- A transfer that gives its fragment back goes on with that, or is over. -/
theorem outcome_of_onPool (htidy : Tidy pending crew) {reached : Machine ε TransferState}
    {turn : Turn ε TransferState Unit} (hpool : PageList.OnPool reached turn)
    (happortioned : Apportioned pending crew.own reached.shared.heap reached.shared.memory) :
    Outcome crew task (Coroutine.carryOn host (fun _ => .done (crew.own task))
      (Coroutine.Turn.onWhole Kernel.transferView machine turn)) := by
  cases hpool with
  | failed => exact .failed
  | @returned value last hmemory hheap =>
    rw [← hmemory, ← hheap] at happortioned
    exact htidy.outcome_idle happortioned
  | @yielded pooled last hpooled hmemory hheap =>
    rw [← hmemory, ← hheap] at happortioned
    refine .yielded (htidy.leave ?_ (.returning hpooled))
    rw [Activity.own, Function.update_eq_self]
    exact happortioned.drop task

/-! ### Calls that begin -/

/-- A turn that describes a buffer may add one page list and leaves all others intact. -/
theorem turn_describes (htidy : Tidy pending crew) (hshared : machine.shared = crew.shared)
    (busOf : UInt64 → UInt32) (buffer length : UInt64) (direction : Direction) :
    Outcome crew task ((((PageList.create busOf buffer length direction).zoom
      Kernel.transferView).bind (note (crew.own task))).turn host machine) := by
  have hbegin := htidy.apportioned
  rw [← hshared] at hbegin
  rw [Coroutine.turn_bind, Coroutine.turn_zoom Kernel.lawful_transferView PageList.within_create]
  rcases PageList.turn_create_owned (.still ε TransferState) busOf buffer length direction
      (machine.part Kernel.transferView) with
    ⟨cause, hturn⟩ | ⟨e, hturn⟩ | ⟨descriptor, after, hlaid, hheads⟩
  · rw [hturn]
    exact .failed
  · rw [hturn, Coroutine.Turn.onWhole, Machine.withPart_part Kernel.lawful_transferView]
    exact htidy.outcome_idle hbegin
  · refine htidy.outcome_of_heads hlaid.sound hheads ?_
    exact (hbegin.lay hlaid.above hlaid.below).write_pending (Function.update_self _ _ _)
      hlaid.outside

/-- A turn that completes a transfer writes to its buffer only, which lies apart from every page
list kept. -/
theorem turn_completes (htidy : Tidy pending crew) (hshared : machine.shared = crew.shared)
    {holder : TaskId} {kept : Kept} {actual : Int32} (hkept : kept ∈ crew.own holder)
    (hcount : actual.toInt ≤ kept.list.length.toNat)
    (hclear : ∀ task, ∀ other ∈ crew.own task,
      Memory.Apart kept.list.buffer kept.list.length.toNat other.list.descriptor
        other.list.blockSize) :
    Outcome crew task ((((PageList.finish kept.list actual).zoom Kernel.transferView).bind
      fun _ => .done (crew.own task)).turn host machine) := by
  have hbegin := htidy.apportioned
  rw [← hshared] at hbegin
  have hsound := hbegin.sound holder kept hkept
  obtain ⟨memory, hsame, hpool⟩ := PageList.onPool_turn_finish hsound hcount
    (.still ε TransferState) (machine.part Kernel.transferView)
  rw [Coroutine.turn_bind,
    Coroutine.turn_zoom Kernel.lawful_transferView (PageList.within_finish _ _)]
  exact htidy.outcome_of_onPool hpool (hbegin.write hsame hclear)

/-- A turn that takes a block from the heap writes nothing. -/
theorem turn_allocates (htidy : Tidy pending crew) (hshared : machine.shared = crew.shared)
    (size : UInt64) :
    Outcome crew task (((Coroutine.act (Kernel.allocate size)).bind
      fun _ => .done (crew.own task)).turn host machine) := by
  have hbegin := htidy.apportioned
  rw [← hshared] at hbegin
  rw [Coroutine.turn_bind, Coroutine.turn_act, Kernel.allocate]
  cases hallocate : Heap.allocate machine.shared.heap size with
  | error cause => exact .failed
  | ok answer =>
    cases answer with
    | error e => exact htidy.outcome_idle hbegin
    | ok block =>
      obtain ⟨start, heap⟩ := block
      obtain ⟨habove, hbelow⟩ := Heap.allocate_eq_ok hallocate
      have hgrows : machine.shared.heap.next.toNat ≤ heap.next.toNat := by omega
      exact htidy.outcome_idle (hbegin.keep hgrows fun _ _ _ => .refl _ _ _)

/-- A turn that takes a cleared block from the heap writes to a block that nobody has. -/
theorem turn_clears (htidy : Tidy pending crew) (hshared : machine.shared = crew.shared)
    (size : UInt64) :
    Outcome crew task (((Coroutine.act (Kernel.allocateZeroed size)).bind
      fun _ => .done (crew.own task)).turn host machine) := by
  have hbegin := htidy.apportioned
  rw [← hshared] at hbegin
  rw [Coroutine.turn_bind, Coroutine.turn_act, Kernel.allocateZeroed]
  cases hallocate : Heap.allocateZeroed machine.shared.heap machine.shared.board.device size with
  | error cause => exact .failed
  | ok answer =>
    cases answer with
    | error e => exact htidy.outcome_idle hbegin
    | ok block =>
      obtain ⟨start, heap, cleared⟩ := block
      obtain ⟨habove, hbelow, hsame⟩ := Heap.allocateZeroed_eq_ok hallocate
      exact htidy.outcome_idle (hbegin.write_new habove hbelow hsame)

/-! ### Every step -/

/-- A turn of any call meets a fault or leaves everything tidy. -/
theorem turn (htidy : Tidy pending crew) (hshared : machine.shared = crew.shared)
    {code : Coroutine ε (Kernel η κ) (List Kept)}
    (hoffers : Offers crew (crew.activity task) code) :
    Outcome crew task (code.turn host machine) := by
  have hstage := htidy.stages task
  generalize hactivity : crew.activity task = activity at hoffers hstage
  have hown : crew.own task = activity.own := congrArg Activity.own hactivity
  cases hoffers with
  | @begins own code hbegins =>
    obtain rfl : crew.own task = own := hown
    cases hbegins with
    | describes => exact htidy.turn_describes hshared _ _ _ _
    | completes hkept hcount hclear => exact htidy.turn_completes hshared hkept hcount hclear
    | allocates => exact htidy.turn_allocates hshared _
    | clears => exact htidy.turn_clears hshared _
    | frees =>
      have hbegin := htidy.apportioned
      rw [← hshared] at hbegin
      exact htidy.outcome_idle hbegin
  | @continues own rest =>
    obtain rfl : crew.own task = own := hown
    generalize hpending : pending task = value at hstage
    have hbegin := htidy.apportioned
    rw [← hshared] at hbegin
    cases hstage with
    | @waiting own laid pooled hsound hpooled =>
      rw [Coroutine.turn_bind,
        Coroutine.turn_zoom Kernel.lawful_transferView (PageList.within_heading hpooled)]
      refine htidy.outcome_of_heads hsound (PageList.heads_turn_heading hpooled _ _) ?_
      rw [← hpending, Function.update_eq_self]
      exact hbegin
    | @returning own pooled hpooled =>
      rw [Coroutine.turn_bind, Coroutine.turn_zoom Kernel.lawful_transferView
        (hpooled.zoom fun _ _ => trivial)]
      exact htidy.outcome_of_onPool (PageList.onPool_turn hpooled _ _) hbegin

/-- Every step keeps everything tidy. -/
theorem step (htidy : Tidy pending crew) {next : HeapUsers ε η κ} (hstep : Step host crew next) :
    ∃ pending, Tidy pending next := by
  cases hstep with
  | @returned task code machine own last hoffers hshared hturn =>
    have houtcome : Outcome crew task (code.turn host machine) := htidy.turn hshared hoffers
    rw [hturn] at houtcome
    cases houtcome with
    | returned hlater => exact ⟨_, hlater⟩
  | @yielded task code machine rest last hoffers hshared hturn =>
    have houtcome : Outcome crew task (code.turn host machine) := htidy.turn hshared hoffers
    rw [hturn] at houtcome
    cases houtcome with
    | yielded hlater => exact ⟨_, hlater⟩
  | elsewhere helsewhere =>
    have hsame : next.own = crew.own := by
      funext task
      rw [Crew.own, helsewhere.activity, Crew.own]
    refine ⟨pending, ?_, ?_⟩
    · rw [hsame]
      exact htidy.apportioned.keep helsewhere.heap helsewhere.keeps
    · rw [helsewhere.activity]
      exact htidy.stages

end Tidy

/-! ## Whole runs -/

/-- At the start nobody keeps a page list. -/
theorem tidy_begin {first : HeapUsers ε η κ} (hidle : ∀ task, first.activity task = .idle []) :
    Tidy (fun _ => none) first := by
  have hnothing : first.own = fun _ => [] := by
    funext task
    rw [Crew.own, hidle task, Activity.own]
  refine ⟨?_, fun task => ?_⟩
  · rw [hnothing]
    exact .nothing _ _
  · rw [hidle task]
    exact .idle

/-- Every run leaves everything tidy. -/
theorem Run.tidy {host : Host ε (Kernel η κ)} {first crew : HeapUsers ε η κ}
    (hrun : Run host first crew) (hbegin : ∃ pending, Tidy pending first) :
    ∃ pending, Tidy pending crew := by
  induction hrun with
  | refl => exact hbegin
  | tail _ hstep ih =>
    obtain ⟨pending, htidy⟩ := ih
    exact htidy.step hstep

/-- Every description writes to its own new block only, in every turn and whatever others do
between them.  In every run in which no buffer of a transfer that is completed overlaps a page
list, each page list that was returned has no more runs than pages and still has the kind and
the runs that were read from it then. -/
theorem descriptors_stay_intact (alone : Host ε TransferState) (host : Host ε (Kernel η κ)) :
    (∀ busOf buffer length direction machine,
      PageList.OwnsBlock alone busOf buffer length direction machine) ∧
    ∀ first crew : HeapUsers ε η κ, (∀ task, first.activity task = .idle []) →
      Run host first crew → ∀ task, ∀ kept ∈ crew.own task,
        kept.list.runCount ≤ kept.list.pages ∧ kept.Intact crew.shared.board.device := by
  refine ⟨PageList.create_owns_block alone, ?_⟩
  intro first crew hidle hrun task kept hkept
  obtain ⟨pending, htidy⟩ := hrun.tidy ⟨_, tidy_begin hidle⟩
  exact ⟨(htidy.apportioned.sound task kept hkept).few, htidy.apportioned.intact task kept hkept⟩

/-- A kernel with a heap and a pool of one fragment. -/
def nineKernel : Kernel Empty Unit where
  board := { device := Memory.zeroed }
  heap := Heap.ofRange 0x2000000 0x2100000
  interrupts := { base := 0x3f00b000 }
  platform := { fragments := PageList.oneFragment.fragments }
  outside := ()

/-- The page list of nine bytes across the end of a page, with the only fragment. -/
def keptNine : Kept where
  list := .describing busOfPhysical 0x2200ffc 9 .read 0x2000000 (some 0)
  kind := 2
  runs := [⟨0xc2200000, 2⟩]

set_option maxRecDepth 4000 in
/-- The page list of a read is intact after one task took a cleared block and another one
completed the read. -/
theorem descriptors_stay_intact_of_nine :
    ∃ crew : HeapUsers Empty Empty Unit,
      Run (Host.still Empty (Kernel Empty Unit)) (Crew.start nineKernel []) crew ∧
      keptNine ∈ crew.own 1 ∧ keptNine.Intact crew.shared.board.device := by
  let host := Host.still Empty (Kernel Empty Unit)
  have hturns : ∃ described cleared completed : Kernel Empty Unit,
      (((PageList.create busOfPhysical 0x2200ffc 9 .read).zoom Kernel.transferView).bind
        (note [])).turn host { shared := nineKernel } =
          .returned [keptNine] { shared := described } ∧
      ((Coroutine.act (Kernel.allocateZeroed 100)).bind fun _ => .done []).turn host
        { shared := described } = .returned ([] : List Kept) { shared := cleared } ∧
      (((PageList.finish keptNine.list 9).zoom Kernel.transferView).bind fun _ => .done []).turn
        host { shared := cleared } = .returned ([] : List Kept) { shared := completed } :=
    ⟨_, _, _, rfl, rfl, rfl⟩
  obtain ⟨described, cleared, completed, hdescribes, hclears, hcompletes⟩ := hturns
  let first : HeapUsers Empty Empty Unit := Crew.start nineKernel []
  let second := first.leave 1 described (.idle [keptNine])
  let third := second.leave 2 cleared (.idle [])
  let last := third.leave 3 completed (.idle [])
  have hown : ∀ task, ∀ other ∈ third.own task, other = keptNine := by
    intro task other hother
    simp only [third, second, Crew.leave_own, Activity.own] at hother
    split at hother
    · cases hother
    · split at hother
      · exact List.mem_singleton.1 hother
      · cases hother
  have hkept : keptNine ∈ third.own 1 := List.mem_singleton_self keptNine
  have hclear : ∀ task, ∀ other ∈ third.own task,
      Memory.Apart keptNine.list.buffer keptNine.list.length.toNat other.list.descriptor
        other.list.blockSize := by
    intro task other hother
    rw [hown task other hother]
    exact (Memory.Apart.of_le (by decide) (by decide)).symm
  have hfirst : Step host first second :=
    .returned (.begins (.describes busOfPhysical 0x2200ffc 9 .read)) rfl hdescribes
  have hsecond : Step host second third := .returned (.begins (.clears 100)) rfl hclears
  have hthird : Step host third last :=
    .returned (.begins (.completes hkept (by decide) hclear)) rfl hcompletes
  have hrun : Run host first last :=
    ((Relation.ReflTransGen.single hfirst).tail hsecond).tail hthird
  have hmem : keptNine ∈ last.own 1 := hkept
  have hall := (descriptors_stay_intact (Host.still Empty TransferState) host).2 first last
    (fun _ => rfl) hrun 1 keptNine hmem
  exact ⟨last, hrun, hmem, hall.2⟩

end HeapUsers

end DriverHost
