import DriverHost.Interrupt
import DriverHost.Proofs.Masks
import DriverHost.Proofs.PartOfState
import Mathlib.Data.List.Find

/-!
# Pending sources are serviced in order

The summary register says which of the two wide banks have a source pending, and holds the narrow
bank in its low byte.  While it says so truly, the source that the controller finds is the least of
all that are pending.  A handler that acknowledges its source removes just that one, so calling
`dispatch` as often as there are sources pending calls the handler of each of them once, from the
lowest number up.

Main results:

- Structure `PendingWords`: what the pending registers hold, with the sources that are pending.
- Theorem `InterruptController.pending_eq`: the least source that is pending is found.
- Theorem `PendingWords.sources_acknowledge`: acknowledging that source leaves the others.
- Theorem `Interrupts.pending_serviced_once`: every pending source is serviced once, in order.
-/

namespace DriverHost

variable {ε σ η δ : Type}

/-! ## The pending registers -/

/-- What the three pending registers hold. -/
structure PendingWords where
  /-- The sources beside the processor in the low byte, and a bit for each of the other banks. -/
  summary : UInt32
  first : UInt32
  second : UInt32
deriving DecidableEq

namespace PendingWords

/-- The words that the registers at an address hold. -/
def read [Bus δ] (base : UInt64) (device : δ) : PendingWords where
  summary := (Bus.load base device).1
  first := (Bus.load (base + 0x4) device).1
  second := (Bus.load (base + 0x8) device).1

/-- A source is pending. -/
def pends (words : PendingWords) (irq : Nat) : Bool :=
  if irq < 32 then words.first.toNat.testBit irq
  else if irq < 64 then words.second.toNat.testBit (irq - 32)
  else words.summary.toNat.testBit (irq - 64)

/-- The sources that are pending, from the lowest number up. -/
def sources (words : PendingWords) : List Nat :=
  (List.range InterruptController.sourceCount).filter words.pends

/-- The bit of a bank in the summary is set exactly while a source of the bank is pending. -/
structure Summarised (words : PendingWords) : Prop where
  first : words.summary.toNat.testBit 8 = true ↔ words.first ≠ 0
  second : words.summary.toNat.testBit 9 = true ↔ words.second ≠ 0

/-- A word with one of its bits cleared. -/
def clearBit (word : UInt32) (index : Nat) : UInt32 :=
  word &&& ~~~(1 <<< UInt32.ofNat index)

/-- The registers when a source is not pending any more, nor its bank if it was the last one. -/
def acknowledge (words : PendingWords) (irq : Nat) : PendingWords :=
  if irq < 32 then
    let first := clearBit words.first irq
    { words with first, summary := if first = 0 then clearBit words.summary 8 else words.summary }
  else if irq < 64 then
    let second := clearBit words.second (irq - 32)
    { words with second, summary := if second = 0 then clearBit words.summary 9 else words.summary }
  else { words with summary := clearBit words.summary (irq - 64) }

variable {words : PendingWords} {irq other : Nat}

/-- Clearing a bit of a word changes that bit alone. -/
theorem testBit_clearBit (word : UInt32) {index place : Nat} (hindex : index < 32)
    (hplace : place < 32) :
    (clearBit word index).toNat.testBit place =
      (word.toNat.testBit place && decide (place ≠ index)) :=
  testBit_and_not_oneBit word hindex hplace

theorem clearBit_zero (index : Nat) : clearBit 0 index = 0 := by
  simp [clearBit]

/-- The sources are those below the bound of the table that are pending. -/
theorem mem_sources : irq ∈ words.sources ↔ irq < 72 ∧ words.pends irq = true := by
  simp [sources, InterruptController.sourceCount]

/-- The sources are listed in ascending order, each once. -/
theorem pairwise_sources (words : PendingWords) : words.sources.Pairwise (· < ·) :=
  List.pairwise_lt_range.filter _

/-- Acknowledging a source takes it from those that are pending, and no other. -/
theorem pends_acknowledge (hirq : irq < 72) (hother : other < 72) :
    (words.acknowledge irq).pends other = (words.pends other && decide (other ≠ irq)) := by
  unfold acknowledge
  -- Only a source of the same bank shares the word that is written, and the low byte of the
  -- summary does not reach up to the bits of the banks.
  split
  · unfold pends
    grind [testBit_clearBit]
  · split
    · unfold pends
      grind [testBit_clearBit]
    · unfold pends
      grind [testBit_clearBit]

/-- The summary stays true when a source is acknowledged. -/
theorem Summarised.acknowledge (hsummarised : words.Summarised) (hirq : irq < 72) :
    (words.acknowledge irq).Summarised := by
  obtain ⟨hfirst, hsecond⟩ := hsummarised
  unfold PendingWords.acknowledge
  split
  · constructor
    · grind [testBit_clearBit, clearBit_zero]
    · grind [testBit_clearBit]
  · split
    · constructor
      · grind [testBit_clearBit]
      · grind [testBit_clearBit, clearBit_zero]
    · have hfirstBank : 8 ≠ irq - 64 := by omega
      have hsecondBank : 9 ≠ irq - 64 := by omega
      constructor
      · rw [testBit_clearBit _ (by omega) (by decide)]
        simp [hfirst, hfirstBank]
      · rw [testBit_clearBit _ (by omega) (by decide)]
        simp [hsecond, hsecondBank]

/-- When the least pending source is acknowledged, the others are pending in the same order. -/
theorem sources_acknowledge {rest : List Nat} (hsources : words.sources = irq :: rest) :
    (words.acknowledge irq).sources = rest := by
  have hirq : irq < 72 := (mem_sources.1 (hsources ▸ List.mem_cons_self)).1
  have hwithout : (words.acknowledge irq).sources =
      words.sources.filter fun other => decide (other ≠ irq) := by
    rw [sources, sources, List.filter_filter]
    apply List.filter_congr
    intro other hother
    rw [pends_acknowledge hirq (List.mem_range.1 hother), Bool.and_comm]
  have hbehind := pairwise_sources words
  rw [hsources, List.pairwise_cons] at hbehind
  rw [hwithout, hsources, List.filter_cons_of_neg (by simp), List.filter_eq_self]
  intro other hother
  have hlt := hbehind.1 other hother
  simp
  omega

/-- The least pending source is the lowest bit of the first bank with one. -/
theorem head?_sources (words : PendingWords) :
    words.sources.head? =
      ((lowestBit 32 words.first.toNat).or
        ((lowestBit 32 words.second.toNat).map (32 + ·))).or
      ((lowestBit 8 words.summary.toNat).map (64 + ·)) := by
  have hbanks : List.range InterruptController.sourceCount =
      List.range 32 ++ (List.range 32).map (32 + ·) ++ (List.range 8).map (64 + ·) := rfl
  have hfirst : (List.range 32).find? words.pends = lowestBit 32 words.first.toNat := by
    apply List.find?_congr
    intro irq hirq
    have hlt := List.mem_range.1 hirq
    simp [pends, hlt]
  have hsecond : (List.range 32).find? (words.pends ∘ (32 + ·)) =
      lowestBit 32 words.second.toNat := by
    apply List.find?_congr
    intro index hindex
    have hlt := List.mem_range.1 hindex
    have hhigh : 32 + index < 64 := by omega
    simp [pends, hhigh]
  have hlow : (List.range 8).find? (words.pends ∘ (64 + ·)) =
      lowestBit 8 words.summary.toNat := by
    apply List.find?_congr
    intro index _
    have hfar : ¬ 64 + index < 32 := by omega
    simp [pends, hfar]
  rw [sources, List.head?_filter, hbanks, List.find?_append, List.find?_append, List.find?_map,
    List.find?_map, hfirst, hsecond, hlow]

end PendingWords

/-! ## The source that is found -/

/-- The lowest bit that is found lies within the width of the search. -/
theorem lowestBit_eq_some {width n index : Nat} (hlowest : lowestBit width n = some index) :
    index < width :=
  List.mem_range.1 (List.mem_of_find?_eq_some hlowest)

theorem lowestBit_zero (width : Nat) : lowestBit width 0 = none := by
  simp [lowestBit]

namespace InterruptController

variable [Bus δ] {controller : InterruptController η} {device : δ}

/-- Looking at the pending registers changes nothing. -/
structure Quiet (δ : Type) [Bus δ] (base : UInt64) : Prop where
  summary : ∀ device : δ, (Bus.load base device).2 = device
  first : ∀ device : δ, (Bus.load (base + 0x4) device).2 = device
  second : ∀ device : δ, (Bus.load (base + 0x8) device).2 = device

/-- Whatever the registers hold, the source that is found has a place in the table. -/
theorem pending_lt {irq : Nat} (hpending : (controller.pending device).1 = some irq) :
    irq < sourceCount := by
  have hbank : ∀ summary bank (given : δ) found,
      (controller.bankSource summary bank given).1 = some found → found < 32 * bank + 32 := by
    intro summary bank given found hfound
    unfold bankSource at hfound
    split at hfound
    · obtain ⟨index, hlowest, rfl⟩ := Option.map_eq_some_iff.1 hfound
      have hlt := lowestBit_eq_some hlowest
      omega
    · cases hfound
  simp only [pending] at hpending
  simp only [sourceCount]
  split at hpending
  · next found left hfirst =>
    cases hpending
    have hlt := hbank _ 0 _ irq (congrArg Prod.fst hfirst)
    omega
  · split at hpending
    · next found left hsecond =>
      cases hpending
      have hlt := hbank _ 1 _ irq (congrArg Prod.fst hsecond)
      omega
    · obtain ⟨index, hlowest, rfl⟩ := Option.map_eq_some_iff.1 hpending
      have hlt := lowestBit_eq_some hlowest
      omega

/-- A bank is looked up in its word, and a bank that the summary does not name has nothing
pending. -/
theorem bankSource_eq {summary word : UInt32} {bank : Nat}
    (hload : Bus.load (controller.base + 4 + 4 * UInt64.ofNat bank) device = (word, device))
    (hsummary : summary.toNat.testBit (8 + bank) = true ↔ word ≠ 0) :
    controller.bankSource summary bank device =
      ((lowestBit 32 word.toNat).map (32 * bank + ·), device) := by
  unfold bankSource
  by_cases hbit : summary.toNat.testBit (8 + bank) = true
  · rw [if_pos hbit, hload]
  · have hzero : word = 0 := by simpa [hbit] using hsummary
    rw [if_neg hbit, hzero]
    simp [lowestBit_zero]

/-- The least source that is pending is found. -/
theorem pending_eq (hquiet : Quiet δ controller.base)
    (hsummarised : (PendingWords.read controller.base device).Summarised) :
    controller.pending device =
      ((PendingWords.read controller.base device).sources.head?, device) := by
  have hsummaryLoad : Bus.load controller.base device =
      ((PendingWords.read controller.base device).summary, device) :=
    Prod.ext rfl (hquiet.summary device)
  have hfirstLoad : Bus.load (controller.base + 4 + 4 * UInt64.ofNat 0) device =
      ((PendingWords.read controller.base device).first, device) := by
    rw [UInt64.add_assoc]
    exact Prod.ext rfl (hquiet.first device)
  have hsecondLoad : Bus.load (controller.base + 4 + 4 * UInt64.ofNat 1) device =
      ((PendingWords.read controller.base device).second, device) := by
    rw [UInt64.add_assoc]
    exact Prod.ext rfl (hquiet.second device)
  unfold pending
  rw [hsummaryLoad, PendingWords.head?_sources]
  simp only
  rw [bankSource_eq hfirstLoad hsummarised.first]
  cases lowestBit 32 (PendingWords.read controller.base device).first.toNat with
  | some index => simp
  | none =>
    simp only [Option.map_none]
    rw [bankSource_eq hsecondLoad hsummarised.second]
    cases lowestBit 32 (PendingWords.read controller.base device).second.toNat with
    | some index => simp
    | none => simp

end InterruptController

/-! ## Service -/

namespace Interrupts

open InterruptController

variable [Bus δ]

/-- The words in the pending registers of the controller. -/
def words (interrupts : Interrupts η δ) : PendingWords :=
  .read interrupts.controller.base interrupts.board.device

/-- Let the handler of a source service it, and report an interrupt that it did not claim. -/
def callHandler (view : Coroutine.View σ (Interrupts η δ)) (serve : η → Coroutine ε σ IrqReturn)
    (irq : Nat) (descriptor : IrqDescriptor η) : Coroutine ε σ (Option Nat) := do
  match ← serve descriptor.handler with
  | .handled => return some irq
  | .unclaimed =>
      Coroutine.act (view.lift fun interrupts =>
        .ok () (interrupts.log .debug
          ("IRQ " ++ toString irq ++ " not claimed by " ++ descriptor.name)))
      return some irq

/-- Call handlers one after the other, each of them once. -/
def callEach (view : Coroutine.View σ (Interrupts η δ)) (serve : η → Coroutine ε σ IrqReturn) :
    List (Nat × IrqDescriptor η) → Coroutine ε σ (List (Option Nat))
  | [] => return []
  | (irq, descriptor) :: rest => do
      let answer ← callHandler view serve irq descriptor
      let answers ← callEach view serve rest
      return answer :: answers

/-- Dispatch a number of times. -/
def dispatches (view : Coroutine.View σ (Interrupts η δ)) (serve : η → Coroutine ε σ IrqReturn) :
    Nat → Coroutine ε σ (List (Option Nat))
  | 0 => return []
  | count + 1 => do
      let answer ← dispatch view serve
      let answers ← dispatches view serve count
      return answer :: answers

variable {view : Coroutine.View σ (Interrupts η δ)} {serve : η → Coroutine ε σ IrqReturn}
  {host : Host ε σ} {machine : Machine ε σ} {irq : Nat} {descriptor : IrqDescriptor η}

/-- Called while its source is pending at a controller, a handler returns within the turn, with
its source acknowledged and the controller's table as it was.  A handler that touches nothing else
does not give the processor up either. -/
def Acknowledges (host : Host ε σ) (view : Coroutine.View σ (Interrupts η δ))
    (serve : η → Coroutine ε σ IrqReturn) (controller : InterruptController η) (irq : Nat)
    (handler : η) : Prop :=
  ∀ machine : Machine ε σ, (view.get machine.shared).controller = controller →
    (view.get machine.shared).words.pends irq = true →
    (view.get machine.shared).words.Summarised →
    ∃ answer last, (serve handler).turn host machine = .returned answer last ∧
      (view.get last.shared).controller = controller ∧
      (view.get last.shared).words = (view.get machine.shared).words.acknowledge irq

/-- A record to which every call of a handler adds that handler, and nothing else adds. -/
structure Records (host : Host ε σ) (view : Coroutine.View σ (Interrupts η δ))
    (serve : η → Coroutine ε σ IrqReturn) (calls : σ → List η) : Prop where
  set : ∀ part whole, calls (view.set part whole) = calls whole
  serve : ∀ handler machine answer last, (serve handler).turn host machine =
    .returned answer last → calls last.shared = calls machine.shared ++ [handler]

/-- Looking for the source to service finds the least one that is pending, with its handler, and
changes nothing. -/
theorem turn_dispatch (hview : view.Lawful)
    (hquiet : Quiet δ (view.get machine.shared).controller.base)
    (hsummarised : (view.get machine.shared).words.Summarised) :
    (dispatch view serve).turn host machine =
      match (view.get machine.shared).words.sources with
      | [] => .returned none machine
      | irq :: _ =>
          match (view.get machine.shared).controller.handler irq with
          | some descriptor => (callHandler view serve irq descriptor).turn host machine
          | none => .returned none (machine.withShared (view.set
              ((view.get machine.shared).log .warning
                ("no handler for pending IRQ " ++ toString irq)) machine.shared)) := by
  have hpending : (view.get machine.shared).pending =
      ((view.get machine.shared).words.sources.head?, view.get machine.shared) := by
    rw [Interrupts.pending, pending_eq hquiet hsummarised]
    rfl
  unfold dispatch
  refine (Coroutine.turn_bind _ _ _).trans ?_
  rw [Coroutine.turn_act]
  simp only [Coroutine.View.lift, hpending]
  rw [hview.set_get, Machine.withShared_self]
  cases (view.get machine.shared).words.sources with
  | nil => rfl
  | cons irq rest =>
    simp only [List.head?_cons, Option.map_some, Coroutine.carryOn]
    cases (view.get machine.shared).controller.handler irq with
    | some descriptor => rfl
    | none =>
      refine (Coroutine.turn_bind _ _ _).trans ?_
      rw [Coroutine.turn_act]
      rfl

/-- A call of the handler of a pending source answers with the source, acknowledges it and leaves
the table as it was. -/
theorem turn_callHandler (hview : view.Lawful)
    (hacknowledges : Acknowledges host view serve (view.get machine.shared).controller irq
      descriptor.handler)
    (hpends : (view.get machine.shared).words.pends irq = true)
    (hsummarised : (view.get machine.shared).words.Summarised) :
    ∃ last, (callHandler view serve irq descriptor).turn host machine =
        .returned (some irq) last ∧
      (view.get last.shared).controller = (view.get machine.shared).controller ∧
      (view.get last.shared).words = (view.get machine.shared).words.acknowledge irq ∧
      ∀ calls, Records host view serve calls →
        calls last.shared = calls machine.shared ++ [descriptor.handler] := by
  obtain ⟨answer, served, hturn, hcontroller, hwords⟩ :=
    hacknowledges machine rfl hpends hsummarised
  have hcall : (callHandler view serve irq descriptor).turn host machine = _ :=
    Coroutine.turn_bind _ _ _
  rw [hturn, Coroutine.carryOn] at hcall
  cases answer with
  | handled =>
    exact ⟨served, hcall, hcontroller, hwords,
      fun calls hrecords => hrecords.serve _ _ _ _ hturn⟩
  | unclaimed =>
    -- The report goes to the console, where no register is.
    refine ⟨_, hcall.trans ((Coroutine.turn_bind _ _ _).trans (by
      rw [Coroutine.turn_act]
      rfl)), ?_, ?_, ?_⟩
    · simp only [Machine.withShared_shared, hview.get_set]
      exact hcontroller
    · simp only [Machine.withShared_shared, hview.get_set]
      exact hwords
    · intro calls hrecords
      simp only [Machine.withShared_shared, hrecords.set]
      exact hrecords.serve _ _ _ _ hturn

/-- Dispatching as often as there are sources pending calls their handlers one after the other,
and nothing is pending afterwards. -/
theorem turn_dispatches (hview : view.Lawful) {sources : List Nat}
    (hquiet : Quiet δ (view.get machine.shared).controller.base)
    (hsummarised : (view.get machine.shared).words.Summarised)
    (hsources : (view.get machine.shared).words.sources = sources)
    (hhandlers : ∀ irq ∈ sources, ∃ descriptor,
      (view.get machine.shared).controller.handler irq = some descriptor ∧
      Acknowledges host view serve (view.get machine.shared).controller irq
        descriptor.handler) :
    ∃ called last, called.map Prod.fst = sources ∧
      (∀ entry ∈ called,
        (view.get machine.shared).controller.handler entry.1 = some entry.2) ∧
      (dispatches view serve sources.length).turn host machine =
        .returned (sources.map some) last ∧
      (callEach view serve called).turn host machine = .returned (sources.map some) last ∧
      (∀ calls, Records host view serve calls →
        calls last.shared = calls machine.shared ++ called.map fun entry => entry.2.handler) ∧
      (dispatch view serve).turn host last = .returned none last := by
  induction sources generalizing machine with
  | nil =>
    refine ⟨[], machine, rfl, by simp, rfl, rfl, by simp, ?_⟩
    rw [turn_dispatch hview hquiet hsummarised, hsources]
  | cons irq rest ih =>
    obtain ⟨descriptor, hhandler, hacknowledges⟩ := hhandlers irq List.mem_cons_self
    obtain ⟨hirq, hpends⟩ := PendingWords.mem_sources.1 (hsources ▸ List.mem_cons_self)
    obtain ⟨served, hcall, hcontroller, hwords, hcalls⟩ :=
      turn_callHandler hview hacknowledges hpends hsummarised
    have hdispatch : (dispatch view serve).turn host machine = .returned (some irq) served := by
      rw [turn_dispatch hview hquiet hsummarised, hsources]
      simp only [hhandler]
      exact hcall
    have hquiet' : Quiet δ (view.get served.shared).controller.base := hcontroller ▸ hquiet
    obtain ⟨called, last, hfst, hconnected, hdispatches, hcallEach, hrecorded, hnone⟩ :=
      ih hquiet' (hwords ▸ hsummarised.acknowledge hirq)
        (hwords ▸ PendingWords.sources_acknowledge hsources)
        (fun other hother => hcontroller ▸ hhandlers other (List.mem_cons_of_mem _ hother))
    refine ⟨(irq, descriptor) :: called, last, by simp [hfst], ?_, ?_, ?_, ?_, hnone⟩
    · exact List.forall_mem_cons.2 ⟨hhandler, hcontroller ▸ hconnected⟩
    · rw [List.length_cons, dispatches]
      refine (Coroutine.turn_bind _ _ _).trans ?_
      rw [hdispatch, Coroutine.carryOn]
      refine (Coroutine.turn_bind _ _ _).trans ?_
      rw [hdispatches]
      rfl
    · rw [callEach]
      refine (Coroutine.turn_bind _ _ _).trans ?_
      rw [hcall, Coroutine.carryOn]
      refine (Coroutine.turn_bind _ _ _).trans ?_
      rw [hcallEach]
      rfl
    · intro calls hrecords
      rw [hrecorded calls hrecords, hcalls calls hrecords]
      simp

/-- While the summary is true and every pending source has a handler that acknowledges it,
dispatching as often as there are sources pending does just what calling their handlers does, each
of them once and from the lowest number up; every call answers with its source, and nothing is
pending afterwards.  The table is never looked up behind its end. -/
theorem pending_serviced_once (hview : view.Lawful)
    (hquiet : Quiet δ (view.get machine.shared).controller.base)
    (hsummarised : (view.get machine.shared).words.Summarised)
    (hhandlers : ∀ irq ∈ (view.get machine.shared).words.sources, ∃ descriptor,
      (view.get machine.shared).controller.handler irq = some descriptor ∧
      Acknowledges host view serve (view.get machine.shared).controller irq
        descriptor.handler) :
    (view.get machine.shared).words.sources.Pairwise (· < ·) ∧
    (∀ irq, irq ∈ (view.get machine.shared).words.sources ↔
      irq < sourceCount ∧ (view.get machine.shared).words.pends irq = true) ∧
    (∀ (controller : InterruptController η) (device : δ) irq,
      (controller.pending device).1 = some irq → irq < tableSize) ∧
    ∃ called last, called.map Prod.fst = (view.get machine.shared).words.sources ∧
      (∀ entry ∈ called,
        (view.get machine.shared).controller.handler entry.1 = some entry.2) ∧
      (dispatches view serve (view.get machine.shared).words.sources.length).turn host machine =
        .returned ((view.get machine.shared).words.sources.map some) last ∧
      (callEach view serve called).turn host machine =
        .returned ((view.get machine.shared).words.sources.map some) last ∧
      (∀ calls, Records host view serve calls →
        calls last.shared = calls machine.shared ++ called.map fun entry => entry.2.handler) ∧
      (dispatch view serve).turn host last = .returned none last := by
  refine ⟨PendingWords.pairwise_sources _, fun irq => PendingWords.mem_sources, ?_,
    turn_dispatches hview hquiet hsummarised rfl hhandlers⟩
  intro controller device irq hpending
  exact Nat.lt_trans (pending_lt hpending) (by decide)

end Interrupts

/-! ## Registers alone -/

/-- The pending registers at the bottom of the address space. -/
instance : Bus PendingWords where
  load address words :=
    (if address = 0 then words.summary
      else if address = 0x4 then words.first
      else if address = 0x8 then words.second
      else 0, words)
  save _ _ words := words

/-- A controller whose handlers are their sources' numbers, with the calls made so far. -/
structure CalledSources where
  interrupts : Interrupts Nat PendingWords
  calls : List Nat := []

namespace CalledSources

/-- The controller. -/
def interruptView : Coroutine.View CalledSources (Interrupts Nat PendingWords) where
  get state := state.interrupts
  set interrupts state := { state with interrupts }

theorem lawful_interruptView : interruptView.Lawful :=
  ⟨fun _ => rfl, fun _ _ => rfl, fun _ _ _ => rfl⟩

/-- Put the call down and acknowledge the source.  Source 32 says that it was not meant. -/
def service (irq : Nat) : Action CalledSources IrqReturn := fun state =>
  let board := state.interrupts.board
  .ok (if irq = 32 then .unclaimed else .handled)
    { interrupts :=
        { state.interrupts with board := { board with device := board.device.acknowledge irq } }
      calls := state.calls ++ [irq] }

/-- Service a source at once. -/
def serve (irq : Nat) : Coroutine Empty CalledSources IrqReturn :=
  Coroutine.act (service irq)

/-- Seven sources are pending, at the ends of the banks. -/
def sevenPending : Machine Empty CalledSources where
  shared :=
    { interrupts :=
        { controller := { base := 0, handler := fun irq => some ⟨"source", irq⟩ }
          board := { device := ⟨0x385, 0x80000002, 0x80000001⟩ } } }

theorem read_zero (words : PendingWords) : PendingWords.read 0 words = words :=
  rfl

/-- The example's handler acknowledges the source that it is called for. -/
theorem acknowledges_serve {controller : InterruptController Nat} (hbase : controller.base = 0)
    (irq : Nat) :
    Interrupts.Acknowledges (.still Empty CalledSources) interruptView serve controller irq
      irq := by
  intro machine hcontroller _ _
  refine ⟨_, _, Coroutine.turn_act _ _, hcontroller, ?_⟩
  subst hcontroller
  rw [Interrupts.words, Interrupts.words, hbase, read_zero]
  exact (congrArg (fun base => PendingWords.read base _) hbase).trans (read_zero _)

/-- The example's handler notes each call. -/
theorem records_serve :
    Interrupts.Records (.still Empty CalledSources) interruptView serve CalledSources.calls where
  set _ _ := rfl
  serve := by
    intro handler machine answer last hturn
    rw [serve, Coroutine.turn_act] at hturn
    cases hturn
    rfl

end CalledSources

/-- Seven dispatches call the handlers of seven sources in order, the one that does not claim its
interrupt too, and the eighth finds nothing. -/
theorem Interrupts.pending_serviced_once_of_seven :
    ∃ last,
      (dispatches CalledSources.interruptView CalledSources.serve 7).turn
          (.still Empty CalledSources) CalledSources.sevenPending =
        .returned [some 1, some 31, some 32, some 63, some 64, some 66, some 71] last ∧
      last.shared.calls = [1, 31, 32, 63, 64, 66, 71] ∧
      (dispatch CalledSources.interruptView CalledSources.serve).turn
          (.still Empty CalledSources) last = .returned none last := by
  have hsources : CalledSources.sevenPending.shared.interrupts.words.sources =
      [1, 31, 32, 63, 64, 66, 71] := by decide
  have hquiet : InterruptController.Quiet PendingWords
      (CalledSources.interruptView.get CalledSources.sevenPending.shared).controller.base :=
    ⟨fun _ => rfl, fun _ => rfl, fun _ => rfl⟩
  obtain ⟨-, -, -, called, last, hfst, hconnected, hdispatches, -, hcalls, hnone⟩ :=
    pending_serviced_once CalledSources.lawful_interruptView hquiet ⟨by decide, by decide⟩
      (fun irq _ => ⟨_, rfl, CalledSources.acknowledges_serve rfl irq⟩)
  have hcalled : (called.map fun entry => entry.2.handler) = called.map Prod.fst := by
    apply List.map_congr_left
    intro entry hentry
    exact congrArg IrqDescriptor.handler (Option.some.inj (hconnected entry hentry)).symm
  refine ⟨last, ?_, ?_, hnone⟩
  · change (dispatches _ _ CalledSources.sevenPending.shared.interrupts.words.sources.length).turn
      _ _ = .returned (CalledSources.sevenPending.shared.interrupts.words.sources.map some) last
      at hdispatches
    rw [hsources] at hdispatches
    exact hdispatches
  · rw [hcalls _ CalledSources.records_serve, hcalled, hfst]
    exact hsources

end DriverHost
