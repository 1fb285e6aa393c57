import DriverHost.Proofs.Description
import Mathlib.Data.List.SplitBy

/-!
# The fewest runs

Pages are put into runs as they come: a page joins the last run wherever it can.  A description
that begins a new run early only makes its later runs longer, so at every page the runs that were
found are ahead of those of any other description of the same pages.  How many there are can be
read off the pages: each stretch of contiguous pages takes a run for every 4096 of them.

Main results:

- Structure `PageRun.Ahead`, and theorem `length_runsOf_pagesOf_le`: no runs that words can hold
  describe the same pages in fewer runs.
- Definition `stretches` and theorem `length_runsOf`: the number of runs of a list of pages.
- Theorem `PageList.create_uses_fewest_runs`: the words of a finished page list.
-/

namespace DriverHost

namespace PageRun

/-! ## The last run -/

theorem following_single (page : UInt32) : following ⟨page, 1⟩ = page + 4096 := by
  change page + 1 * 4096 = page + 4096
  rw [UInt32.one_mul]

/-- The page that follows the last run is the one that follows the last page. -/
theorem following_extend (runs : List PageRun) (page : UInt32) :
    (extend runs page).head?.map following = some (page + 4096) := by
  cases runs with
  | nil => exact congrArg some (following_single page)
  | cons last before =>
    simp only [extend]
    by_cases hjoins : page = last.following ∧ last.pages ≤ maxFurtherPages
    · have hlonger : (last.pages + 1).toUInt32 = last.pages.toUInt32 + 1 := by
        have hpages := toNat_longer hjoins.2
        apply UInt32.toNat_inj.1
        rw [UInt32.toNat_add, UInt16.toNat_toUInt32, UInt16.toNat_toUInt32, hpages.1,
          UInt32.toNat_one]
        omega
      rw [if_pos hjoins, hjoins.1]
      simp only [List.head?_cons, Option.map_some, following, hlonger, UInt32.add_mul,
        UInt32.one_mul, UInt32.add_assoc]
    · rw [if_neg hjoins]
      exact congrArg some (following_single page)

/-- After any pages, the page that would continue the last run is the one behind the last page. -/
theorem following_foldl_extend (runs : List PageRun) (before : List UInt32) (page : UInt32) :
    ((before ++ [page]).foldl extend runs).head?.map following = some (page + 4096) := by
  rw [List.foldl_append]
  exact following_extend _ page

/-! ## Staying ahead -/

/-- Of two descriptions that end in the same page, last run first, the first one has fewer runs, or
as many with a last run that is no longer. -/
structure Ahead (runs others : List PageRun) : Prop where
  following : runs.head?.map PageRun.following = others.head?.map PageRun.following
  order : runs.length < others.length ∨ runs.length = others.length ∧
    ∀ last ∈ runs.head?, ∀ other ∈ others.head?, last.pages.toNat ≤ other.pages.toNat

namespace Ahead

variable {runs others : List PageRun}

/-- The other description begins a new run. -/
theorem begins (hahead : Ahead runs others) (page : UInt32) :
    Ahead (extend runs page) (⟨page, 1⟩ :: others) := by
  refine ⟨by rw [following_extend, List.head?_cons, Option.map_some, following_single], ?_⟩
  have horder := hahead.order
  cases runs with
  | nil =>
    rcases horder with hfewer | ⟨hsame, -⟩
    · exact Or.inl (Nat.succ_lt_succ hfewer)
    · refine Or.inr ⟨congrArg Nat.succ hsame, ?_⟩
      simp [extend]
  | cons last before =>
    simp only [extend]
    by_cases hjoins : page = last.following ∧ last.pages ≤ maxFurtherPages
    · rw [if_pos hjoins]
      simp only [List.length_cons] at horder ⊢
      omega
    · rw [if_neg hjoins]
      rcases horder with hfewer | ⟨hsame, -⟩
      · exact Or.inl (Nat.succ_lt_succ hfewer)
      · refine Or.inr ⟨congrArg Nat.succ hsame, ?_⟩
        simp

/-- The other description goes on with its last run. -/
theorem lengthens {other : PageRun} (hahead : Ahead runs (other :: others))
    (hroom : other.pages ≤ maxFurtherPages) :
    Ahead (extend runs other.following)
      ({ other with pages := other.pages + 1 } :: others) := by
  have hlonger := toNat_longer hroom
  have hjoined : extend (other :: others) other.following =
      { other with pages := other.pages + 1 } :: others := by
    rw [extend, if_pos ⟨rfl, hroom⟩]
  refine ⟨by rw [following_extend, ← hjoined, following_extend], ?_⟩
  have horder := hahead.order
  cases runs with
  | nil =>
    have hnone := hahead.following
    simp at hnone
  | cons last before =>
    have hsame : last.following = other.following := Option.some.inj hahead.following
    simp only [extend, hsame]
    by_cases hjoins : last.pages ≤ maxFurtherPages
    · have hlast := toNat_longer hjoins
      rw [if_pos ⟨trivial, hjoins⟩]
      rcases horder with hfewer | ⟨hcount, hle⟩
      · exact Or.inl hfewer
      · refine Or.inr ⟨hcount, ?_⟩
        have hle : last.pages.toNat ≤ other.pages.toNat := hle last rfl other rfl
        simp only [List.head?_cons, Option.mem_some_iff, forall_eq', hlast.1, hlonger.1]
        omega
    · rw [if_neg fun hboth => hjoins hboth.2]
      -- The last run is full and the other one is not, so this description has fewer runs.
      have hfewer : (last :: before).length < (other :: others).length := by
        rcases horder with hfewer | ⟨-, hle⟩
        · exact hfewer
        · have hle : last.pages.toNat ≤ other.pages.toNat := hle last rfl other rfl
          refine absurd (UInt16.le_iff_toNat_le.2 (Nat.le_trans hle ?_)) hjoins
          exact UInt16.le_iff_toNat_le.1 hroom
      simp only [List.length_cons, List.head?_cons, Option.mem_some_iff, forall_eq'] at hfewer ⊢
      rw [hlonger.1]
      have hone : (1 : UInt16).toNat = 1 := rfl
      omega

/-- The other description has one more run, of up to 4096 pages. -/
theorem expand (hahead : Ahead runs others) (base : UInt32) {further : Nat}
    (hfurther : further < 4096) :
    Ahead ((PageRun.expand ⟨base, UInt16.ofNat (further + 1)⟩).foldl extend runs)
      (⟨base, UInt16.ofNat (further + 1)⟩ :: others) := by
  induction further with
  | zero =>
    have hone : UInt16.ofNat (0 + 1) = 1 := rfl
    rw [hone, expand_single]
    exact hahead.begins base
  | succ further ih =>
    have hshorter := ih (by omega)
    have hroom : UInt16.ofNat (further + 1) ≤ maxFurtherPages := by
      rw [UInt16.le_iff_toNat_le, UInt16.toNat_ofNat_of_lt' (by simp only [UInt16.size]; omega)]
      exact Nat.le_of_lt_succ hfurther
    have hnext : UInt16.ofNat (further + 1 + 1) = UInt16.ofNat (further + 1) + 1 :=
      UInt16.ofNat_add (further + 1) 1
    have hpages : (PageRun.mk base (UInt16.ofNat (further + 1) + 1)).expand =
        (PageRun.mk base (UInt16.ofNat (further + 1))).expand ++
          [(PageRun.mk base (UInt16.ofNat (further + 1))).following] :=
      @expand_longer ⟨base, UInt16.ofNat (further + 1)⟩ hroom
    rw [hnext, hpages, List.foldl_append]
    exact hshorter.lengthens hroom

/-- A description stays ahead when the other one has one more well-formed run. -/
theorem run (hahead : Ahead runs others) {other : PageRun} (hother : other.WellFormed) :
    Ahead (other.expand.foldl extend runs) (other :: others) := by
  have hnonempty := hother.nonempty
  have hbounded := hother.bounded
  have hpages : UInt16.ofNat (other.pages.toNat - 1 + 1) = other.pages := by
    rw [Nat.sub_add_cancel hnonempty]
    exact UInt16.ofNat_toNat
  have hfurther : other.pages.toNat - 1 < 4096 := by omega
  have hexpand := hahead.expand other.base hfurther
  rw [hpages] at hexpand
  exact hexpand

end Ahead

/-- The runs that are found are ahead of any description that words can hold. -/
theorem ahead_of_wellFormed {others : List PageRun} (hothers : ∀ run ∈ others, run.WellFormed) :
    Ahead ((pagesOf others).foldl extend []) others.reverse := by
  -- The other description grows at its end, as the runs that are found do.
  induction others using List.reverseRecOn with
  | nil => exact ⟨rfl, Or.inr ⟨rfl, by simp [pagesOf]⟩⟩
  | append_singleton before run ih =>
    have hbefore := ih fun other hother => hothers other (List.mem_append_left _ hother)
    have hrun : run.WellFormed := hothers run (by simp)
    have hpages : pagesOf (before ++ [run]) = pagesOf before ++ run.expand := by simp [pagesOf]
    rw [hpages, List.foldl_append, List.reverse_append]
    exact hbefore.run hrun

end PageRun

/-- No runs that words can hold describe their pages in fewer runs than are found. -/
theorem length_runsOf_pagesOf_le {runs : List PageRun} (hruns : ∀ run ∈ runs, run.WellFormed) :
    (runsOf (pagesOf runs)).length ≤ runs.length := by
  have horder := (PageRun.ahead_of_wellFormed hruns).order
  rw [List.length_reverse] at horder
  rw [runsOf, List.length_reverse]
  omega

/-! ## Stretches -/

/-- The longest stretches of pages each of which follows the one before it on the bus. -/
def stretches (pages : List UInt32) : List (List UInt32) :=
  pages.splitBy fun page next => next == page + 4096

namespace PageRun

/-- Only the last run matters for the next page. -/
theorem extend_append {runs : List PageRun} (hruns : runs ≠ []) (rest : List PageRun)
    (page : UInt32) : extend (runs ++ rest) page = extend runs page ++ rest := by
  cases runs with
  | nil => exact absurd rfl hruns
  | cons last before =>
    simp only [List.cons_append, extend]
    split <;> rfl

/-- The encoder looks at the last run only, never at those before it. -/
theorem foldl_extend_append {runs : List PageRun} (hruns : runs ≠ []) (rest : List PageRun)
    (pages : List UInt32) :
    pages.foldl extend (runs ++ rest) = pages.foldl extend runs ++ rest := by
  induction pages generalizing runs with
  | nil => rfl
  | cons page pages ih =>
    have hextended : extend runs page ≠ [] := by
      intro hnil
      have hfollowing := following_extend runs page
      simp [hnil] at hfollowing
    rw [List.foldl_cons, List.foldl_cons, extend_append hruns, ih hextended]

/-- The runs of contiguous pages are full, all but the last one. -/
theorem full_of_isChain {pages : List UInt32} (hne : pages ≠ [])
    (hchain : pages.IsChain fun page next => next = page + 4096) :
    ∃ last before, pages.foldl extend [] = last :: before ∧
      1 ≤ last.pages.toNat ∧ last.pages.toNat ≤ 4096 ∧
      last.pages.toNat + 4096 * before.length = pages.length := by
  induction pages using List.reverseRecOn with
  | nil => exact absurd rfl hne
  | append_singleton pages page ih =>
    rw [List.foldl_append, List.length_append]
    rcases List.eq_nil_or_concat' pages with rfl | ⟨earlier, previous, rfl⟩
    · exact ⟨⟨page, 1⟩, [], rfl, Nat.le_refl 1, Nat.le_add_left 1 4095, rfl⟩
    · obtain ⟨hearlier, -, hnext⟩ := List.isChain_append.1 hchain
      have hpage : page = previous + 4096 := hnext previous (by simp) page rfl
      obtain ⟨last, before, hruns, hnonempty, hbounded, hcount⟩ := ih (by simp) hearlier
      have hfollowing := following_foldl_extend [] earlier previous
      rw [hruns] at hfollowing
      have hfollows : page = last.following := hpage.trans (Option.some.inj hfollowing).symm
      simp only [List.foldl_cons, List.foldl_nil, hruns, extend]
      by_cases hroom : last.pages ≤ maxFurtherPages
      · have hlonger := toNat_longer hroom
        rw [if_pos ⟨hfollows, hroom⟩]
        refine ⟨_, before, rfl, ?_, ?_, ?_⟩ <;> simp only [hlonger.1, List.length_singleton] <;>
          omega
      · have hfull : ¬ last.pages.toNat ≤ 4095 := fun hle => hroom (UInt16.le_iff_toNat_le.2 hle)
        have hone : (1 : UInt16).toNat = 1 := rfl
        rw [if_neg fun hboth => hroom hboth.2]
        refine ⟨⟨page, 1⟩, last :: before, rfl, Nat.le_refl 1, Nat.le_add_left 1 4095, ?_⟩
        simp only [hone, List.length_cons, List.length_nil]
        omega

end PageRun

/-- A stretch of contiguous pages takes a run for every 4096 of them. -/
theorem length_runsOf_of_isChain {pages : List UInt32}
    (hchain : pages.IsChain fun page next => next = page + 4096) :
    (runsOf pages).length = (pages.length + 4095) / 4096 := by
  rcases eq_or_ne pages [] with rfl | hne
  · rfl
  · obtain ⟨last, before, hruns, hnonempty, hbounded, hcount⟩ := PageRun.full_of_isChain hne hchain
    rw [runsOf, hruns, List.length_reverse, List.length_cons]
    omega

/-- Where a page does not follow the one before it a new run begins. -/
theorem runsOf_append {first second : List UInt32}
    (hbreak : ∀ page ∈ first.getLast?, ∀ next ∈ second.head?, next ≠ page + 4096) :
    runsOf (first ++ second) = runsOf first ++ runsOf second := by
  rcases List.eq_nil_or_concat' first with rfl | ⟨before, page, rfl⟩
  · simp [runsOf]
  cases second with
  | nil => simp [runsOf]
  | cons next second =>
    have hbreak : next ≠ page + 4096 := hbreak page (by simp) next rfl
    have hfollowing := PageRun.following_foldl_extend [] before page
    simp only [runsOf, @List.foldl_append _ _ _ _ _ (next :: second), List.foldl_cons]
    generalize (before ++ [page]).foldl PageRun.extend [] = runs at hfollowing
    cases runs with
    | nil => simp at hfollowing
    | cons last earlier =>
      have hfollows : last.following = page + 4096 := Option.some.inj hfollowing
      have hbegins : PageRun.extend (last :: earlier) next =
          PageRun.extend [] next ++ last :: earlier := by
        simp only [PageRun.extend]
        rw [if_neg fun hjoins => hbreak (hjoins.1.trans hfollows)]
        rfl
      rw [hbegins, PageRun.foldl_extend_append (by simp [PageRun.extend]), List.reverse_append]

/-- A list of pages takes the runs of its stretches. -/
theorem length_runsOf (pages : List UInt32) :
    (runsOf pages).length =
      ((stretches pages).map fun stretch => (stretch.length + 4095) / 4096).sum := by
  have hpages : (stretches pages).flatten = pages := List.flatten_splitBy _ pages
  have hchains : ∀ stretch ∈ stretches pages,
      stretch.IsChain fun page next => next = page + 4096 := by
    intro stretch hstretch
    simpa using List.isChain_of_mem_splitBy hstretch
  have hbreaks := List.isChain_getLast_head_splitBy
    (fun page next : UInt32 => next == page + 4096) pages
  have hnil : [] ∉ stretches pages := List.nil_notMem_splitBy _ pages
  rw [← stretches] at hbreaks
  conv_lhs => rw [← hpages]
  generalize stretches pages = rows at hchains hbreaks hnil
  induction rows with
  | nil => rfl
  | cons row rows ih =>
    obtain ⟨hrow, hrest⟩ := List.forall_mem_cons.1 hchains
    rw [List.isChain_cons] at hbreaks
    have hbreak : ∀ page ∈ row.getLast?, ∀ next ∈ rows.flatten.head?, next ≠ page + 4096 := by
      intro page hpage next hnext
      cases rows with
      | nil => simp at hnext
      | cons following more =>
        obtain ⟨hlast, hfirst, hbreak⟩ := hbreaks.1 following rfl
        rw [List.getLast?_eq_some_getLast hlast, Option.mem_some_iff] at hpage
        rw [List.flatten_cons, List.head?_append_of_ne_nil _ hfirst,
          List.head?_eq_some_head hfirst, Option.mem_some_iff] at hnext
        rw [← hpage, ← hnext]
        simpa using hbreak
    have hrows := ih hrest hbreaks.2 fun hmem => hnil (List.mem_cons_of_mem _ hmem)
    rw [List.flatten_cons, runsOf_append hbreak, List.length_append, List.map_cons, List.sum_cons,
      length_runsOf_of_isChain hrow, hrows]

/-! ## Page lists -/

namespace PageList

variable {ε : Type} {host : Host ε TransferState}
  {between : Machine ε TransferState → Machine ε TransferState → Prop}
  {busOf : UInt64 → UInt32} {buffer length : UInt64} {direction : Direction}

/-- Whatever the memory holds, a page list reads back with the number of runs that it says. -/
theorem length_runs (list : PageList) (memory : Memory) :
    (list.runs memory).length = list.runCount := by
  rw [runs, List.length_map, Memory.words, List.length_map, List.length_range]

/-- A finished page list has a word for every 4096 pages of each stretch of its buffer.  No runs
of page addresses that name the same pages are fewer: neither the pages of the buffer nor, if
the other tasks leave its block alone, the pages that are read back from memory. -/
theorem create_uses_fewest_runs
    (haligned : ∀ address : UInt64, address.toNat % 4096 = 0 → (busOf address).toNat % 4096 = 0)
    {machine last : Machine ε TransferState} {list : PageList}
    (hrun : Coroutine.Runs host between (create busOf buffer length direction) machine
      (.ok (.ok list)) last) :
    list.runCount = ((stretches (bufferPages busOf buffer length)).map fun stretch =>
        (stretch.length + 4095) / 4096).sum ∧
      (∀ memory, (list.runs memory).length = list.runCount) ∧
      (∀ others : List PageRun, (∀ run ∈ others, run.WellFormed) →
        pagesOf others = bufferPages busOf buffer length → list.runCount ≤ others.length) ∧
      (LeftAlone between list →
        pagesOf (list.runs last.shared.memory) = bufferPages busOf buffer length ∧
        ∀ others : List PageRun, (∀ run ∈ others, run.WellFormed) →
          pagesOf others = pagesOf (list.runs last.shared.memory) →
            (list.runs last.shared.memory).length ≤ others.length) := by
  have hcount : list.runCount = (runsOf (bufferPages busOf buffer length)).length := by
    obtain ⟨descriptor, heap, words, borrows, fragment, reached, -, -, -, -, rfl, rfl⟩ :=
      runs_create hrun
    rfl
  have hfewest : ∀ others : List PageRun, (∀ run ∈ others, run.WellFormed) →
      pagesOf others = bufferPages busOf buffer length → list.runCount ≤ others.length := by
    intro others hothers hpages
    rw [hcount, ← hpages]
    exact length_runsOf_pagesOf_le hothers
  refine ⟨hcount.trans (length_runsOf _), length_runs list, hfewest, fun halone => ?_⟩
  have hpages : pagesOf (list.runs last.shared.memory) = bufferPages busOf buffer length := by
    rw [runs_of_create haligned halone hrun, pagesOf_runsOf]
  refine ⟨hpages, fun others hothers hsame => ?_⟩
  rw [length_runs]
  exact hfewest others hothers (hsame.trans hpages)

/-- A translation with a gap in front of the page at 0x102000. -/
def gapped (address : UInt64) : UInt32 :=
  if address < 0x102000 then address.toUInt32 else address.toUInt32 + 0x10000

set_option maxRecDepth 4000 in
/-- Two pages on either side of a gap take two runs, and nothing shorter describes them. -/
theorem create_splits_at_gap :
    ∃ (list : PageList) (last : Machine Empty TransferState),
      (create gapped 0x100fc5 9000 .read).turn (Host.still Empty TransferState)
        { shared := oneFragment } = .returned (.ok list) last ∧
      stretches (pagesOf (list.runs last.shared.memory)) =
        [[0x100000, 0x101000], [0x112000, 0x113000]] ∧
      (list.runs last.shared.memory).length = 2 ∧
      ∀ others : List PageRun, (∀ run ∈ others, run.WellFormed) →
        pagesOf others = [0x100000, 0x101000, 0x112000, 0x113000] → 2 ≤ others.length := by
  have haligned : ∀ address : UInt64, address.toNat % 4096 = 0 →
      (gapped address).toNat % 4096 = 0 := by
    intro address haddress
    have hgap : (0x10000 : UInt32).toNat = 65536 := rfl
    rw [gapped]
    split
    · rw [UInt64.toNat_toUInt32]
      omega
    · rw [UInt32.toNat_add, UInt64.toNat_toUInt32, hgap]
      omega
  have hturn : ∃ (list : PageList) (last : Machine Empty TransferState),
      (create gapped 0x100fc5 9000 .read).turn (Host.still Empty TransferState)
        { shared := oneFragment } = .returned (.ok list) last ∧ list.runCount = 2 :=
    ⟨_, _, rfl, rfl⟩
  have hpages : bufferPages gapped 0x100fc5 9000 = [0x100000, 0x101000, 0x112000, 0x113000] := by
    decide
  obtain ⟨list, last, hreturned, hcount⟩ := hturn
  have hrun : Coroutine.Runs (Host.still Empty TransferState) (fun _ _ => False)
      (create gapped 0x100fc5 9000 .read) { shared := oneFragment } (.ok (.ok list)) last :=
    .returned hreturned
  obtain ⟨-, hlength, hfewest, hread⟩ := create_uses_fewest_runs haligned hrun
  have hsame := (hread fun _ _ hnothing => hnothing.elim).1
  rw [hpages, hcount] at hfewest
  refine ⟨list, last, hreturned, ?_, (hlength _).trans hcount, hfewest⟩
  rw [hsame, hpages]
  decide

end PageList

end DriverHost
