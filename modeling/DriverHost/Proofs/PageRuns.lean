import DriverHost.PageRun
import DriverHost.Proofs.Masks

/-!
# Runs and the pages they stand for

A list of pages is described by runs without losing, adding or reordering a page.  A run that one
word can hold is read back from its word as it was, and every word is the word of one such run.

Main results:

- Definition `PageRun.WellFormed`: runs that one word can hold.
- Theorems `PageRun.decode_word` and `PageRun.word_decode`: the word of such a run is read as the
  run, and a word is the word of the run it is read as.
- Theorem `PageRun.words_correspond_to_runs`: words and such runs correspond one to one.
- Theorem `pagesOf_runsOf`: the runs of a list of pages expand to that list.
- Theorem `wellFormed_of_mem_runsOf`: page addresses give runs that one word can hold.
-/

namespace DriverHost

namespace PageRun

/-- A run that one word can hold: it begins on a page and has 1 to 4096 pages. -/
structure WellFormed (run : PageRun) : Prop where
  /-- The first page leaves the bits that count clear. -/
  aligned : run.base.toNat % 4096 = 0
  /-- There is a page. -/
  nonempty : 1 ≤ run.pages.toNat
  /-- The further pages can be counted. -/
  bounded : run.pages.toNat ≤ 4096

/-! ## Words -/

/-- The word of a run that has pages. -/
def word (run : PageRun) : UInt32 :=
  run.base ||| (run.pages.toUInt32 - 1)

/-- Any run of at least one page is encoded, even one that a word has no room for. -/
theorem encode_of_pages_ne_zero {run : PageRun} (hpages : run.pages ≠ 0) :
    run.encode = .ok run.word :=
  if_neg hpages

/-- A well-formed run is encoded without a fault. -/
theorem encode_eq_ok {run : PageRun} (hrun : run.WellFormed) : run.encode = .ok run.word := by
  apply encode_of_pages_ne_zero
  intro hzero
  have hnonempty := hrun.nonempty
  rw [hzero] at hnonempty
  exact absurd hnonempty (by decide)

/-- The pages of a well-formed run behind its first are counted without underflow. -/
theorem toNat_further {run : PageRun} (hrun : run.WellFormed) :
    (run.pages.toUInt32 - 1).toNat = run.pages.toNat - 1 := by
  rw [UInt32.toNat_sub_of_le, UInt16.toNat_toUInt32, UInt32.toNat_one]
  rw [UInt32.le_iff_toNat_le, UInt16.toNat_toUInt32, UInt32.toNat_one]
  exact hrun.nonempty

/-- In the word of a run the count stands in bits that the address leaves clear, so the two
add up. -/
theorem toNat_word {run : PageRun} (hrun : run.WellFormed) :
    run.word.toNat = run.base.toNat + (run.pages.toNat - 1) := by
  have hfurther : run.pages.toNat - 1 < 2 ^ 12 := by
    have := hrun.bounded
    omega
  have hbase : run.base.toNat = 2 ^ 12 * (run.base.toNat / 4096) := by
    have := hrun.aligned
    omega
  rw [word, UInt32.toNat_or, toNat_further hrun, hbase, Nat.two_pow_add_eq_or_of_lt hfurther]

/-- The low bits of a word are its remainder by the page size. -/
theorem toNat_and_countMask (word : UInt32) :
    (word &&& countMask).toNat = word.toNat % 4096 := by
  rw [UInt32.toNat_and]
  exact Nat.and_two_pow_sub_one_eq_mod word.toNat 12

/-- A word's run begins at its upper twenty bits. -/
theorem toNat_base_decode (word : UInt32) :
    (decode word).base.toNat = word.toNat - word.toNat % 4096 := by
  have hsplit := toNat_and_add_and_not word.toBitVec countMask.toBitVec
  have hcount := toNat_and_countMask word
  simp only [← UInt32.toBitVec_not, ← UInt32.toBitVec_and, UInt32.toNat_toBitVec] at hsplit
  simp only [decode]
  omega

/-- A word's lower twelve bits count the pages behind the first. -/
theorem toNat_pages_decode (word : UInt32) :
    (decode word).pages.toNat = word.toNat % 4096 + 1 := by
  have hcount := toNat_and_countMask word
  have hlow : word.toNat % 4096 < 4096 := Nat.mod_lt _ (by decide)
  simp only [decode, UInt32.toNat_toUInt16, UInt32.toNat_add, hcount, UInt32.toNat_one]
  omega

/-- Every word is read as a run that one word can hold. -/
theorem wellFormed_decode (word : UInt32) : (decode word).WellFormed := by
  have hlow : word.toNat % 4096 < 4096 := Nat.mod_lt _ (by decide)
  constructor
  · rw [toNat_base_decode]
    omega
  · rw [toNat_pages_decode]
    omega
  · rw [toNat_pages_decode]
    omega

/-- The word of a run that one word can hold is read as the run. -/
theorem decode_word {run : PageRun} (hrun : run.WellFormed) : decode run.word = run := by
  have hword := toNat_word hrun
  have haligned := hrun.aligned
  have hnonempty := hrun.nonempty
  have hbounded := hrun.bounded
  have hbase : (decode run.word).base = run.base := by
    apply UInt32.toNat_inj.1
    rw [toNat_base_decode, hword]
    omega
  have hpages : (decode run.word).pages = run.pages := by
    apply UInt16.toNat_inj.1
    rw [toNat_pages_decode, hword]
    omega
  calc
    decode run.word = ⟨(decode run.word).base, (decode run.word).pages⟩ := rfl
    _ = run := by rw [hbase, hpages]

/-- A word is the word of the run it is read as. -/
theorem word_decode (word : UInt32) : (decode word).word = word := by
  apply UInt32.toNat_inj.1
  rw [toNat_word (wellFormed_decode word), toNat_base_decode, toNat_pages_decode]
  have hle := Nat.mod_le word.toNat 4096
  omega

/-- Words and the runs that one word can hold correspond one to one.  Reading a word gives such a
run, whose word it is; and such a run, but no other, has a word that is read as the run. -/
theorem words_correspond_to_runs :
    (∀ word, (decode word).WellFormed ∧ (decode word).encode = .ok word) ∧
      ∀ run : PageRun, run.WellFormed ↔ ∃ word, run.encode = .ok word ∧ decode word = run := by
  refine ⟨fun word => ⟨wellFormed_decode word, ?_⟩, fun run => ⟨fun hrun => ?_, ?_⟩⟩
  · rw [encode_eq_ok (wellFormed_decode word), word_decode]
  · exact ⟨run.word, encode_eq_ok hrun, decode_word hrun⟩
  · rintro ⟨word, -, rfl⟩
    exact wellFormed_decode word

/-- The most pages behind the last page address fill every bit of the word. -/
example : encode ⟨0xfffff000, 4096⟩ = .ok 0xffffffff ∧
    decode 0xffffffff = ⟨0xfffff000, 4096⟩ := ⟨rfl, by decide⟩

/-- The words of runs that a word can hold are read as those runs. -/
theorem map_decode_of_mapM_encode {runs : List PageRun} {words : List UInt32}
    (hruns : ∀ run ∈ runs, run.WellFormed) (hwords : runs.mapM encode = .ok words) :
    words.map decode = runs := by
  induction runs generalizing words with
  | nil =>
    cases hwords
    rfl
  | cons run rest ih =>
    rw [List.mapM_cons] at hwords
    obtain ⟨word, hword, hwords⟩ := bind_eq_ok_iff.1 hwords
    obtain ⟨others, hothers, hwords⟩ := bind_eq_ok_iff.1 hwords
    have hrun := hruns run List.mem_cons_self
    rw [encode_eq_ok hrun] at hword
    cases hword
    cases hwords
    rw [List.map_cons, decode_word hrun, ih (fun other hmem => hruns other
      (List.mem_cons_of_mem _ hmem)) hothers]

/-! ## Pages -/

/-- A run that can count one more page counts it without a wrap. -/
theorem toNat_longer {run : PageRun} (hbounded : run.pages ≤ maxFurtherPages) :
    (run.pages + 1).toNat = run.pages.toNat + 1 ∧ run.pages.toNat ≤ 4095 := by
  have hle : run.pages.toNat ≤ 4095 := UInt16.le_iff_toNat_le.1 hbounded
  rw [UInt16.toNat_add, UInt16.toNat_one]
  omega

/-- One more page behind a run is the page that follows it. -/
theorem expand_longer {run : PageRun} (hbounded : run.pages ≤ maxFurtherPages) :
    expand { run with pages := run.pages + 1 } = run.expand ++ [run.following] := by
  have hcount : UInt32.ofNat run.pages.toNat = run.pages.toUInt32 := by
    apply UInt32.toNat_inj.1
    rw [UInt16.toNat_toUInt32]
    exact UInt32.toNat_ofNat_of_lt' (Nat.lt_of_le_of_lt (toNat_longer hbounded).2 (by decide))
  simp only [expand, (toNat_longer hbounded).1, List.range_succ, List.map_append, List.map_cons,
    List.map_nil, following, hcount]

theorem expand_single (page : UInt32) : expand ⟨page, 1⟩ = [page] := by
  simp [expand]

/-- Putting a page behind runs puts it behind their pages. -/
theorem pagesOf_extend (runs : List PageRun) (page : UInt32) :
    pagesOf (extend runs page).reverse = pagesOf runs.reverse ++ [page] := by
  cases runs with
  | nil => simp [extend, pagesOf, expand_single]
  | cons last before =>
    simp only [extend]
    by_cases hjoins : page = last.following ∧ last.pages ≤ maxFurtherPages
    · rw [if_pos hjoins]
      simp [pagesOf, expand_longer hjoins.2, hjoins.1]
    · rw [if_neg hjoins]
      simp [pagesOf, expand_single]

/-- Putting a page behind runs that a word can hold gives such runs again. -/
theorem wellFormed_extend {runs : List PageRun} {page : UInt32} (hpage : page.toNat % 4096 = 0)
    (hruns : ∀ run ∈ runs, run.WellFormed) : ∀ run ∈ extend runs page, run.WellFormed := by
  have hsingle : WellFormed ⟨page, 1⟩ := by
    refine ⟨hpage, ?_, ?_⟩
    · exact Nat.le_refl 1
    · exact (by decide : (1 : UInt16).toNat ≤ 4096)
  cases runs with
  | nil =>
    intro run hmem
    rw [List.mem_singleton.1 hmem]
    exact hsingle
  | cons last before =>
    intro run hmem
    simp only [extend] at hmem
    by_cases hjoins : page = last.following ∧ last.pages ≤ maxFurtherPages
    · rw [if_pos hjoins] at hmem
      rcases List.mem_cons.1 hmem with rfl | hbefore
      · have hlast := hruns last (List.mem_cons_self)
        have hlonger := toNat_longer hjoins.2
        refine ⟨hlast.aligned, ?_, ?_⟩
        · simp only [hlonger.1]
          omega
        · simp only [hlonger.1]
          omega
      · exact hruns run (List.mem_cons_of_mem _ hbefore)
    · rw [if_neg hjoins] at hmem
      rcases List.mem_cons.1 hmem with rfl | hold
      · exact hsingle
      · exact hruns run hold

/-- The runs found so far and the pages still to come make up the pages. -/
theorem pagesOf_foldl_extend (pages : List UInt32) (runs : List PageRun) :
    pagesOf (pages.foldl extend runs).reverse = pagesOf runs.reverse ++ pages := by
  induction pages generalizing runs with
  | nil => simp
  | cons page rest ih =>
    rw [List.foldl_cons, ih, pagesOf_extend, List.append_assoc, List.singleton_append]

/-- Page addresses only ever give runs that one word can hold. -/
theorem wellFormed_foldl_extend {pages : List UInt32} {runs : List PageRun}
    (hpages : ∀ page ∈ pages, page.toNat % 4096 = 0) (hruns : ∀ run ∈ runs, run.WellFormed) :
    ∀ run ∈ pages.foldl extend runs, run.WellFormed := by
  induction pages generalizing runs with
  | nil => exact hruns
  | cons page rest ih =>
    exact ih (fun other hmem => hpages other (List.mem_cons_of_mem _ hmem))
      (wellFormed_extend (hpages page List.mem_cons_self) hruns)

/-- The encoder starts at most one run for each page. -/
theorem length_foldl_extend_le (pages : List UInt32) (runs : List PageRun) :
    (pages.foldl extend runs).length ≤ runs.length + pages.length := by
  induction pages generalizing runs with
  | nil => simp
  | cons page rest ih =>
    have hone : (extend runs page).length ≤ runs.length + 1 := by
      cases runs with
      | nil => simp [extend]
      | cons last before =>
        simp only [extend]
        split <;> simp
    have hrest := ih (extend runs page)
    rw [List.foldl_cons, List.length_cons]
    omega

end PageRun

/-- A list of pages has no more runs than pages. -/
theorem length_runsOf_le (pages : List UInt32) : (runsOf pages).length ≤ pages.length := by
  have hfold := PageRun.length_foldl_extend_le pages []
  rw [runsOf, List.length_reverse]
  simpa using hfold

/-- The runs of a list of pages expand to that list. -/
theorem pagesOf_runsOf (pages : List UInt32) : pagesOf (runsOf pages) = pages := by
  rw [runsOf, PageRun.pagesOf_foldl_extend]
  simp [pagesOf]

/-- The runs of page addresses are runs that one word can hold. -/
theorem wellFormed_of_mem_runsOf {pages : List UInt32}
    (hpages : ∀ page ∈ pages, page.toNat % 4096 = 0) :
    ∀ run ∈ runsOf pages, run.WellFormed := by
  intro run hmem
  exact PageRun.wellFormed_foldl_extend hpages (by simp) run (List.mem_reverse.1 hmem)

end DriverHost
