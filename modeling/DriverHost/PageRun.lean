import DriverHost.Alignment

/-!
# Runs of pages

Pages whose bus addresses follow one another are described together, as a run.  On the wire a
run is one word: the address of its first page, with the number of further pages in the bits
that a page address leaves clear.  One word describes at most 4096 pages.

Main results:

- Definitions `PageRun.encode` and `PageRun.decode`.
- Definition `PageRun.expand` lists the pages of a run, and definition `runsOf` describes a
  list of pages by runs.
-/

namespace DriverHost

/-- Pages that follow one another on the bus. -/
structure PageRun where
  /-- The bus address of the first page. -/
  base : UInt32
  /-- How many pages there are. -/
  pages : UInt16
deriving DecidableEq, Repr

namespace PageRun

/-- The bits of a word that count the further pages. -/
def countMask : UInt32 := 4095

/-- Further pages that one word can count. -/
def maxFurtherPages : UInt16 := 4095

/-- The word of a run; a run without pages has none. -/
def encode (run : PageRun) : Except Fault UInt32 :=
  if run.pages = 0 then .error .overflow
  else .ok (run.base ||| (run.pages.toUInt32 - 1))

/-- The run of a word. -/
def decode (word : UInt32) : PageRun where
  base := word &&& ~~~countMask
  pages := ((word &&& countMask) + 1).toUInt16

/-- The bus address of the page after a run. -/
def following (run : PageRun) : UInt32 :=
  run.base + run.pages.toUInt32 * 4096

/-- The pages of a run, one after the other. -/
def expand (run : PageRun) : List UInt32 :=
  (List.range run.pages.toNat).map fun index => run.base + UInt32.ofNat index * 4096

/-- Put one more page behind runs whose last comes first: it joins the last run if it follows
it and the run can count one more, and begins a new run otherwise. -/
def extend (runs : List PageRun) (page : UInt32) : List PageRun :=
  match runs with
  | [] => [⟨page, 1⟩]
  | last :: before =>
      if page = last.following ∧ last.pages ≤ maxFurtherPages then
        { last with pages := last.pages + 1 } :: before
      else ⟨page, 1⟩ :: last :: before

end PageRun

/-- The runs that describe pages, in order. -/
def runsOf (pages : List UInt32) : List PageRun :=
  (pages.foldl PageRun.extend []).reverse

/-- The pages that runs describe, in order. -/
def pagesOf (runs : List PageRun) : List UInt32 :=
  runs.flatMap PageRun.expand

/-- The bus addresses of consecutive pages, an overflow if one lies past the top of the
address space. -/
def pageAddresses (busOf : UInt64 → UInt32) (first : UInt64) (count : Nat) :
    Except Fault (List UInt32) :=
  if first.toNat + (count - 1) * pageSize.toNat < UInt64.size then
    .ok ((List.range count).map fun index => busOf (first + UInt64.ofNat index * pageSize))
  else .error .overflow

end DriverHost
