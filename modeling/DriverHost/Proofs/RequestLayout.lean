import DriverHost.Mailbox
import DriverHost.Proofs.BringUp
import DriverHost.Proofs.MemoryBlocks
import DriverHost.Script.Devices

/-!
# The layout of requests

A request is written by an index that every step hands to the next, and read by the sizes of the
values, which are counted in bytes.  The two agree for any number of tags: the writes of all steps
lie side by side, so the words in front of the last one are those of the request, and all behind it
are as they were.

Main results:

- Structure `WordStore.Lawful`: the words of a store are kept apart.
- Definition `readTags`: the tags of a request, as the firmware walks over them.
- Theorem `WordStore.contents_prepareAll`: the words of a buffer with a whole request.
- Theorem `WordStore.request_reads_back`: a request that fits reads back as it was meant, and one
  that does not fit is not finished.
-/

namespace DriverHost

variable {δ : Type} {store : WordStore δ} {valid : δ → Prop} {device : δ}

/-! ## Words of a store -/

namespace WordStore

/-- In the states that a condition describes, a word that is written is kept until it is written
again, and the others stay as they are. -/
structure Lawful (store : WordStore δ) (valid : δ → Prop) : Prop where
  valid_setWord : ∀ {device} index value, valid device → valid (store.setWord index value device)
  word_setWord : ∀ {device index other value}, valid device → index < store.capacity →
    other < store.capacity →
    store.word other (store.setWord index value device) =
      if other = index then value else store.word other device

/-- An array of the right size keeps its words. -/
theorem lawful_ofArray (capacity : Nat) :
    (ofArray capacity).Lawful fun words => words.size = capacity where
  valid_setWord := by
    intro words index value hsize
    simpa [ofArray] using hsize
  word_setWord := by
    intro words index other value hsize hindex hother
    have hsize : words.size = capacity := hsize
    have hother : other < capacity := hother
    simp only [ofArray, Array.getD_eq_getD_getElem?, Array.getElem?_setIfInBounds]
    by_cases hsame : other = index
    · subst hsame
      simp [hsize, hother]
    · simp [hsame, Ne.symm hsame]

/-- So does a buffer in memory that a mailbox shares with the firmware. -/
theorem lawful_link : Script.SimulatedMailbox.link.toWordStore.Lawful fun _ => True where
  valid_setWord := fun _ _ _ => trivial
  word_setWord := by
    intro mailbox index other value _ hindex hother
    have hindex : index < 8 := hindex
    have hother : other < 8 := hother
    simp only [Script.SimulatedMailbox.link, Script.SimulatedMailbox.wordAddress]
    split
    · next hsame =>
      rw [hsame]
      exact Memory.word_setWord _ _ _
    · next hdifferent =>
      apply Memory.word_congr
      intro offset hoffset
      rw [Memory.addressAt_addressAt, Memory.setWord,
        Memory.byte_store_at _ _ _ (by omega) (by omega), if_neg (by omega)]

@[simp] theorem length_contents (store : WordStore δ) (device : δ) :
    (store.contents device).length = store.capacity := by
  simp [contents]

/-- The contents of a store are its words in order. -/
theorem getElem?_contents {index : Nat} (hindex : index < store.capacity) (device : δ) :
    (store.contents device)[index]? = some (store.word index device) := by
  simp [contents, hindex]

/-- Writing a word replaces it among the others. -/
theorem contents_setWord (hlawful : store.Lawful valid) (hvalid : valid device) {index : Nat}
    (hindex : index < store.capacity) (value : UInt32) :
    store.contents (store.setWord index value device) =
      (store.contents device).set index value := by
  apply List.ext_getElem
  · simp
  · intro other hother _
    rw [length_contents] at hother
    simp only [contents, List.getElem_map, List.getElem_range, List.getElem_set,
      hlawful.word_setWord hvalid hindex hother, eq_comm]

/-- Write words from an index on. -/
def putAll (store : WordStore δ) (index : Nat) : List UInt32 → Action δ Unit
  | [] => pure ()
  | word :: words => do
      store.put index word
      store.putAll (index + 1) words

/-- Words are stored one after the other, wherever their list is split. -/
theorem putAll_append (store : WordStore δ) (index : Nat) (first second : List UInt32) :
    store.putAll index (first ++ second) = (do
      store.putAll index first
      store.putAll (index + first.length) second) := by
  induction first generalizing index with
  | nil => simp [putAll]
  | cons word words ih =>
    simp [putAll, ih, Nat.add_assoc, Nat.add_comm 1]

/-- A word below the capacity is stored. -/
theorem put_of_lt {index : Nat} (hindex : index < store.capacity) (value : UInt32) :
    store.put index value device = .ok () (store.setWord index value device) := by
  simp [put, hindex]

/-- A word at or above the capacity is out of bounds, and nothing is stored. -/
theorem put_of_le {index : Nat} (hindex : store.capacity ≤ index) (value : UInt32) :
    store.put index value device = .error .bounds device := by
  simp [put, Nat.not_lt.2 hindex]

/-- Words that fit are written side by side. -/
theorem putAll_of_fits (hlawful : store.Lawful valid) (hvalid : valid device) {index : Nat}
    {words : List UInt32} (hfits : index + words.length ≤ store.capacity) :
    ∃ written, store.putAll index words device = .ok () written ∧ valid written ∧
      store.contents written = (store.contents device).take index ++ words ++
        (store.contents device).drop (index + words.length) := by
  -- The words behind the first one are written into the buffer that already holds it.
  induction words generalizing index device with
  | nil => exact ⟨device, rfl, hvalid, by simp⟩
  | cons word words ih =>
    rw [List.length_cons] at hfits ⊢
    have hindex : index < store.capacity := by omega
    have hrest : index + 1 + words.length ≤ store.capacity := by omega
    obtain ⟨written, hput, hstays, hcontents⟩ :=
      ih (hlawful.valid_setWord index word hvalid) hrest
    refine ⟨written, ?_, hstays, ?_⟩
    · rw [putAll, Action.bind_of_ok (put_of_lt hindex word)]
      exact hput
    · have htaken : ((store.contents device).set index word).take (index + 1) =
          (store.contents device).take index ++ [word] := by
        rw [List.take_succ_eq_append_getElem (by simpa using hindex),
          List.take_set_of_le (Nat.le_refl _), List.getElem_set_self]
      rw [hcontents, contents_setWord hlawful hvalid hindex, htaken,
        List.drop_set_of_lt (by omega), Nat.add_right_comm, Nat.add_assoc]
      simp

/-- Words that go past the end are not all written. -/
theorem putAll_of_not_fits {index : Nat} {words : List UInt32} (hindex : index ≤ store.capacity)
    (hends : store.capacity < index + words.length) (device : δ) :
    ∃ left, store.putAll index words device = .error .bounds left := by
  induction words generalizing index device with
  | nil =>
    rw [List.length_nil] at hends
    omega
  | cons word words ih =>
    rw [List.length_cons] at hends
    rw [putAll]
    by_cases hroom : index < store.capacity
    · rw [Action.bind_of_ok (put_of_lt hroom word)]
      exact ih hroom (by omega) _
    · exact ⟨device, Action.bind_of_error (put_of_le (by omega) word) _⟩

end WordStore

/-! ## Requests of many tags -/

/-- The words of a tag that hands over memory. -/
def tagWords (base : UInt32) : List UInt32 :=
  [initTransfersTag, 4, 4, base]

/-- Each tag takes four words. -/
theorem length_flatMap_tagWords (bases : List UInt32) :
    (bases.flatMap tagWords).length = 4 * bases.length := by
  induction bases with
  | nil => rfl
  | cons base bases ih =>
    rw [List.flatMap_cons, List.length_append, ih, List.length_cons, tagWords]
    simp
    omega

/-- The words of a tag for each bus address, and the one that ends them. -/
def requestWords (bases : List UInt32) : List UInt32 :=
  bases.flatMap tagWords ++ [endTag]

/-- A request takes four words for each tag and one for its end. -/
theorem length_requestWords (bases : List UInt32) :
    (requestWords bases).length = 4 * bases.length + 1 := by
  rw [requestWords, List.length_append, length_flatMap_tagWords, List.length_singleton]

/-- Write a whole request with a tag for each bus address. -/
def prepareAll (store : WordStore δ) (bases : List UInt32) : Action δ Unit := do
  let first ← startRequest store
  let last ← bases.foldlM (addTag store) first
  endRequest store last

/-- Enter the size of a request whose last word has an index. -/
def enterSize (store : WordStore δ) (index : Nat) : Action δ Unit := do
  let count ← ensureHalf (index % UInt32.size + 1)
  let size ← ensureHalf (count.toNat * 4)
  store.put 0 size

/-- The request that a driver makes has one tag. -/
theorem Mailbox.prepare_eq (mailbox : Mailbox δ) (base : UInt32) :
    mailbox.prepare base = (do
      prepareAll mailbox.link.toWordStore [base]
      return 2) := by
  simp [Mailbox.prepare, prepareAll, startRequest]

/-- Adding a tag stores its words and moves on behind them. -/
theorem addTag_eq (store : WordStore δ) (index : Nat) (base : UInt32) :
    addTag store index base = (do
      store.putAll index (tagWords base)
      return index + 4) := by
  simp [addTag, tagWords, WordStore.putAll]

/-- Every tag is written where the one before it ends. -/
theorem foldlM_addTag (store : WordStore δ) (index : Nat) (bases : List UInt32) :
    bases.foldlM (addTag store) index = (do
      store.putAll index (bases.flatMap tagWords)
      return index + 4 * bases.length) := by
  induction bases generalizing index with
  | nil => simp [WordStore.putAll]
  | cons base bases ih =>
    have hend : index + 4 + 4 * bases.length = index + 4 * (bases.length + 1) := by omega
    rw [List.foldlM_cons, List.flatMap_cons, WordStore.putAll_append, addTag_eq]
    simp [ih, tagWords, hend]

/-- The tags and what follows the last one are written in one go. -/
theorem prepareAll_eq (store : WordStore δ) (bases : List UInt32) :
    prepareAll store bases = (do
      store.put 1 requestCode
      store.putAll 2 (requestWords bases)
      enterSize store (2 + 4 * bases.length)) := by
  simp [prepareAll, startRequest, foldlM_addTag, requestWords, WordStore.putAll_append,
    WordStore.putAll, endRequest, enterSize, length_flatMap_tagWords, -List.length_flatMap]

/-- The size that is entered counts every word up to the last one, in bytes. -/
theorem enterSize_eq (store : WordStore δ) {index : Nat} (hsmall : index + 1 < 2 ^ 30) :
    ∃ size : UInt32, size.toNat = 4 * (index + 1) ∧ enterSize store index = store.put 0 size := by
  have hhalf : UInt32.size = 2 ^ 32 := rfl
  have hcount : (UInt32.ofNat (index + 1)).toNat = index + 1 :=
    UInt32.toNat_ofNat_of_lt' (by omega)
  have hsize : (UInt32.ofNat (4 * (index + 1))).toNat = 4 * (index + 1) :=
    UInt32.toNat_ofNat_of_lt' (by omega)
  have hcounted : ensureHalf (index % UInt32.size + 1) = .ok (UInt32.ofNat (index + 1)) := by
    rw [ensureHalf_eq_ok_iff, hcount, Nat.mod_eq_of_lt (by omega)]
  have hsized : ensureHalf ((UInt32.ofNat (index + 1)).toNat * 4) =
      .ok (UInt32.ofNat (4 * (index + 1))) := by
    rw [ensureHalf_eq_ok_iff, hsize, hcount, Nat.mul_comm]
  refine ⟨UInt32.ofNat (4 * (index + 1)), hsize, ?_⟩
  unfold enterSize
  rw [hcounted]
  funext device
  rw [Action.bind_of_ok (Action.lift_eq_ok_iff.2 ⟨rfl, rfl⟩), hsized,
    Action.bind_of_ok (Action.lift_eq_ok_iff.2 ⟨rfl, rfl⟩)]

namespace WordStore

/-- The words of a buffer with a whole request: the size, the code, the tags, and then those that
were there before. -/
theorem contents_prepareAll (hlawful : store.Lawful valid) (hvalid : valid device)
    (hsmall : store.capacity < 2 ^ 30) {bases : List UInt32}
    (hfits : 4 * bases.length + 3 ≤ store.capacity) :
    ∃ (size : UInt32) (written : δ), prepareAll store bases device = .ok () written ∧
      valid written ∧ size.toNat = 4 * (4 * bases.length + 3) ∧
      store.contents written = (size :: requestCode :: requestWords bases) ++
        (store.contents device).drop (4 * bases.length + 3) := by
  have hcode : 1 < store.capacity := by omega
  have hlast : 2 + 4 * bases.length + 1 < 2 ^ 30 := by omega
  have hends : 2 + (requestWords bases).length ≤ store.capacity := by
    rw [length_requestWords]
    omega
  obtain ⟨size, hsize, henter⟩ := enterSize_eq store hlast
  obtain ⟨tagged, htags, htagged, hcontents⟩ :=
    putAll_of_fits hlawful (hlawful.valid_setWord 1 requestCode hvalid) hends
  refine ⟨size, store.setWord 0 size tagged, ?_, hlawful.valid_setWord 0 size htagged, by omega, ?_⟩
  · rw [prepareAll_eq, Action.bind_of_ok (put_of_lt hcode _), Action.bind_of_ok htags, henter]
    exact put_of_lt (by omega) size
  · rw [contents_setWord hlawful htagged (by omega), hcontents,
      contents_setWord hlawful hvalid hcode]
    have hlength := length_contents store device
    generalize store.contents device = words at hlength
    -- The buffer has room for the two words in front of the first tag.
    match words with
    | [] | [_] =>
      simp at hlength
      omega
    | first :: second :: rest =>
      have hbehind : 2 + (4 * bases.length + 1) = 4 * bases.length + 1 + 1 + 1 := by omega
      simp [length_requestWords, hbehind]

/-- A request that does not fit is not finished. -/
theorem prepareAll_of_not_fits {bases : List UInt32}
    (hlarge : store.capacity < 4 * bases.length + 3) :
    ∃ left, prepareAll store bases device = .error .bounds left := by
  rw [prepareAll_eq]
  by_cases hcode : 1 < store.capacity
  · have hends : store.capacity < 2 + (requestWords bases).length := by
      rw [length_requestWords]
      omega
    obtain ⟨left, hleft⟩ := putAll_of_not_fits hcode hends (store.setWord 1 requestCode device)
    refine ⟨left, ?_⟩
    rw [Action.bind_of_ok (put_of_lt hcode _)]
    exact Action.bind_of_error hleft _
  · exact ⟨device, Action.bind_of_error (put_of_le (by omega) _) _⟩

end WordStore

/-! ## Reading a request -/

/-- A tag as it stands in a buffer. -/
structure RequestTag where
  name : UInt32
  /-- The size of the value in bytes. -/
  size : UInt32
  request : UInt32
  value : List UInt32
deriving DecidableEq

/-- The tags at the front of the given words up to the end tag, with the words behind that one.  The
words of a value are as many as its size in bytes needs. -/
def readTags : List UInt32 → Option (List RequestTag × List UInt32)
  | [] => none
  | name :: words =>
      if name = endTag then some ([], words)
      else
        match words with
        | size :: request :: words =>
            let count := (size.toNat + 3) / 4
            if count ≤ words.length then
              (readTags (words.drop count)).map fun (tags, rest) =>
                (⟨name, size, request, words.take count⟩ :: tags, rest)
            else none
        | _ => none
termination_by words => words.length
decreasing_by
  simp only [List.length_drop, List.length_cons]
  omega

/-- The tag that hands over the memory at a bus address. -/
def handOverTag (base : UInt32) : RequestTag where
  name := 0x48010
  size := 4
  request := 4
  value := [base]

/-- A tag in front is the first one that the parser finds. -/
theorem readTags_tagWords (base : UInt32) (words : List UInt32) :
    readTags (tagWords base ++ words) =
      (readTags words).map fun (tags, rest) => (handOverTag base :: tags, rest) := by
  simp only [tagWords, List.cons_append, List.nil_append]
  rw [readTags]
  simp [initTransfersTag, endTag, handOverTag]

/-- The tags that were written are read, in the same order. -/
theorem readTags_requestWords (bases words : List UInt32) :
    readTags (requestWords bases ++ words) = some (bases.map handOverTag, words) := by
  induction bases with
  | nil =>
    unfold readTags
    simp [requestWords]
  | cons base bases ih =>
    have hfirst : requestWords (base :: bases) ++ words =
        tagWords base ++ (requestWords bases ++ words) := by simp [requestWords]
    rw [hfirst, readTags_tagWords, ih]
    simp

namespace WordStore

/-- A request that fits into its buffer has its size in bytes in front, then the code, and then the
tags in order, after which the reader stops at the last word that the size counts; the words behind
are as they were.  A request that does not fit meets the end of the buffer. -/
theorem request_reads_back (hlawful : store.Lawful valid) (hvalid : valid device)
    (hsmall : store.capacity < 2 ^ 30) (bases : List UInt32) :
    (4 * bases.length + 3 ≤ store.capacity →
      ∃ written, prepareAll store bases device = .ok () written ∧ valid written ∧
        (store.word 0 written).toNat = 4 * (4 * bases.length + 3) ∧
        store.word 1 written = requestCode ∧
        readTags ((store.contents written).drop 2) = some (bases.map handOverTag,
          (store.contents written).drop ((store.word 0 written).toNat / 4)) ∧
        ∀ index, 4 * bases.length + 3 ≤ index → index < store.capacity →
          store.word index written = store.word index device) ∧
    (store.capacity < 4 * bases.length + 3 →
      ∃ left, prepareAll store bases device = .error .bounds left) := by
  refine ⟨fun hfits => ?_, prepareAll_of_not_fits⟩
  obtain ⟨size, written, hprepared, hstays, hsize, hcontents⟩ :=
    contents_prepareAll hlawful hvalid hsmall hfits
  have hsizeWord : store.word 0 written = size := by
    have hword := getElem?_contents (show 0 < store.capacity by omega) written
    rw [hcontents] at hword
    simpa using hword.symm
  have hcodeWord : store.word 1 written = requestCode := by
    have hword := getElem?_contents (show 1 < store.capacity by omega) written
    rw [hcontents] at hword
    simpa using hword.symm
  have hrest : (store.contents written).drop (4 * bases.length + 3) =
      (store.contents device).drop (4 * bases.length + 3) := by
    rw [hcontents]
    apply List.drop_left'
    simp [length_requestWords]
  refine ⟨written, hprepared, hstays, hsizeWord ▸ hsize, hcodeWord, ?_, ?_⟩
  · rw [hsizeWord, hsize, Nat.mul_div_cancel_left _ (by decide), hrest, hcontents]
    exact readTags_requestWords _ _
  · intro index hbehind hindex
    have hsame := congrArg (fun words => words[index - (4 * bases.length + 3)]?) hrest
    simp only [List.getElem?_drop, Nat.add_sub_cancel' hbehind, getElem?_contents hindex] at hsame
    exact Option.some.inj hsame

/-- Three tags are read back from a buffer of sixteen words that was in use before, and two tags do
not fit into eight words. -/
theorem request_reads_back_of_three :
    (∃ written, prepareAll (ofArray 16) [0xc1c80000, 0, 7] (Array.replicate 16 0xdeadbeef) =
        .ok () written ∧
      ((ofArray 16).word 0 written).toNat = 60 ∧
      readTags (((ofArray 16).contents written).drop 2) =
        some ([handOverTag 0xc1c80000, handOverTag 0, handOverTag 7], [0xdeadbeef]) ∧
      (ofArray 16).word 15 written = 0xdeadbeef) ∧
    ∃ left, prepareAll (ofArray 8) [0xc1c80000, 0] (Array.replicate 8 0xdeadbeef) =
      .error .bounds left := by
  have hstale : ∀ count, (Array.replicate count (0xdeadbeef : UInt32)).size = count := by simp
  constructor
  · obtain ⟨written, hprepared, -, hword, -, hread, hbehind⟩ :=
      (request_reads_back (lawful_ofArray 16) (hstale 16) (by decide) [0xc1c80000, 0, 7]).1
        (by decide)
    have hlast : (ofArray 16).word 15 written = 0xdeadbeef := hbehind 15 (by decide) (by decide)
    have hword : ((ofArray 16).word 0 written).toNat = 60 := hword
    have hrest : ((ofArray 16).contents written).drop 15 = [(ofArray 16).word 15 written] := rfl
    rw [hword, hrest, hlast] at hread
    exact ⟨written, hprepared, hword, hread, hlast⟩
  · exact (request_reads_back (lawful_ofArray 8) (hstale 8) (by decide) [0xc1c80000, 0]).2
      (by decide)

end WordStore

end DriverHost
