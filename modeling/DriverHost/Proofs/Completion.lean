import DriverHost.Bulk
import DriverHost.Proofs.CopyBack
import DriverHost.Proofs.Description

/-!
# The end of a transfer

Finishing a transfer copies the partial lines out of its fragment and gives the fragment back,
all in one turn if nobody holds the pool's guard.  What the copies do to memory then decides
whether the received bytes arrive and whether anything outside the buffer changes.

Main results:

- Theorem `PageList.runs_finish`: a run copies once and returns the fragment once.
- Theorem `PageList.finish_delivers_received`: a misaligned read delivers what was received.
- Theorem `Kernel.runs_completeBulk`: completing a transfer of the engine finishes its page list.
- Theorem `PageList.completion_stays_inside_unless_overruns`: which counts make the copies leave
  the buffer.
-/

namespace DriverHost

/-- The pool has lent a fragment of two lines that lies at an address. -/
structure FragmentPool.Lends (pool : FragmentPool) (index : Nat) (line fragment : UInt64) :
    Prop where
  /-- The line is a power of two. -/
  power : isPowerOfTwo line = true
  /-- A fragment has two lines. -/
  size : pool.fragmentSize.toNat = 2 * line.toNat
  /-- The fragment lies at the address. -/
  address : pool.address (UInt64.ofNat index) = .ok fragment
  /-- The pool has a bit for each fragment. -/
  bounded : pool.count ≤ maxFragments
  /-- Somebody has the fragment. -/
  lent : pool.IsLent index

/-- A fragment that was to go back to a given pool has just gone back, from being lent.  With the
guard free nobody acts in between, and the pool that gets it back is the given one. -/
def FragmentPool.GotBack (given pool : FragmentPool) (index : Nat) : Prop :=
  ∃ before : FragmentPool, before.IsLent index ∧
    (given.guard.isLocked = false → before = given) ∧ pool = before.returned index

/-- With the guard free nobody else can get in between, and the pool is the given one with the
fragment returned. -/
theorem FragmentPool.GotBack.of_unlocked {given pool : FragmentPool} {index : Nat}
    (hback : given.GotBack pool index) (hguard : given.guard.isLocked = false) :
    pool = given.returned index := by
  obtain ⟨before, -, hgiven, rfl⟩ := hback
  rw [hgiven hguard]

namespace PageList

variable {ε : Type} {host : Host ε TransferState} {list : PageList} {index : Nat}
  {actual : Int32} {machine last : Machine ε TransferState}

/-! ## Giving the fragment back -/

/-- What other tasks may do while a transfer waits to give its fragment back: they leave memory
alone, keep the task on the boot core and do not return the fragment. -/
structure Undisturbed (index : Nat) (given taken : Machine ε TransferState) : Prop where
  memory : taken.shared.memory = given.shared.memory
  core : given.scheduler.mayLock = true → taken.scheduler.mayLock = true
  lent : given.shared.fragments.IsLent index → taken.shared.fragments.IsLent index

/-- A task of the boot core that may give back a fragment that the pool has lent. -/
structure Ready (machine : Machine ε TransferState) (index : Nat) (line fragment : UInt64) :
    Prop where
  core : machine.scheduler.mayLock = true
  lends : machine.shared.fragments.Lends index line fragment

/-- Completing a transfer changed no byte outside its buffer, none at all if the transfer was
given up, and returned the fragment exactly once. -/
structure StaysInside (list : PageList) (actual : Int32) (index : Nat)
    (before after : TransferState) : Prop where
  outside : ∀ address, ¬ (address - list.buffer).toNat < list.length.toNat →
    after.memory.byte address = before.memory.byte address
  given : actual < 0 → after.memory = before.memory
  back : before.fragments.GotBack after.fragments index

theorem lawful_fragmentView : TransferState.fragmentView.Lawful :=
  ⟨fun _ => rfl, fun _ _ => rfl, fun _ _ _ => rfl⟩

/-- What is left of giving the fragment back gives it back if the guard is free, and waits
otherwise. -/
theorem turn_returning_zoom (hmay : machine.scheduler.mayLock = true)
    (hlent : machine.shared.fragments.IsLent index) :
    ((FragmentPool.returning index).zoom TransferState.fragmentView :
        Coroutine ε TransferState Unit).turn host machine =
      if machine.shared.fragments.guard.isLocked then
        .yielded ((FragmentPool.returning index).zoom TransferState.fragmentView) machine
      else .returned () (machine.withShared { machine.shared with
        fragments := machine.shared.fragments.returned index }) := by
  have hpart : (machine.part TransferState.fragmentView).shared = machine.shared.fragments := rfl
  rw [Coroutine.turn_zoom lawful_fragmentView (FragmentPool.within_returning index),
    FragmentPool.turn_returning _ hmay hlent, hpart]
  by_cases hlocked : machine.shared.fragments.guard.isLocked = true
  · rw [if_pos hlocked, if_pos hlocked]
    rfl
  · rw [if_neg hlocked, if_neg hlocked]
    rfl

/-- Giving the fragment back does the same once its index and the core were checked. -/
theorem turn_release_zoom (hmay : machine.scheduler.mayLock = true)
    (hlent : machine.shared.fragments.IsLent index) :
    ((FragmentPool.release index).zoom TransferState.fragmentView :
        Coroutine ε TransferState Unit).turn host machine =
      ((FragmentPool.returning index).zoom TransferState.fragmentView).turn host machine := by
  rw [Coroutine.turn_zoom lawful_fragmentView (FragmentPool.within_release index),
    FragmentPool.turn_release _ hmay hlent,
    Coroutine.turn_zoom lawful_fragmentView (FragmentPool.within_returning index)]

/-- However long it waits, giving the fragment back returns it exactly once and leaves memory
alone. -/
theorem runs_release {result : Except Fault Unit} (hmay : machine.scheduler.mayLock = true)
    (hlent : machine.shared.fragments.IsLent index)
    (hrun : Coroutine.Runs host (Undisturbed index)
      ((FragmentPool.release index).zoom TransferState.fragmentView) machine result last) :
    result = .ok () ∧ last.shared.memory = machine.shared.memory ∧
      machine.shared.fragments.GotBack last.shared.fragments index := by
  refine hrun.by_turns
    (fun code now =>
      (code = (FragmentPool.release index).zoom TransferState.fragmentView ∨
        code = (FragmentPool.returning index).zoom TransferState.fragmentView) ∧
      now.scheduler.mayLock = true ∧ now.shared.fragments.IsLent index ∧
        now.shared.memory = machine.shared.memory ∧
        (machine.shared.fragments.guard.isLocked = false →
          now.shared.fragments = machine.shared.fragments))
    (fun result last => result = .ok () ∧ last.shared.memory = machine.shared.memory ∧
      machine.shared.fragments.GotBack last.shared.fragments index)
    ?_ ⟨Or.inl rfl, hmay, hlent, rfl, fun _ => rfl⟩
  intro code now hnow
  obtain ⟨hcode, hmay, hlent, hmemory, hgiven⟩ := hnow
  have hturn : code.turn host now =
      ((FragmentPool.returning index).zoom TransferState.fragmentView).turn host now := by
    rcases hcode with rfl | rfl
    · exact turn_release_zoom hmay hlent
    · rfl
  rw [hturn, turn_returning_zoom hmay hlent]
  by_cases hlocked : now.shared.fragments.guard.isLocked = true
  · rw [if_pos hlocked]
    intro taken hothers
    refine ⟨Or.inr rfl, hothers.core hmay, hothers.lent hlent, hothers.memory.trans hmemory,
      fun hfree => ?_⟩
    -- Whoever finds the guard taken did not find it free in the beginning.
    rw [hgiven hfree, hfree] at hlocked
    cases hlocked
  · rw [if_neg hlocked]
    exact ⟨rfl, hmemory, now.shared.fragments, hlent, hgiven, rfl⟩

/-! ## Finishing -/

/-- Memory after the partial lines were copied, if the transfer was not given up. -/
def copied (list : PageList) (index : Nat) (actual : Int32) (state : TransferState) :
    Except Fault Memory :=
  if actual < 0 then .ok state.memory
  else copyFragment list index (UInt64.ofNat actual.toInt.toNat) state

/-- Copy the partial lines, as an action. -/
def copyBack (list : PageList) (index : Nat) (actual : Int32) : Action TransferState Unit :=
  fun state =>
    match copied list index actual state with
    | .ok memory => .ok () { state with memory }
    | .error cause => .error cause state

/-- A transfer with a fragment copies the partial lines and gives the fragment back. -/
theorem finish_eq (hfragment : list.fragment = some index) :
    (finish list actual : Coroutine ε TransferState Unit) =
      (Coroutine.act (copyBack list index actual)).bind fun _ =>
        (FragmentPool.release index).zoom TransferState.fragmentView := by
  have haction : copyBack list index actual = fun state =>
      if actual < 0 then .ok () state
      else
        match copyFragment list index (UInt64.ofNat actual.toInt.toNat) state with
        | .ok memory => .ok () { state with memory }
        | .error cause => .error cause state := by
    funext state
    rw [copyBack, copied]
    by_cases hnegative : actual < 0
    · rw [if_pos hnegative, if_pos hnegative]
    · rw [if_neg hnegative, if_neg hnegative]
  rw [haction, finish, hfragment]
  rfl

/-- A page list without a fragment has nothing to copy and nothing to give back. -/
theorem finish_eq_done (hfragment : list.fragment = none) :
    (finish list actual : Coroutine ε TransferState Unit) = .done () := by
  rw [finish, hfragment]
  rfl

/-- A run whose copy succeeds leaves what was copied and returns the fragment exactly once. -/
theorem runs_finish {memory : Memory} {result : Except Fault Unit}
    (hfragment : list.fragment = some index) (hmay : machine.scheduler.mayLock = true)
    (hlent : machine.shared.fragments.IsLent index)
    (hcopied : copied list index actual machine.shared = .ok memory)
    (hrun : Coroutine.Runs host (Undisturbed index) (finish list actual) machine result last) :
    result = .ok () ∧ last.shared.memory = memory ∧
      machine.shared.fragments.GotBack last.shared.fragments index := by
  rw [finish_eq hfragment] at hrun
  have haction : copyBack list index actual machine.shared =
      .ok () { machine.shared with memory } := by
    rw [copyBack, hcopied]
  rcases hrun.split with ⟨_, middle, hcopy, hreturn⟩ | ⟨cause, -, hcopy⟩
  · obtain ⟨_, hdone, rfl⟩ := hcopy.act_ok
    rw [haction] at hdone
    cases hdone
    refine runs_release ?_ ?_ hreturn
    · exact hmay
    · exact hlent
  · rcases hcopy.of_act with ⟨_, _, -, hnever, -⟩ | ⟨_, _, hfault, -, -⟩
    · cases hnever
    · rw [haction] at hfault
      cases hfault

/-- With the guard free, finishing a transfer whose copy succeeds takes one turn. -/
theorem turn_finish {memory : Memory} (hfragment : list.fragment = some index)
    (hmay : machine.scheduler.mayLock = true) (hlent : machine.shared.fragments.IsLent index)
    (hcopied : copied list index actual machine.shared = .ok memory)
    (hguard : machine.shared.fragments.guard.isLocked = false) :
    (finish list actual).turn host machine = .returned () (machine.withShared
      { machine.shared with memory, fragments := machine.shared.fragments.returned index }) := by
  have haction : copyBack list index actual machine.shared =
      .ok () { machine.shared with memory } := by
    rw [copyBack, hcopied]
  rw [finish_eq hfragment, Coroutine.turn_bind, Coroutine.turn_act, haction]
  simp only [Coroutine.carryOn]
  rw [turn_release_zoom, turn_returning_zoom, if_neg]
  · rfl
  · simp only [Machine.withShared_shared, hguard]
    exact Bool.false_ne_true
  · exact hmay
  · exact hlent
  · exact hmay
  · exact hlent

/-- With the guard free, finishing a transfer whose fragment is free already is a bug. -/
theorem turn_finish_free {memory : Memory} (hfragment : list.fragment = some index)
    (hmay : machine.scheduler.mayLock = true)
    (hindex : index < machine.shared.fragments.count)
    (hfree : machine.shared.fragments.free &&& FragmentPool.bit index ≠ 0)
    (hcopied : copied list index actual machine.shared = .ok memory)
    (hguard : machine.shared.fragments.guard.isLocked = false) :
    ∃ last, (finish list actual).turn host machine = .failed (.bug none) last := by
  have haction : copyBack list index actual machine.shared =
      .ok () { machine.shared with memory } := by
    rw [copyBack, hcopied]
  have hunlocked : ¬ machine.shared.fragments.guard.isLocked = true := by
    rw [hguard]
    exact Bool.false_ne_true
  let middle := machine.withShared { machine.shared with memory }
  obtain ⟨last, hrelease⟩ : ∃ last, (FragmentPool.release index).turn (.still ε FragmentPool)
      (middle.part TransferState.fragmentView) = .failed (.bug none) last :=
    FragmentPool.turn_release_free _ hmay hunlocked hindex hfree
  rw [finish_eq hfragment, Coroutine.turn_bind, Coroutine.turn_act, haction]
  simp only [Coroutine.carryOn]
  rw [Coroutine.turn_zoom lawful_fragmentView (FragmentPool.within_release index), hrelease]
  exact ⟨_, rfl⟩

/-! ## What the copies do -/

/-- The pool's line can be read off the size of its fragments. -/
theorem cacheLine_of_lends {pool : FragmentPool} {line fragment : UInt64}
    (hlends : pool.Lends index line fragment) : pool.cacheLine = line := by
  have htwo : (2 : UInt64).toNat = 2 := rfl
  rw [← UInt64.toNat_inj, FragmentPool.cacheLine, UInt64.toNat_div, hlends.size, htwo]
  omega

/-- The lines of a fragment are not empty, and two of them fit in a word. -/
theorem size_of_lends {pool : FragmentPool} {line fragment : UInt64}
    (hlends : pool.Lends index line fragment) :
    0 < line.toNat ∧ 2 * line.toNat ≤ 2 ^ 64 := by
  have hword := pool.fragmentSize.toNat_lt
  rw [hlends.size] at hword
  exact ⟨Nat.pos_of_isPowerOfTwo ((isPowerOfTwo_iff line).1 hlends.power), Nat.le_of_lt hword⟩

/-- No signed count of the device is above the largest positive one. -/
theorem toNat_toInt_lt (actual : Int32) : actual.toInt.toNat < 2 ^ 31 := by
  have hbound := actual.toInt_lt
  omega

/-- The copies of a transfer that was not given up, if its end stays below the top of the
address space. -/
theorem copied_eq_ok {state : TransferState} {line fragment : UInt64}
    (hoffset : list.offset = pageOffset list.buffer)
    (hlends : state.fragments.Lends index line fragment) (hcounted : 0 ≤ actual.toInt)
    (hroom : headBytes (list.buffer.toNat % 4096) line.toNat < actual.toInt.toNat →
      tailBytes (list.buffer.toNat % 4096) actual.toInt.toNat line.toNat ≠ 0 →
      list.buffer.toNat + actual.toInt.toNat -
        tailBytes (list.buffer.toNat % 4096) actual.toInt.toNat line.toNat < 2 ^ 64) :
    copied list index actual state =
      .ok (delivered state.memory fragment list.buffer (list.buffer.toNat % 4096) line.toNat
        actual.toInt.toNat) := by
  have hbound := toNat_toInt_lt actual
  have hplace : list.offset.toNat = list.buffer.toNat % 4096 := by
    rw [hoffset, toNat_pageOffset]
  have hcount : (UInt64.ofNat actual.toInt.toNat).toNat = actual.toInt.toNat :=
    UInt64.toNat_ofNat_of_lt' (Nat.lt_trans hbound (by decide))
  have hnot : ¬ actual < 0 := by
    rw [Int32.lt_iff_toInt_lt]
    exact Int.not_lt.2 hcounted
  rw [copied, if_neg hnot]
  have hcopy : copyFragment list index (UInt64.ofNat actual.toInt.toNat) state =
      .ok (delivered state.memory fragment list.buffer list.offset.toNat line.toNat
        (UInt64.ofNat actual.toInt.toNat).toNat) := by
    refine copyFragment_eq_ok (cacheLine_of_lends hlends)
      ((isPowerOfTwo_iff line).1 hlends.power) hlends.address ?_ ?_ ?_
    · omega
    · omega
    · rw [hplace, hcount]
      exact hroom
  rw [hcopy, hplace, hcount]

/-- What is known of a page list that was built. -/
theorem of_create {busOf : UInt64 → UInt32} {buffer length : UInt64} {direction : Direction}
    {between : Machine ε TransferState → Machine ε TransferState → Prop}
    {before after : Machine ε TransferState}
    (hcreate : Coroutine.Runs host between (create busOf buffer length direction) before
      (.ok (.ok list)) after) :
    list.buffer = buffer ∧ list.length = length ∧ list.offset = pageOffset buffer ∧
      buffer.toNat + length.toNat ≤ 2 ^ 64 := by
  obtain ⟨_, _, _, _, _, _, -, hfits, -, -, rfl, -⟩ := runs_create hcreate
  exact ⟨rfl, rfl, rfl, hfits⟩

/-! ## Received bytes and neighbouring memory -/

section Created

variable {busOf : UInt64 → UInt32} {buffer length : UInt64} {direction : Direction}
  {between : Machine ε TransferState → Machine ε TransferState → Prop}
  {before after : Machine ε TransferState} {line fragment : UInt64}

/-- A misaligned read of at most the length of the buffer ends with the received bytes at the
beginning of the buffer, all other memory as it was and the fragment free again; with the guard
free it ends in one turn. -/
theorem finish_delivers_received
    (hcreate : Coroutine.Runs host between (create busOf buffer length .read) before
      (.ok (.ok list)) after)
    (hfragment : list.fragment = some index) (hready : Ready machine index line fragment)
    (hapart : Memory.Apart fragment (2 * line.toNat) buffer length.toNat)
    {content : List UInt8} (hcount : actual.toInt = content.length)
    (hlength : content.length ≤ length.toNat)
    (hreceived : Received machine.shared.memory fragment buffer (buffer.toNat % 4096) line.toNat
      content) :
    (∀ result last,
      Coroutine.Runs host (Undisturbed index) (finish list actual) machine result last →
      result = .ok () ∧ last.shared.memory.Holds buffer content ∧
        (∀ address, ¬ (address - buffer).toNat < content.length →
          last.shared.memory.byte address = machine.shared.memory.byte address) ∧
        last.shared.fragments.isFree index = true) ∧
    (machine.shared.fragments.guard.isLocked = false →
      ∃ last, (finish list actual).turn host machine = .returned () last) := by
  obtain ⟨rfl, -, hoffset, hfits⟩ := of_create hcreate
  obtain ⟨hline, hsize⟩ := size_of_lends hready.lends
  have hactual : actual.toInt.toNat = content.length := by omega
  have hlong := length.toNat_lt
  have hcopied : copied list index actual machine.shared = .ok (delivered machine.shared.memory
      fragment list.buffer (list.buffer.toNat % 4096) line.toNat content.length) := by
    rw [← hactual]
    refine copied_eq_ok hoffset hready.lends (by omega) ?_
    intro _ hpartial
    omega
  constructor
  · intro result last hrun
    obtain ⟨hresult, hmemory, pool, hlent, -, hpool⟩ :=
      runs_finish hfragment hready.core hready.lends.lent hcopied hrun
    rw [hmemory, hpool]
    refine ⟨hresult, ?_, ?_, ?_⟩
    · exact holds_delivered hline hsize (by omega) (hapart.mono hlength) hreceived
    · intro address houtside
      have hplace := Memory.addressAt_sub list.buffer address
      rw [← hplace]
      refine byte_delivered_of_not_overruns _ hline hsize (hapart.mono hlength) (by omega)
        (not_overruns_of_le (Nat.le_refl _)) (UInt64.toNat_lt _) (Nat.le_of_not_lt houtside)
    · have hindex : index < 64 := Nat.lt_of_lt_of_le hready.lends.lent.1 hready.lends.bounded
      rw [FragmentPool.isFree_returned pool hindex, decide_eq_true rfl, Bool.or_true]
  · intro hguard
    exact ⟨_, turn_finish hfragment hready.core hready.lends.lent hcopied hguard⟩

/-- Zeroed memory with a heap and one free fragment of two lines of four bytes. -/
def smallLines : TransferState where
  memory := Memory.zeroed
  heap := Heap.ofRange 0x2000000 0x2100000
  fragments :=
    { base := 0x1c00000, fragmentSize := 8, count := 1, free := 1, available := { count := 1 } }

theorem smallLines_lends :
    FragmentPool.Lends { base := 0x1c00000, fragmentSize := 8, count := 1 } 0 4 0x1c00000 where
  power := by decide
  size := by decide
  address := by decide
  bounded := by decide
  lent := by decide

set_option maxRecDepth 4000 in
/-- A read of nine bytes from the middle of a line gets the fragment. -/
theorem exists_create_nine :
    ∃ (list : PageList) (after : Machine Empty TransferState),
      Coroutine.Runs (Host.still Empty TransferState) (fun _ _ => True)
        (create busOfPhysical 0x2080002 9 .read) { shared := smallLines } (.ok (.ok list)) after ∧
      list.fragment = some 0 ∧ Ready after 0 4 0x1c00000 ∧
      after.shared.fragments.guard.isLocked = false :=
  ⟨_, _, .returned rfl, rfl, ⟨rfl, smallLines_lends⟩, rfl⟩

/-- Nine bytes as the device leaves them. -/
def nineReceived : Memory :=
  ((Memory.zeroed.storeBytes 0x1c00000 [1, 2]).storeBytes 0x1c00004 [7, 8, 9]).storeBytes
    0x2080004 [3, 4, 5, 6]

/-- The nine bytes arrive: two from the first line, three from the second, and four that were
in the buffer. -/
theorem finish_delivers_nine :
    ∃ (list : PageList) (after last : Machine Empty TransferState),
      Coroutine.Runs (Host.still Empty TransferState) (fun _ _ => True)
        (create busOfPhysical 0x2080002 9 .read) { shared := smallLines } (.ok (.ok list)) after ∧
      list.fragment = some 0 ∧
      (finish list 9).turn (Host.still Empty TransferState)
        (after.withShared { after.shared with memory := nineReceived }) = .returned () last ∧
      last.shared.memory.Holds 0x2080002 [1, 2, 3, 4, 5, 6, 7, 8, 9] ∧
      last.shared.fragments.isFree 0 = true := by
  obtain ⟨list, after, hcreate, hfragment, hready, hguard⟩ := exists_create_nine
  let machine := after.withShared { after.shared with memory := nineReceived }
  have hmachine : Ready machine 0 4 0x1c00000 := ⟨hready.core, hready.lends⟩
  have hreceived : Received nineReceived 0x1c00000 0x2080002
      ((0x2080002 : UInt64).toNat % 4096) (4 : UInt64).toNat [1, 2, 3, 4, 5, 6, 7, 8, 9] :=
    ⟨by decide, by decide, fun _ => by decide⟩
  have hcount : (9 : Int32).toInt = ([1, 2, 3, 4, 5, 6, 7, 8, 9] : List UInt8).length := by decide
  have hapart : Memory.Apart 0x1c00000 (2 * (4 : UInt64).toNat) 0x2080002 (9 : UInt64).toNat :=
    Memory.Apart.of_le (by decide) (by decide)
  have hdelivers := finish_delivers_received hcreate hfragment hmachine hapart hcount
    (by decide) hreceived
  obtain ⟨last, hturn⟩ := hdelivers.2 hguard
  have hlast := hdelivers.1 _ _ (.returned hturn)
  exact ⟨list, after, last, hcreate, hfragment, hturn, hlast.2.1, hlast.2.2.2⟩

/-- Copies that do not overrun stay below the top of the address space. -/
theorem copied_eq_ok_of_stays (hoffset : list.offset = pageOffset list.buffer)
    (hfits : list.buffer.toNat + list.length.toNat ≤ 2 ^ 64) {state : TransferState}
    (hlends : state.fragments.Lends index line fragment)
    (hstays : ¬ Overruns list.length.toNat (list.buffer.toNat % 4096) line.toNat
      actual.toInt.toNat) (hcounted : ¬ actual < 0) :
    copied list index actual state =
      .ok (delivered state.memory fragment list.buffer (list.buffer.toNat % 4096) line.toNat
        actual.toInt.toNat) := by
  have hline := (size_of_lends hlends).1
  rw [Int32.lt_iff_toInt_lt] at hcounted
  refine copied_eq_ok hoffset hlends (Int.not_lt.1 hcounted) ?_
  rw [Overruns] at hstays
  omega

/-- The copies of a transfer succeed and change no byte outside its buffer if they do not
overrun, and change nothing if the transfer was given up. -/
theorem exists_copied_inside (hoffset : list.offset = pageOffset list.buffer)
    (hfits : list.buffer.toNat + list.length.toNat ≤ 2 ^ 64) {state : TransferState}
    (hlends : state.fragments.Lends index line fragment)
    (hapart : Memory.Apart fragment (2 * line.toNat) list.buffer list.length.toNat)
    (hstays : ¬ Overruns list.length.toNat (list.buffer.toNat % 4096) line.toNat
      actual.toInt.toNat) :
    ∃ memory, copied list index actual state = .ok memory ∧
      (∀ address, ¬ (address - list.buffer).toNat < list.length.toNat →
        memory.byte address = state.memory.byte address) ∧
      (actual < 0 → memory = state.memory) := by
  obtain ⟨hline, hsize⟩ := size_of_lends hlends
  by_cases hnegative : actual < 0
  · refine ⟨state.memory, ?_, fun _ _ => rfl, fun _ => rfl⟩
    rw [copied, if_pos hnegative]
  · refine ⟨_, copied_eq_ok_of_stays hoffset hfits hlends hstays hnegative, ?_,
      fun hgiven => absurd hgiven hnegative⟩
    intro address houtside
    have hplace := Memory.addressAt_sub list.buffer address
    rw [← hplace]
    exact byte_delivered_of_not_overruns _ hline hsize hapart
      (Nat.lt_trans (toNat_toInt_lt actual) (by decide)) hstays (UInt64.toNat_lt _)
      (Nat.le_of_not_lt houtside)

/-- Where a fragment lies is all that the copies ask the pool: they succeed whether or not it is
lent. -/
theorem exists_copied (hoffset : list.offset = pageOffset list.buffer)
    (hfits : list.buffer.toNat + list.length.toNat ≤ 2 ^ 64) {state : TransferState}
    (hindex : index < 64) (hpower : isPowerOfTwo line = true)
    (hsize : state.fragments.fragmentSize.toNat = 2 * line.toNat)
    (haddress : state.fragments.address (UInt64.ofNat index) = .ok fragment)
    (hcount : actual.toInt ≤ list.length.toNat) :
    ∃ memory, copied list index actual state = .ok memory := by
  let lending : FragmentPool := { state.fragments with free := 0, count := 64 }
  have hlends : lending.Lends index line fragment :=
    ⟨hpower, hsize, haddress, Nat.le_refl 64, hindex, UInt64.zero_and⟩
  have hsame : copied list index actual state =
      copied list index actual { state with fragments := lending } := rfl
  by_cases hnegative : actual < 0
  · exact ⟨state.memory, by rw [copied, if_pos hnegative]⟩
  · exact ⟨_, hsame.trans (copied_eq_ok_of_stays hoffset hfits hlends
      (not_overruns_of_le (by omega)) hnegative)⟩

/-- A run whose copies do not overrun stays inside the buffer. -/
theorem finish_stays_inside (hoffset : list.offset = pageOffset list.buffer)
    (hfits : list.buffer.toNat + list.length.toNat ≤ 2 ^ 64)
    (hfragment : list.fragment = some index) (hready : Ready machine index line fragment)
    (hapart : Memory.Apart fragment (2 * line.toNat) list.buffer list.length.toNat)
    (hstays : ¬ Overruns list.length.toNat (list.buffer.toNat % 4096) line.toNat
      actual.toInt.toNat) {result : Except Fault Unit}
    (hrun : Coroutine.Runs host (Undisturbed index) (finish list actual) machine result last) :
    result = .ok () ∧ StaysInside list actual index machine.shared last.shared := by
  obtain ⟨memory, hcopied, hinside, hgiven⟩ :=
    exists_copied_inside hoffset hfits hready.lends hapart hstays
  obtain ⟨hresult, rfl, hback⟩ :=
    runs_finish hfragment hready.core hready.lends.lent hcopied hrun
  exact ⟨hresult, hinside, hgiven, hback⟩

/-- Copies that overrun succeed all the same if the count stays in the address space. -/
theorem copied_overrunning (hoffset : list.offset = pageOffset list.buffer)
    {state : TransferState} (hlends : state.fragments.Lends index line fragment)
    (hfits : list.buffer.toNat + actual.toInt.toNat ≤ 2 ^ 64)
    (hoverruns : Overruns list.length.toNat (list.buffer.toNat % 4096) line.toNat
      actual.toInt.toNat) :
    copied list index actual state =
      .ok (delivered state.memory fragment list.buffer (list.buffer.toNat % 4096) line.toNat
        actual.toInt.toNat) := by
  have hcounted : 0 ≤ actual.toInt := by
    rw [Overruns] at hoverruns
    omega
  exact copied_eq_ok hoffset hlends hcounted (by omega)

/-- Memory in which the bytes of one block are told from all others. -/
def marking (start : UInt64) (size : Nat) : Memory :=
  Memory.zeroed.store start size fun _ => 1

theorem byte_marking (start : UInt64) (size : Nat) (address : UInt64) :
    (marking start size).byte address = if (address - start).toNat < size then 1 else 0 :=
  rfl

/-- A transfer whose copies overrun puts a byte of its fragment outside the buffer. -/
theorem finish_leaves_buffer (hoffset : list.offset = pageOffset list.buffer)
    (hfragment : list.fragment = some index) (hready : Ready machine index line fragment)
    (hguard : machine.shared.fragments.guard.isLocked = false)
    (hapart : Memory.Apart fragment (2 * line.toNat) list.buffer actual.toInt.toNat)
    (hfits : list.buffer.toNat + actual.toInt.toNat ≤ 2 ^ 64)
    (hoverruns : Overruns list.length.toNat (list.buffer.toNat % 4096) line.toNat
      actual.toInt.toNat) :
    ∃ memory last address, ¬ (address - list.buffer).toNat < list.length.toNat ∧
      (finish list actual).turn host (machine.withShared { machine.shared with memory }) =
        .returned () last ∧ last.shared.memory.byte address ≠ memory.byte address := by
  obtain ⟨hline, hsize⟩ := size_of_lends hready.lends
  have hbound := toNat_toInt_lt actual
  -- In this memory a byte of the fragment differs from every byte that the transfer reaches.
  have hbytes := byte_marking fragment (2 * line.toNat)
  generalize marking fragment (2 * line.toNat) = memory at hbytes
  have hcopied : copied list index actual { machine.shared with memory } =
      .ok (delivered memory fragment list.buffer (list.buffer.toNat % 4096) line.toNat
        actual.toInt.toNat) :=
    copied_overrunning hoffset hready.lends hfits hoverruns
  obtain ⟨place, source, houtside, hplace, hsource, hbyte⟩ :=
    exists_byte_delivered_of_overruns memory hline hsize hapart (by omega) hoverruns
  have hmarked : memory.byte (Memory.addressAt fragment source) = 1 := by
    rw [hbytes, Memory.toNat_addressAt_sub fragment (by omega), if_pos hsource]
  have hblank : memory.byte (Memory.addressAt list.buffer place) = 0 := by
    have hinside : (Memory.addressAt list.buffer place - list.buffer).toNat <
        actual.toInt.toNat := by
      rw [Memory.toNat_addressAt_sub list.buffer (by omega)]
      exact hplace
    rw [hbytes, if_neg (fun hmark => hapart _ hmark hinside)]
  refine ⟨memory, _, Memory.addressAt list.buffer place, ?_,
    turn_finish hfragment hready.core hready.lends.lent hcopied hguard, ?_⟩
  · rw [Memory.toNat_addressAt_sub list.buffer (by omega)]
    omega
  · change (delivered memory fragment list.buffer (list.buffer.toNat % 4096) line.toNat
      actual.toInt.toNat).byte _ ≠ _
    rw [hbyte, hmarked, hblank]
    decide

end Created

/-- Finishing a transfer starts no threads, runs no rounds and stays on its core. -/
theorem within_finish (list : PageList) (actual : Int32) :
    (finish list actual : Coroutine ε TransferState Unit).Within fun _ _ => True := by
  cases hfragment : list.fragment with
  | none =>
    rw [finish_eq_done hfragment]
    trivial
  | some index =>
    rw [finish_eq hfragment]
    refine Coroutine.Within.bind ⟨fun _ _ => trivial, fun _ => trivial⟩ fun _ => ?_
    exact (FragmentPool.within_release index).zoom fun _ _ => trivial

/-- What leaves a transfer undisturbed as code on a part of the state sees it. -/
theorem undisturbed_of_seenThrough {τ : Type} {view : Coroutine.View τ TransferState}
    (index : Nat) (given taken : Machine ε TransferState)
    (hseen : Coroutine.seenThrough view
      (fun given taken => Undisturbed index (given.part view) (taken.part view)) given taken) :
    Undisturbed index given taken := by
  obtain ⟨whole, next, hothers, hscheduler, hshared, rfl⟩ := hseen
  refine ⟨?_, ?_, ?_⟩
  · rw [hshared]
    exact hothers.memory
  · rw [hscheduler]
    exact hothers.core
  · rw [hshared]
    exact hothers.lent

end PageList

namespace Kernel

variable {ε η κ : Type} {host : Host ε (Kernel η κ)}
  {between : Machine ε (Kernel η κ) → Machine ε (Kernel η κ) → Prop}
  {machine last : Machine ε (Kernel η κ)}

theorem lawful_transferView :
    (transferView : Coroutine.View (Kernel η κ) TransferState).Lawful :=
  ⟨fun _ => rfl, fun _ _ => rfl, fun _ _ _ => rfl⟩

/-- Completing a transfer with a page list finishes the list within the kernel's state and then
forgets it. -/
theorem completeBulk_eq {bulk : Bulk} {list : PageList} (hlist : bulk.pageList = some list) :
    (completeBulk bulk : Coroutine ε (Kernel η κ) Bulk) =
      ((PageList.finish list bulk.actual).zoom transferView).bind fun _ =>
        .done { bulk with pageList := none } := by
  rw [completeBulk, hlist]
  rfl

/-- Completing a transfer of the engine finishes its page list, with the count that the device
reported, and then forgets the page list. -/
theorem runs_completeBulk {bulk : Bulk} {list : PageList} {result : Except Fault Bulk}
    (hlist : bulk.pageList = some list)
    (hrun : Coroutine.Runs host between (completeBulk bulk) machine result last) :
    ∃ done left,
      Coroutine.Runs (.still ε TransferState) (Coroutine.seenThrough transferView between)
        (PageList.finish list bulk.actual) (machine.part transferView) done left ∧
      left.shared = transferView.get last.shared ∧
      result = done.map fun _ => { bulk with pageList := none } := by
  rw [completeBulk_eq hlist] at hrun
  rcases hrun.split with ⟨_, middle, hfinish, hforget⟩ | ⟨cause, rfl, hfinish⟩
  · obtain ⟨rfl, rfl⟩ := hforget.of_done
    obtain ⟨left, hleft, -, hshared⟩ :=
      hfinish.of_zoom lawful_transferView (PageList.within_finish list bulk.actual)
    exact ⟨_, left, hleft, hshared, rfl⟩
  · obtain ⟨left, hleft, -, hshared⟩ :=
      hfinish.of_zoom lawful_transferView (PageList.within_finish list bulk.actual)
    exact ⟨_, left, hleft, hshared, rfl⟩

end Kernel

namespace PageList

variable {ε η κ : Type} {host : Host ε TransferState} {list : PageList}
  {busOf : UInt64 → UInt32} {buffer length : UInt64} {direction : Direction}
  {between : Machine ε TransferState → Machine ε TransferState → Prop}
  {before after : Machine ε TransferState}

/-- Whatever count the device reports, completing a transfer stays inside its buffer and returns
the fragment exactly once, except where more bytes are reported than were asked for and a copy
reaches past the end: there the fragment comes back all the same, but some memory has a byte
outside the buffer that changes. -/
theorem completion_stays_inside_unless_overruns
    (hcreate : Coroutine.Runs host between (create busOf buffer length direction) before
      (.ok (.ok list)) after) (actual : Int32) :
    (list.fragment = none → ∀ machine,
      (finish list actual).turn host machine = .returned () machine) ∧
    ∀ index line fragment, list.fragment = some index →
      Memory.Apart fragment (2 * line.toNat) buffer length.toNat →
      (¬ Overruns length.toNat (buffer.toNat % 4096) line.toNat actual.toInt.toNat →
        (∀ machine, Ready machine index line fragment →
          (∀ result last,
            Coroutine.Runs host (Undisturbed index) (finish list actual) machine result last →
            result = .ok () ∧ StaysInside list actual index machine.shared last.shared) ∧
          (machine.shared.fragments.guard.isLocked = false →
            ∃ last, (finish list actual).turn host machine = .returned () last)) ∧
        ∀ (kernelHost : Host ε (Kernel η κ)) (bulk : Bulk) machine result last,
          bulk.pageList = some list → bulk.actual = actual →
          Ready (machine.part Kernel.transferView) index line fragment →
          Coroutine.Runs kernelHost
            (fun given taken => Undisturbed index (given.part Kernel.transferView)
              (taken.part Kernel.transferView)) (Kernel.completeBulk bulk) machine result last →
          result = .ok { bulk with pageList := none } ∧
            StaysInside list actual index (Kernel.transferView.get machine.shared)
              (Kernel.transferView.get last.shared)) ∧
      (Overruns length.toNat (buffer.toNat % 4096) line.toNat actual.toInt.toNat →
        buffer.toNat + actual.toInt.toNat ≤ 2 ^ 64 →
        ∀ machine, Ready machine index line fragment →
          (∀ result last,
            Coroutine.Runs host (Undisturbed index) (finish list actual) machine result last →
            result = .ok () ∧
              machine.shared.fragments.GotBack last.shared.fragments index) ∧
          (Memory.Apart fragment (2 * line.toNat) buffer actual.toInt.toNat →
            machine.shared.fragments.guard.isLocked = false →
            ∃ memory last address, ¬ (address - buffer).toNat < length.toNat ∧
              (finish list actual).turn host (machine.withShared { machine.shared with memory }) =
                .returned () last ∧ last.shared.memory.byte address ≠ memory.byte address)) := by
  obtain ⟨rfl, rfl, hoffset, hfits⟩ := of_create hcreate
  constructor
  · intro hnone machine
    rw [finish_eq_done hnone]
    rfl
  · intro index line fragment hfragment hapart
    refine ⟨fun hstays => ⟨?_, ?_⟩, ?_⟩
    · intro machine hready
      refine ⟨?_, ?_⟩
      · intro result last hrun
        exact finish_stays_inside hoffset hfits hfragment hready hapart hstays hrun
      · intro hguard
        obtain ⟨memory, hcopied, -⟩ :=
          exists_copied_inside hoffset hfits hready.lends hapart hstays
        exact ⟨_, turn_finish hfragment hready.core hready.lends.lent hcopied hguard⟩
    · rintro kernelHost bulk machine result last hlist rfl hready hrun
      obtain ⟨done, left, hfinish, hshared, rfl⟩ := Kernel.runs_completeBulk hlist hrun
      have hundisturbed := hfinish.mono (undisturbed_of_seenThrough index)
      obtain ⟨rfl, hinside⟩ :=
        finish_stays_inside hoffset hfits hfragment hready hapart hstays hundisturbed
      rw [hshared] at hinside
      exact ⟨rfl, hinside⟩
    · intro hoverruns hroom machine hready
      refine ⟨?_, fun hfurther hguard =>
        finish_leaves_buffer hoffset hfragment hready hguard hfurther hroom hoverruns⟩
      intro result last hrun
      have hcopied := copied_overrunning hoffset hready.lends hroom hoverruns
      obtain ⟨hresult, -, hback⟩ :=
        runs_finish hfragment hready.core hready.lends.lent hcopied hrun
      exact ⟨hresult, hback⟩

/-- Seventeen bytes reported for a read of nine change a byte behind the buffer, and the fragment
goes back. -/
theorem completion_leaves_buffer_of_nine :
    ∃ (list : PageList) (after : Machine Empty TransferState) (memory : Memory)
        (last : Machine Empty TransferState) (address : UInt64),
      Coroutine.Runs (Host.still Empty TransferState) (fun _ _ => True)
        (create busOfPhysical 0x2080002 9 .read) { shared := smallLines } (.ok (.ok list)) after ∧
      list.fragment = some 0 ∧ ¬ (address - 0x2080002).toNat < 9 ∧
      (finish list 17).turn (Host.still Empty TransferState)
        (after.withShared { after.shared with memory }) = .returned () last ∧
      last.shared.memory.byte address ≠ memory.byte address ∧
      last.shared.fragments = after.shared.fragments.returned 0 := by
  obtain ⟨list, after, hcreate, hfragment, hready, hguard⟩ := exists_create_nine
  have hapart : Memory.Apart 0x1c00000 (2 * (4 : UInt64).toNat) 0x2080002 (9 : UInt64).toNat :=
    Memory.Apart.of_le (by decide) (by decide)
  have hexact := completion_stays_inside_unless_overruns (η := Empty) (κ := Unit) hcreate 17
  have hoverruns := (hexact.2 0 4 0x1c00000 hfragment hapart).2 (Or.inr (by decide)) (by decide)
  obtain ⟨memory, last, address, houtside, hturn, hchanged⟩ :=
    (hoverruns after hready).2 (Memory.Apart.of_le (by decide) (by decide)) hguard
  have hfilled : Ready (after.withShared { after.shared with memory }) 0 4 0x1c00000 :=
    ⟨hready.core, hready.lends⟩
  have hoverrunsFilled :=
    (hexact.2 0 4 0x1c00000 hfragment hapart).2 (Or.inr (by decide)) (by decide) _ hfilled
  obtain ⟨-, hback⟩ := hoverrunsFilled.1 _ _ (.returned hturn)
  exact ⟨list, after, memory, last, address, hcreate, hfragment, houtside, hturn, hchanged,
    hback.of_unlocked hguard⟩

end PageList

end DriverHost
