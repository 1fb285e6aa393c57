import DriverHost.Proofs.Answers
import DriverHost.Proofs.BringUp
import DriverHost.SystemTimer
import Mathlib.Data.Nat.Find
import Mathlib.Order.Monotone.Basic

/-!
# Timed waits

A wait reads the counter once, and then again until the difference to the first reading is large
enough.  The counter wraps, so that difference is the true one only modulo its range.  It decides
correctly as long as no two readings are further apart than what the duration leaves of the range:
then the reading at which the duration has passed comes before the counter is back where it began.

Main results:

- Definition `Paced` and structure `FirstPast`: readings that are close enough, and the one that
  ends the wait.
- Theorem `elapsed_lt_iff`: the counter tells whether that reading has come.
- Inductive relation `Coroutine.ReturnsOver`: what happens wherever code gives the processor up.
- Theorem `waits_end_at_first_reading_past`: delays and sleeps end at that reading.
-/

namespace DriverHost

variable {ε σ η δ α β : Type} {time : Nat → Nat}

/-! ## Readings of a counter -/

/-- True times of readings that follow each other: none is further behind the one before it than
what a duration leaves of the counter's range. -/
def Paced (duration : Nat) (time : Nat → Nat) : Prop :=
  ∀ k, time k ≤ time (k + 1) ∧ time (k + 1) ≤ time k + (2 ^ 32 - duration)

/-- The first reading behind the initial one at which a duration has passed since that one. -/
structure FirstPast (duration : Nat) (time : Nat → Nat) (last : Nat) : Prop where
  behind : 0 < last
  passed : time 0 + duration ≤ time last
  waiting : ∀ k, 0 < k → k < last → time k < time 0 + duration

/-- If time goes past the duration, some reading is the first to show it. -/
theorem exists_firstPast {duration : Nat}
    (hpasses : ∃ k, 0 < k ∧ time 0 + duration ≤ time k) :
    ∃ last, FirstPast duration time last := by
  classical
  refine ⟨Nat.find hpasses, (Nat.find_spec hpasses).1, (Nat.find_spec hpasses).2, ?_⟩
  intro k hk hearly
  have hnot := Nat.find_min hpasses hearly
  exact Nat.lt_of_not_le fun hpassed => hnot ⟨hk, hpassed⟩

namespace Paced

variable {duration : Nat}

/-- True time goes on. -/
theorem le (hpaced : Paced duration time) {first later : Nat} (hle : first ≤ later) :
    time first ≤ time later :=
  monotone_nat_of_le_succ (fun k => (hpaced k).1) hle

/-- A clock that is paced from the start is paced from any reading on. -/
theorem shift (hpaced : Paced duration time) (count : Nat) :
    Paced duration fun k => time (count + k) :=
  fun k => hpaced (count + k)

/-- At the reading that ends the wait, the counter is not yet back where it began. -/
theorem lt_wrap (hpaced : Paced duration time) {last : Nat} (hfirst : FirstPast duration time last)
    (hpos : 0 < duration) (hrange : duration < 2 ^ 32) : time last < time 0 + 2 ^ 32 := by
  obtain ⟨before, rfl⟩ : ∃ before, last = before + 1 :=
    Nat.exists_eq_succ_of_ne_zero (Nat.ne_of_gt hfirst.behind)
  have hstep := (hpaced before).2
  have hbefore : time before < time 0 + duration := by
    cases before with
    | zero => omega
    | succ before => exact hfirst.waiting _ (Nat.succ_pos _) (Nat.lt_succ_self _)
  omega

end Paced

/-- Readings that are close enough show that the duration has not passed exactly as long as it has
not. -/
theorem elapsed_lt_iff {duration : UInt32} {last k : Nat} (hpaced : Paced duration.toNat time)
    (hfirst : FirstPast duration.toNat time last) (hk : 0 < k) (hle : k ≤ last) :
    UInt32.ofNat (time k) - UInt32.ofNat (time 0) < duration ↔ k < last := by
  have hrange := duration.toNat_lt
  have hstart := hpaced.le (Nat.zero_le k)
  -- Within one turn of the counter, the difference of two readings is the true one.
  have hexact : time k < time 0 + 2 ^ 32 →
      (UInt32.ofNat (time k) - UInt32.ofNat (time 0)).toNat = time k - time 0 := by
    intro hnear
    rw [UInt32.toNat_sub, UInt32.toNat_ofNat', UInt32.toNat_ofNat']
    omega
  rw [UInt32.lt_iff_toNat_lt]
  rcases Nat.lt_or_eq_of_le hle with hearly | rfl
  · have hwaiting := hfirst.waiting k hk hearly
    rw [hexact (by omega)]
    exact iff_of_true (by omega) hearly
  · refine iff_of_false ?_ (Nat.lt_irrefl _)
    rcases Nat.eq_zero_or_pos duration.toNat with hzero | hpos
    · omega
    · have hpassed := hfirst.passed
      rw [hexact (hpaced.lt_wrap hfirst hpos hrange)]
      omega

/-! ## Delays -/

namespace SystemTimer

variable [Bus δ]

/-- The device after a number of readings of the counter. -/
def behind (timer : SystemTimer η) (device : δ) : Nat → δ
  | 0 => device
  | count + 1 => (timer.now (timer.behind device count)).2

/-- The first readings of the counter show the low half of the true time. -/
def Shows (timer : SystemTimer η) (device : δ) (time : Nat → Nat) (last : Nat) : Prop :=
  ∀ k ≤ last, (timer.now (timer.behind device k)).1 = UInt32.ofNat (time k)

/-- Reading the clock some times and then some more times is reading it that often together. -/
theorem behind_add (timer : SystemTimer η) (device : δ) (first more : Nat) :
    timer.behind device (first + more) = timer.behind (timer.behind device first) more := by
  induction more with
  | zero => rfl
  | succ more ih =>
    have hleft : timer.behind device (first + (more + 1)) =
        (timer.now (timer.behind device (first + more))).2 := rfl
    rw [hleft, ih]
    rfl

variable {timer : SystemTimer η} {device : δ} {duration : UInt32} {last : Nat}

/-- Polling from some reading on goes on up to the one that ends the wait. -/
theorem pollUntil?_of_shows (hpaced : Paced duration.toNat time)
    (hfirst : FirstPast duration.toNat time last) (hshows : timer.Shows device time last)
    {k : Nat} (hk : 0 < k) (hle : k ≤ last) (limit : Nat) :
    timer.pollUntil? (UInt32.ofNat (time 0)) duration limit (timer.behind device k) =
      if last < k + limit then some (timer.behind device (last + 1)) else none := by
  induction limit generalizing k with
  | zero =>
    rw [pollUntil?, if_neg (by omega)]
  | succ limit ih =>
    have hread : timer.pollUntil? (UInt32.ofNat (time 0)) duration (limit + 1)
        (timer.behind device k) =
          if (timer.now (timer.behind device k)).1 - UInt32.ofNat (time 0) < duration then
            timer.pollUntil? (UInt32.ofNat (time 0)) duration limit (timer.behind device (k + 1))
          else some (timer.behind device (k + 1)) := rfl
    rw [hread, hshows k hle]
    rcases Nat.lt_or_eq_of_le hle with hearly | rfl
    · rw [if_pos ((elapsed_lt_iff hpaced hfirst hk hle).2 hearly), ih (Nat.succ_pos k) hearly]
      have hmore : k + 1 + limit = k + (limit + 1) := by omega
      rw [hmore]
    · have hended := mt (elapsed_lt_iff hpaced hfirst hk hle).1 (Nat.lt_irrefl k)
      rw [if_neg hended, if_pos (by omega)]

/-- A delay ends with the reading at which its duration has passed, if it may poll that often. -/
theorem delay?_of_shows (hpaced : Paced duration.toNat time)
    (hfirst : FirstPast duration.toNat time last) (hshows : timer.Shows device time last)
    (limit : Nat) :
    timer.delay? limit duration device =
      if last ≤ limit then some (timer.behind device (last + 1)) else none := by
  have hstart : timer.delay? limit duration device =
      timer.pollUntil? (timer.now (timer.behind device 0)).1 duration limit
        (timer.behind device 1) := rfl
  rw [hstart, hshows 0 (Nat.zero_le _),
    pollUntil?_of_shows hpaced hfirst hshows Nat.one_pos hfirst.behind]
  have hpolls : last < 1 + limit ↔ last ≤ limit := by omega
  simp only [hpolls]

/-- A delay of milliseconds ends, and not before they have passed: it is called at or before its
first reading and returns at or after its last one. -/
theorem delayMillis?_of_shows (hpaced : Paced 1000 time)
    (hgoesOn : ∀ k, ∃ j, time k + 1000 ≤ time j)
    (hshows : ∀ last, timer.Shows device time last) (count : Nat) :
    ∃ reads,
      (∃ enough, ∀ limit, enough ≤ limit →
        timer.delayMillis? limit count device = some (timer.behind device reads)) ∧
      ∀ called returned, called ≤ time 0 → called ≤ returned →
        (∀ k < reads, time k ≤ returned) → called + 1000 * count ≤ returned := by
  induction count generalizing device time with
  | zero => exact ⟨0, ⟨0, fun _ _ => rfl⟩, fun called returned _ hreturned _ => by omega⟩
  | succ count ih =>
    obtain ⟨last, hfirst⟩ : ∃ last, FirstPast 1000 time last := by
      obtain ⟨j, hj⟩ := hgoesOn 0
      refine exists_firstPast ⟨j, Nat.pos_of_ne_zero fun hzero => ?_, hj⟩
      subst hzero
      omega
    -- The rest of the delay is a delay of its own, which begins with the reading behind this one's.
    have hlater : ∀ k, ∃ j, time (last + 1 + k) + 1000 ≤ time (last + 1 + j) := by
      intro k
      obtain ⟨j, hj⟩ := hgoesOn (last + 1 + k)
      exact ⟨j, Nat.le_trans hj (hpaced.le (by omega))⟩
    have hshown : ∀ rest, timer.Shows (timer.behind device (last + 1))
        (fun k => time (last + 1 + k)) rest := by
      intro rest k _
      rw [← behind_add]
      exact hshows _ _ (Nat.le_refl _)
    obtain ⟨reads, ⟨enough, hrest⟩, hlate⟩ := ih (hpaced.shift (last + 1)) hlater hshown
    refine ⟨last + 1 + reads, ⟨max last enough, fun limit hlimit => ?_⟩, ?_⟩
    · have hdelay : timer.delay? limit 1000 device = some (timer.behind device (last + 1)) := by
        have hduration : (1000 : UInt32).toNat = 1000 := rfl
        rw [delay?_of_shows (hduration ▸ hpaced) (hduration ▸ hfirst) (hshows last),
          if_pos (Nat.max_le.1 hlimit).1]
      rw [delayMillis?, hdelay, Option.bind_some, hrest limit (Nat.max_le.1 hlimit).2,
        ← behind_add]
    · intro called returned hcalled _ hreads
      have hended := hreads last (by omega)
      have hpassed := hfirst.passed
      have hrest : time last + 1000 * count ≤ returned :=
        hlate (time last) returned (hpaced.le (by omega)) hended fun k hk => hreads _ (by omega)
      calc called + 1000 * (count + 1)
          = called + 1000 + 1000 * count := by
            rw [Nat.mul_succ]
            omega
        _ ≤ time last + 1000 * count :=
          Nat.add_le_add_right (Nat.le_trans (Nat.add_le_add_right hcalled 1000) hpassed) _
        _ ≤ returned := hrest

end SystemTimer

/-! ## Sleeps -/

/-- The time to sleep is a thousand microseconds for each millisecond, up to the largest that fits
in a word. -/
theorem toNat_sleepDuration (millis : UInt32) :
    (sleepDuration millis).toNat = min (1000 * millis.toNat) (2 ^ 32 - 1) := by
  have hmax : UInt32.size = 2 ^ 32 := rfl
  rw [sleepDuration, UInt32.toNat_ofNat', hmax]
  omega

namespace Coroutine

/-- Code that returns, and what happened wherever it gave the processor up: the machine on which it
did so, and the one on which it was resumed. -/
inductive ReturnsOver (host : Host ε σ) : Coroutine ε σ α → Machine ε σ →
    List (Machine ε σ × Machine ε σ) → α → Machine ε σ → Prop
  /-- The code returns in this turn. -/
  | returned {code machine value last} (hturn : code.turn host machine = .returned value last) :
      ReturnsOver host code machine [] value last
  /-- The code gives the processor up and is resumed. -/
  | yielded {code machine rest given taken gaps value last}
      (hturn : code.turn host machine = .yielded rest given)
      (hrest : ReturnsOver host rest taken gaps value last) :
      ReturnsOver host code machine ((given, taken) :: gaps) value last

/-- A sequence whose first part returns at once gives the processor up where its second does. -/
theorem ReturnsOver.behind {host : Host ε σ} {code : Coroutine ε σ α} {f : α → Coroutine ε σ β}
    {machine middle last : Machine ε σ} {first : α} {value : β}
    {gaps : List (Machine ε σ × Machine ε σ)}
    (hfirst : code.turn host machine = .returned first middle)
    (hrest : ReturnsOver host (f first) middle gaps value last) :
    ReturnsOver host (code.bind f) machine gaps value last := by
  cases hrest with
  | returned hturn =>
    apply ReturnsOver.returned
    rw [turn_bind, hfirst]
    exact hturn
  | yielded hturn hrest =>
    refine .yielded ?_ hrest
    rw [turn_bind, hfirst]
    exact hturn

end Coroutine

/-- Readings of a clock by code that sleeps: the machine at each of them, and the shared state it
leaves.  The second reading follows the first one at once. -/
structure SleepReadings (clock : Action σ UInt32) (time : Nat → Nat) (last : Nat)
    (now : Nat → Machine ε σ) (left : Nat → σ) : Prop where
  shows : ∀ k ≤ last, clock (now k).shared = .ok (UInt32.ofNat (time k)) (left k)
  atOnce : now 1 = (now 0).withShared (left 0)

namespace SleepReadings

variable {clock : Action σ UInt32} {millis : UInt32} {last : Nat} {now : Nat → Machine ε σ}
  {left : Nat → σ} {host : Host ε σ}

/-- Whether a sleep goes on, after a reading of the clock. -/
def poll (clock : Action σ UInt32) (millis start : UInt32) : Action σ (Option Unit) := do
  let now ← clock
  return if now - start < sleepDuration millis then none else some ()

/-- A sleep reads the clock once and then waits for a reading that is late enough. -/
theorem sleep_eq (clock : Action σ UInt32) (millis : UInt32) :
    (sleep clock millis : Coroutine ε σ Unit) =
      (Coroutine.act clock).bind fun start => Coroutine.await (poll clock millis start) :=
  rfl

/-- The first reading takes no turn of its own. -/
theorem turn_start (hreadings : SleepReadings clock time last now left) :
    (Coroutine.act clock : Coroutine ε σ UInt32).turn host (now 0) =
      .returned (UInt32.ofNat (time 0)) (now 1) := by
  rw [Coroutine.turn_act, hreadings.shows 0 (Nat.zero_le _), hreadings.atOnce]

variable (hreadings : SleepReadings clock time last now left)
  (hpaced : Paced (sleepDuration millis).toNat time)
  (hfirst : FirstPast (sleepDuration millis).toNat time last)

include hreadings hpaced hfirst

/-- Each poll reads the clock once, and only the last one finds the time over. -/
theorem poll_eq {k : Nat} (hk : 0 < k) (hle : k ≤ last) :
    poll clock millis (UInt32.ofNat (time 0)) (now k).shared =
      .ok (if k < last then none else some ()) (left k) := by
  refine (Action.bind_of_ok (hreadings.shows k hle) _).trans ?_
  simp only [elapsed_lt_iff hpaced hfirst hk hle]
  rfl

/-- A thread that sleeps gives the processor up once behind each reading that is too early. -/
theorem await_returnsOver {k : Nat} (hk : 0 < k) (hle : k ≤ last) :
    (Coroutine.await (poll clock millis (UInt32.ofNat (time 0)))).ReturnsOver host (now k)
      ((List.range' k (last - k)).map fun k => ((now k).withShared (left k), now (k + 1))) ()
      ((now last).withShared (left last)) := by
  generalize hmore : last - k = more
  induction more generalizing k with
  | zero =>
    obtain rfl : k = last := by omega
    apply Coroutine.ReturnsOver.returned
    rw [Coroutine.turn_await, hreadings.poll_eq hpaced hfirst hk hle, if_neg (Nat.lt_irrefl k)]
  | succ more ih =>
    have hearly : k < last := by omega
    rw [List.range'_succ, List.map_cons]
    refine .yielded ?_ (ih (Nat.succ_pos k) hearly (by omega))
    rw [Coroutine.turn_await, hreadings.poll_eq hpaced hfirst hk hle, if_pos hearly]

/-- The sleep gives the processor up at every reading but the last. -/
theorem sleep_returnsOver :
    (sleep clock millis).ReturnsOver host (now 0)
      ((List.range' 1 (last - 1)).map fun k => ((now k).withShared (left k), now (k + 1))) ()
      ((now last).withShared (left last)) := by
  rw [sleep_eq]
  exact .behind hreadings.turn_start
    (hreadings.await_returnsOver hpaced hfirst Nat.one_pos hfirst.behind)

/-- The boot context runs a round behind each reading that is too early, if it may run that many. -/
theorem attemptWithRounds_eq
    (hrounds : ∀ k, 0 < k → k < last →
      ∃ count, ((now k).withShared (left k)).runOnce host = .ok count (now (k + 1)))
    {k : Nat} (hk : 0 < k) (hle : k ≤ last) (limit : Nat) :
    Machine.attemptWithRounds host (fun _ => poll clock millis (UInt32.ofNat (time 0))) limit
        (now k) =
      if last ≤ k + limit then .ok () ((now last).withShared (left last))
      else .failed .blocked ((now (k + limit)).withShared (left (k + limit))) := by
  induction limit generalizing k with
  | zero =>
    rw [Machine.attemptWithRounds, hreadings.poll_eq hpaced hfirst hk hle]
    rcases Nat.lt_or_eq_of_le hle with hearly | rfl
    · rw [if_pos hearly, if_neg (by omega)]
      rfl
    · rw [if_neg (Nat.lt_irrefl k), if_pos (Nat.le_add_right _ _)]
      rfl
  | succ limit ih =>
    rw [Machine.attemptWithRounds, hreadings.poll_eq hpaced hfirst hk hle]
    rcases Nat.lt_or_eq_of_le hle with hearly | rfl
    · obtain ⟨count, hround⟩ := hrounds k hk hearly
      have hshared : Machine.runOnce host { now k with shared := left k } =
          .ok count (now (k + 1)) := hround
      have hmore : k + 1 + limit = k + (limit + 1) := by omega
      simp only [if_pos hearly, hshared, ih (Nat.succ_pos k) hearly, hmore]
    · rw [if_neg (Nat.lt_irrefl k), if_pos (Nat.le_add_right _ _)]
      rfl

/-- In the boot context the sleep runs a round for every reading but the last, if the limit leaves
it that many. -/
theorem boot_sleep
    (hrounds : ∀ k, 0 < k → k < last →
      ∃ count, ((now k).withShared (left k)).runOnce host = .ok count (now (k + 1)))
    (limit : Nat) :
    Machine.boot host limit (sleep clock millis) (now 0) =
      if last ≤ 1 + limit then .ok () ((now last).withShared (left last))
      else .failed .blocked ((now (1 + limit)).withShared (left (1 + limit))) := by
  have hawait : ∀ start machine, Machine.boot host limit
      (Coroutine.await (poll clock millis start)) machine =
        Machine.attemptWithRounds host (fun _ => poll clock millis start) limit machine := by
    intro start machine
    rw [Coroutine.await, Machine.boot]
    cases Machine.attemptWithRounds host (fun _ => poll clock millis start) limit machine <;> rfl
  rw [sleep_eq, Machine.boot_bind, Machine.boot_of_returned hreadings.turn_start]
  simp only [hawait]
  exact hreadings.attemptWithRounds_eq hpaced hfirst hrounds Nat.one_pos hfirst.behind limit

end SleepReadings

/-! ## The end of a wait -/

/-- If no two readings are further apart than what the duration leaves of the counter's range, and
the duration passes at all, a wait ends at the first reading behind the initial one at which it has
passed: a delay has taken just the readings up to there, and a sleep gave the processor up once
behind each earlier one, or ran a round there if it is boot code.  A delay of milliseconds ends, and
not before they have passed. -/
theorem waits_end_at_first_reading_past [Bus δ] {duration : UInt32}
    (hpaced : Paced duration.toNat time)
    (hpasses : ∃ k, 0 < k ∧ time 0 + duration.toNat ≤ time k) :
    (∃ last, FirstPast duration.toNat time last ∧
      (∀ (timer : SystemTimer η) (device : δ), timer.Shows device time last → ∀ limit,
        timer.delay? limit duration device =
          if last ≤ limit then some (timer.behind device (last + 1)) else none) ∧
      ∀ (millis : UInt32), duration.toNat = min (1000 * millis.toNat) (2 ^ 32 - 1) →
        ∀ (host : Host ε σ) (clock : Action σ UInt32) (now : Nat → Machine ε σ) (left : Nat → σ),
          SleepReadings clock time last now left →
          (sleep clock millis).ReturnsOver host (now 0)
            ((List.range' 1 (last - 1)).map fun k => ((now k).withShared (left k), now (k + 1))) ()
            ((now last).withShared (left last)) ∧
          ((∀ k, 0 < k → k < last →
              ∃ count, ((now k).withShared (left k)).runOnce host = .ok count (now (k + 1))) →
            ∀ limit, Machine.boot host limit (sleep clock millis) (now 0) =
              if last ≤ 1 + limit then .ok () ((now last).withShared (left last))
              else .failed .blocked ((now (1 + limit)).withShared (left (1 + limit))))) ∧
    (duration = 1000 → (∀ k, ∃ j, time k + 1000 ≤ time j) →
      ∀ (timer : SystemTimer η) (device : δ), (∀ last, timer.Shows device time last) → ∀ count,
        ∃ reads,
          (∃ enough, ∀ limit, enough ≤ limit →
            timer.delayMillis? limit count device = some (timer.behind device reads)) ∧
          ∀ called returned, called ≤ time 0 → called ≤ returned →
            (∀ k < reads, time k ≤ returned) → called + 1000 * count ≤ returned) := by
  obtain ⟨last, hfirst⟩ := exists_firstPast hpasses
  refine ⟨⟨last, hfirst, ?_, ?_⟩, ?_⟩
  · intro timer device hshows limit
    exact SystemTimer.delay?_of_shows hpaced hfirst hshows limit
  · intro millis hduration host clock now left hreadings
    obtain rfl : sleepDuration millis = duration := by
      rw [← UInt32.toNat_inj, toNat_sleepDuration, hduration]
    exact ⟨hreadings.sleep_returnsOver hpaced hfirst, fun hrounds limit =>
      hreadings.boot_sleep hpaced hfirst hrounds limit⟩
  · rintro rfl hgoesOn timer device hshows count
    exact SystemTimer.delayMillis?_of_shows hpaced hgoesOn hshows count

/-! ## A coarse clock -/

/-- A clock that moves on by `400` microseconds with each reading. -/
structure CoarseClock where
  time : Nat

namespace CoarseClock

instance : Bus CoarseClock where
  load _ clock := (UInt32.ofNat clock.time, ⟨clock.time + 400⟩)
  save _ _ clock := clock

/-- Read the clock. -/
def read : Action CoarseClock UInt32 :=
  fun clock => .ok (UInt32.ofNat clock.time) ⟨clock.time + 400⟩

/-- The boot context alone, with the clock at some time. -/
def machine (time : Nat) : Machine Unit CoarseClock where
  shared := ⟨time⟩

/-- The example's clock goes on by 400 with each reading. -/
theorem behind_eq (timer : SystemTimer Unit) (time count : Nat) :
    timer.behind (⟨time⟩ : CoarseClock) count = ⟨time + 400 * count⟩ := by
  induction count with
  | zero => rfl
  | succ count ih =>
    have hread : timer.behind (⟨time⟩ : CoarseClock) (count + 1) =
        (timer.now (timer.behind (⟨time⟩ : CoarseClock) count)).2 := rfl
    rw [hread, ih, Nat.mul_succ, ← Nat.add_assoc]
    rfl

theorem shows (timer : SystemTimer Unit) (time last : Nat) :
    timer.Shows (⟨time⟩ : CoarseClock) (fun k => time + 400 * k) last := by
  intro k _
  rw [behind_eq]
  rfl

theorem sleepReadings (time last : Nat) :
    SleepReadings read (fun k => time + 400 * k) last (fun k => machine (time + 400 * k))
      (fun k => ⟨time + 400 * (k + 1)⟩) where
  shows k _ := by
    rw [Nat.mul_succ, ← Nat.add_assoc]
    rfl
  atOnce := rfl

theorem runOnce_machine (time : Nat) :
    (machine time).runOnce (.still Unit CoarseClock) = .ok 0 (machine time) :=
  rfl

end CoarseClock

/-- A millisecond that begins `500` microseconds before the counter wraps has passed at the third
reading behind the first one: a delay takes four readings, a sleep gives the processor up twice, and
three milliseconds take no less than they should. -/
theorem waits_end_across_wrap :
    SystemTimer.delay? (⟨0, none⟩ : SystemTimer Unit) 3 1000 (⟨4294966796⟩ : CoarseClock) =
        some ⟨4294968396⟩ ∧
      SystemTimer.delay? (⟨0, none⟩ : SystemTimer Unit) 2 1000 (⟨4294966796⟩ : CoarseClock) = none ∧
      (sleep CoarseClock.read 1).ReturnsOver (.still Unit CoarseClock)
        (CoarseClock.machine 4294966796)
        [(CoarseClock.machine 4294967596, CoarseClock.machine 4294967596),
          (CoarseClock.machine 4294967996, CoarseClock.machine 4294967996)] ()
        (CoarseClock.machine 4294968396) ∧
      Machine.boot (.still Unit CoarseClock) 2 (sleep CoarseClock.read 1)
        (CoarseClock.machine 4294966796) = .ok () (CoarseClock.machine 4294968396) ∧
      ∃ reads, (∃ enough, ∀ limit, enough ≤ limit →
        SystemTimer.delayMillis? (⟨0, none⟩ : SystemTimer Unit) limit 3
          (⟨4294966796⟩ : CoarseClock) = some ⟨4294966796 + 400 * reads⟩) ∧
        ∀ returned, 4294966796 ≤ returned →
          (∀ k < reads, 4294966796 + 400 * k ≤ returned) → 4294969796 ≤ returned := by
  have hduration : (1000 : UInt32).toNat = 1000 := rfl
  have hpaced : Paced (1000 : UInt32).toNat fun k => 4294966796 + 400 * k := by
    intro k
    simp only [hduration]
    omega
  have hpasses : ∃ k, 0 < k ∧ 4294966796 + 400 * 0 + (1000 : UInt32).toNat ≤
      4294966796 + 400 * k := ⟨3, by decide, by decide⟩
  obtain ⟨⟨last, hfirst, hdelay, hsleep⟩, hmillis⟩ :=
    waits_end_at_first_reading_past (ε := Unit) (σ := CoarseClock) (η := Unit) (δ := CoarseClock)
      hpaced hpasses
  obtain rfl : last = 3 := by
    have hpassed := hfirst.passed
    have hearly := hfirst.waiting 3 (by decide)
    rw [hduration] at hpassed hearly
    omega
  have hrounds : ∀ k, 0 < k → k < 3 → ∃ count,
      ((CoarseClock.machine (4294966796 + 400 * k)).withShared
        ⟨4294966796 + 400 * (k + 1)⟩).runOnce (.still Unit CoarseClock) =
          .ok count (CoarseClock.machine (4294966796 + 400 * (k + 1))) :=
    fun k _ _ => ⟨0, CoarseClock.runOnce_machine _⟩
  obtain ⟨hthread, hboot⟩ := hsleep 1 (by decide) (.still Unit CoarseClock) CoarseClock.read _ _
    (CoarseClock.sleepReadings 4294966796 3)
  refine ⟨?_, ?_, hthread, hboot hrounds 2, ?_⟩
  · rw [hdelay _ _ (CoarseClock.shows _ _ _), if_pos (by decide), CoarseClock.behind_eq]
  · rw [hdelay _ _ (CoarseClock.shows _ _ _), if_neg (by decide)]
  · obtain ⟨reads, hends, hlate⟩ := hmillis rfl (fun k => ⟨k + 3, by omega⟩) ⟨0, none⟩
      ⟨4294966796⟩ (CoarseClock.shows _ _) 3
    refine ⟨reads, ?_, fun returned => hlate 4294966796 returned (by decide)⟩
    rw [CoarseClock.behind_eq] at hends
    exact hends

end DriverHost
