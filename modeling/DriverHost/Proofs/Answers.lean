import DriverHost.Proofs.PartOfState

/-!
# Answers of code

Code is called by threads, which run it in turns, and by the boot context, which runs a round
wherever a thread would give the processor up.  This module says of both at once that code comes
to an answer without waiting, and which answers it can come to at all.

Main results:

- Theorem `Machine.boot_bind`: boot code runs one part after the other; theorem
  `Machine.boot_attempt_eq_ok` and its companions take the first step off code that comes to an end.
- Structure `Coroutine.EndsIn`: code ends without giving the processor up, with theorem
  `Coroutine.EndsIn.bind` for sequences.
- Definition `Coroutine.MayAnswer`: some run of the code ends in an answer.
- Definition `Coroutine.Returns`, with theorem `Coroutine.MayAnswer.of_returns`: a property that
  every return of the code has, every answer has.
-/

namespace DriverHost

variable {ε σ τ α β : Type} {host : Host ε σ}

/-! ## Boot code -/

/-- Code that would return in its first turn as a thread returns in the boot context. -/
theorem Machine.boot_of_returned {machine last : Machine ε σ} {code : Coroutine ε σ α} {value : α}
    (hturn : code.turn host machine = .returned value last) (limit : Nat) :
    boot host limit code machine = .ok value last := by
  induction code generalizing machine with
  | done value =>
    cases hturn
    rfl
  | attempt poll next ih =>
    rw [Coroutine.turn_attempt] at hturn
    rw [boot, attemptWithRounds]
    cases hpoll : poll machine.scheduler machine.shared with
    | error cause shared => simp [hpoll] at hturn
    | ok found shared =>
      rw [hpoll] at hturn
      cases found with
      | none => cases hturn
      | some found => exact ih found hturn
  | pause next ih => cases hturn
  | spawn entry next ih =>
    rw [Coroutine.turn] at hturn
    rw [boot]
    cases hcreate : machine.create host entry with
    | failed cause stopped => simp [hcreate] at hturn
    | ok task made =>
      rw [hcreate] at hturn
      exact ih task hturn
  | moveTo core next ih => exact ih hturn
  | round next ih => cases hturn
  | drain next ih => cases hturn

/-- The boot context runs a sequence one part after the other. -/
theorem Machine.boot_bind (host : Host ε σ) (limit : Nat) (code : Coroutine ε σ α)
    (f : α → Coroutine ε σ β) (machine : Machine ε σ) :
    boot host limit (code.bind f) machine =
      match boot host limit code machine with
      | .ok value middle => boot host limit (f value) middle
      | .failed cause stopped => .failed cause stopped := by
  induction code generalizing machine with
  | done value => rfl
  | attempt poll next ih =>
    simp only [Coroutine.bind, boot]
    cases attemptWithRounds host poll limit machine with
    | ok value middle => exact ih value middle
    | failed cause stopped => rfl
  | pause next ih =>
    simp only [Coroutine.bind, boot]
    cases machine.runOnce host with
    | ok count middle => exact ih middle
    | failed cause stopped => rfl
  | spawn entry next ih =>
    simp only [Coroutine.bind, boot]
    cases machine.create host entry with
    | ok task middle => exact ih task middle
    | failed cause stopped => rfl
  | moveTo core next ih =>
    simp only [Coroutine.bind, boot]
    exact ih _
  | round next ih =>
    simp only [Coroutine.bind, boot]
    cases machine.runOnce host with
    | ok count middle => exact ih count middle
    | failed cause stopped => rfl
  | drain next ih =>
    simp only [Coroutine.bind, boot]
    cases machine.run host limit with
    | ok _ middle => exact ih middle
    | failed cause stopped => rfl

/-- An attempt of boot code succeeds at once, or after a round. -/
theorem Machine.attemptWithRounds_cases {machine last : Machine ε σ}
    {poll : Scheduler → Action σ (Option β)} {value : β} {limit : Nat}
    (hattempt : machine.attemptWithRounds host poll limit = .ok value last) :
    (∃ shared, poll machine.scheduler machine.shared = .ok (some value) shared ∧
      last = machine.withShared shared) ∨
    ∃ shared count next behind, limit = behind + 1 ∧
      poll machine.scheduler machine.shared = .ok none shared ∧
      (machine.withShared shared).runOnce host = .ok count next ∧
      next.attemptWithRounds host poll behind = .ok value last := by
  rw [Machine.attemptWithRounds] at hattempt
  cases hpoll : poll machine.scheduler machine.shared with
  | error cause shared => simp [hpoll] at hattempt
  | ok found shared =>
    rw [hpoll] at hattempt
    cases found with
    | some found =>
      cases hattempt
      exact Or.inl ⟨shared, rfl, rfl⟩
    | none =>
      cases limit with
      | zero => cases hattempt
      | succ behind =>
        have hround : (machine.withShared shared).runOnce host =
            Machine.runOnce host { machine with shared } := rfl
        simp only [← hround] at hattempt
        cases hnext : (machine.withShared shared).runOnce host with
        | failed cause stopped => simp [hnext] at hattempt
        | ok count next =>
          rw [hnext] at hattempt
          exact Or.inr ⟨shared, count, next, behind, rfl, rfl, hnext, hattempt⟩

/-! Boot code that comes to an end got past its first step, and goes on from where that led. -/

section

variable {machine last : Machine ε σ} {value : α} {limit : Nat}

/-- When a polling wait of the boot context comes to an end, the poll has been answered after some
number of rounds, and the code has gone on from there. -/
theorem Machine.boot_attempt_eq_ok {poll : Scheduler → Action σ (Option β)}
    {next : β → Coroutine ε σ α}
    (hboot : boot host limit (.attempt poll next) machine = .ok value last) :
    ∃ found reached, machine.attemptWithRounds host poll limit = .ok found reached ∧
      boot host limit (next found) reached = .ok value last := by
  rw [boot] at hboot
  split at hboot
  · next found reached hattempt => exact ⟨found, reached, hattempt, hboot⟩
  · cases hboot

/-- In the boot context, code that gives the processor up goes on behind a round. -/
theorem Machine.boot_pause_eq_ok {next : Coroutine ε σ α}
    (hboot : boot host limit (.pause next) machine = .ok value last) :
    ∃ count reached, machine.runOnce host = .ok count reached ∧
      boot host limit next reached = .ok value last := by
  rw [boot] at hboot
  split at hboot
  · next count reached hround => exact ⟨count, reached, hround, hboot⟩
  · cases hboot

/-- A boot context that gets past a thread's creation has created the thread. -/
theorem Machine.boot_spawn_eq_ok {entry : ε} {next : TaskId → Coroutine ε σ α}
    (hboot : boot host limit (.spawn entry next) machine = .ok value last) :
    ∃ task made, machine.create host entry = .ok task made ∧
      boot host limit (next task) made = .ok value last := by
  rw [boot] at hboot
  split at hboot
  · next task made hcreate => exact ⟨task, made, hcreate, hboot⟩
  · cases hboot

theorem Machine.boot_round_eq_ok {next : Nat → Coroutine ε σ α}
    (hboot : boot host limit (.round next) machine = .ok value last) :
    ∃ count reached, machine.runOnce host = .ok count reached ∧
      boot host limit (next count) reached = .ok value last := by
  rw [boot] at hboot
  split at hboot
  · next count reached hround => exact ⟨count, reached, hround, hboot⟩
  · cases hboot

/-- A boot context that gets past its scheduling loop has left it. -/
theorem Machine.boot_drain_eq_ok {next : Coroutine ε σ α}
    (hboot : boot host limit (.drain next) machine = .ok value last) :
    ∃ reached, machine.run host limit = .ok () reached ∧
      boot host limit next reached = .ok value last := by
  rw [boot] at hboot
  split at hboot
  · next reached hrun => exact ⟨reached, hrun, hboot⟩
  · cases hboot

/-- A run that comes to an end had a round that was the last one or was followed by a shorter
run. -/
theorem Machine.run_succ_eq_ok (hrun : machine.run host (limit + 1) = .ok () last) :
    ∃ count reached, machine.runOnce host = .ok count reached ∧
      (last = reached ∨ reached.run host limit = .ok () last) := by
  rw [run] at hrun
  split at hrun
  · next reached hround =>
    cases hrun
    exact ⟨0, last, hround, Or.inl rfl⟩
  · next count reached hround => exact ⟨count + 1, reached, hround, Or.inr hrun⟩
  · cases hrun

end

namespace Coroutine

/-- A sequence on a part of the state is a sequence on the whole. -/
theorem zoom_bind (view : View τ σ) (code : Coroutine ε σ α) (f : α → Coroutine ε σ β) :
    (code.bind f).zoom view = (code.zoom view).bind fun value => (f value).zoom view := by
  induction code with
  | done value => rfl
  | attempt poll next ih => simp only [bind, zoom, ih]
  | pause next ih => simp only [bind, zoom, ih]
  | spawn entry next ih => simp only [bind, zoom, ih]
  | moveTo core next ih => simp only [bind, zoom, ih]
  | round next ih => simp only [bind, zoom, ih]
  | drain next ih => simp only [bind, zoom, ih]

/-- An action on a part of the state is an action on the whole. -/
theorem zoom_act (view : View τ σ) (action : Action σ α) :
    (act action : Coroutine ε σ α).zoom view = act (view.lift action) := by
  have hpoll : view.lift (some <$> action) = some <$> view.lift action := by
    funext whole
    rw [map_some_apply]
    simp only [View.lift]
    rw [map_some_apply]
    cases action (view.get whole) <;> rfl
  simp only [act, zoom, hpoll]

/-! ## Ends without a wait -/

/-- Code ends in an answer in one turn of a thread, and without a round of the boot context. -/
structure EndsIn (host : Host ε σ) (machine : Machine ε σ) (code : Coroutine ε σ α) (value : α)
    (last : Machine ε σ) : Prop where
  turn : code.turn host machine = .returned value last
  boot : ∀ limit, Machine.boot host limit code machine = .ok value last

namespace EndsIn

variable {machine middle last : Machine ε σ}

/-- Code that returns in its first turn never waits for the others. -/
theorem of_turn {code : Coroutine ε σ α} {value : α}
    (hturn : code.turn host machine = .returned value last) :
    EndsIn host machine code value last :=
  ⟨hturn, Machine.boot_of_returned hturn⟩

theorem done (host : Host ε σ) (machine : Machine ε σ) (value : α) :
    EndsIn host machine (.done value) value machine :=
  of_turn rfl

/-- An action that succeeds ends the code that consists of it alone, with the state that the action
leaves. -/
theorem act {action : Action σ α} {value : α} {shared : σ}
    (haction : action machine.shared = .ok value shared) :
    EndsIn host machine (act action) value (machine.withShared shared) := by
  apply of_turn
  rw [turn_act, haction]

/-- Code that comes to an end may be followed by more code that does. -/
theorem bind {code : Coroutine ε σ α} {f : α → Coroutine ε σ β} {value : α} {answer : β}
    (hcode : EndsIn host machine code value middle)
    (hnext : EndsIn host middle (f value) answer last) :
    EndsIn host machine (code.bind f) answer last := by
  apply of_turn
  rw [turn_bind, hcode.turn]
  exact hnext.turn

end EndsIn

/-! ## Answers of whole runs -/

/-- Some run of the code ends in an answer, as a thread among others or in the boot context. -/
def MayAnswer (host : Host ε σ) (machine : Machine ε σ) (code : Coroutine ε σ α) (value : α) :
    Prop :=
  (∃ between last, Runs host between code machine (.ok value) last) ∨
    ∃ limit last, Machine.boot host limit code machine = .ok value last

/-- Every return of the code has a property, whatever is found by its attempts. -/
def Returns (property : α → Prop) : Coroutine ε σ α → Prop
  | done value => property value
  | attempt _ next => ∀ found, (next found).Returns property
  | pause next => next.Returns property
  | spawn _ next => ∀ task, (next task).Returns property
  | moveTo _ next => next.Returns property
  | round next => ∀ count, (next count).Returns property
  | drain next => next.Returns property

section Returns

variable {property : α → Prop} {code : Coroutine ε σ α} {machine last : Machine ε σ}

/-- When every value that code can return leads to code with good values only, so does the sequence
of the two. -/
theorem Returns.bind {continued : β → Prop} {f : α → Coroutine ε σ β}
    (hcode : code.Returns property)
    (hnext : ∀ value, property value → (f value).Returns continued) :
    (code.bind f).Returns continued := by
  induction code with
  | done value => exact hnext value hcode
  | attempt poll next ih => exact fun found => ih found (hcode found)
  | pause next ih => exact ih hcode
  | spawn entry next ih => exact fun task => ih task (hcode task)
  | moveTo core next ih => exact ih hcode
  | round next ih => exact fun count => ih count (hcode count)
  | drain next ih => exact ih hcode

/-- What code can return does not depend on the state that its own state is a part of. -/
theorem Returns.zoom (view : View τ σ) (hcode : code.Returns property) :
    (code.zoom view).Returns property := by
  induction code with
  | done value => exact hcode
  | attempt poll next ih => exact fun found => ih found (hcode found)
  | pause next ih => exact ih hcode
  | spawn entry next ih => exact fun task => ih task (hcode task)
  | moveTo core next ih => exact ih hcode
  | round next ih => exact fun count => ih count (hcode count)
  | drain next ih => exact ih hcode

/-- Where nothing is asked of the returns, all code will do. -/
theorem returns_true (code : Coroutine ε σ α) : code.Returns fun _ => True := by
  induction code with
  | done value => trivial
  | attempt poll next ih => exact ih
  | pause next ih => exact ih
  | spawn entry next ih => exact ih
  | moveTo core next ih => exact ih
  | round next ih => exact ih
  | drain next ih => exact ih

/-- A turn returns what the code returns, or leaves code that returns nothing else. -/
theorem Returns.turn (hcode : code.Returns property) (machine : Machine ε σ) :
    match code.turn host machine with
    | .returned value _ => property value
    | .yielded rest _ => rest.Returns property
    | .failed _ _ => True := by
  induction code generalizing machine with
  | done value => exact hcode
  | attempt poll next ih =>
    rw [turn_attempt]
    cases poll machine.scheduler machine.shared with
    | error cause shared => trivial
    | ok found shared =>
      cases found with
      | none => exact hcode
      | some found => exact ih found (hcode found) _
  | pause next ih => exact hcode
  | spawn entry next ih =>
    rw [Coroutine.turn]
    cases machine.create host entry with
    | ok task created => exact ih task (hcode task) created
    | failed cause stopped => trivial
  | moveTo core next ih => exact ih hcode _
  | round next ih => trivial
  | drain next ih => trivial

/-- A property of every value that code can return holds of the value that the boot context returns
with it. -/
theorem Returns.boot (hcode : code.Returns property) {limit : Nat} {value : α}
    (hboot : Machine.boot host limit code machine = .ok value last) : property value := by
  induction code generalizing machine with
  | done value =>
    cases hboot
    exact hcode
  | attempt poll next ih =>
    obtain ⟨found, reached, -, hbehind⟩ := Machine.boot_attempt_eq_ok hboot
    exact ih found (hcode found) hbehind
  | pause next ih =>
    obtain ⟨count, reached, -, hbehind⟩ := Machine.boot_pause_eq_ok hboot
    exact ih hcode hbehind
  | spawn entry next ih =>
    obtain ⟨task, made, -, hbehind⟩ := Machine.boot_spawn_eq_ok hboot
    exact ih task (hcode task) hbehind
  | moveTo core next ih => exact ih hcode hboot
  | round next ih =>
    obtain ⟨count, reached, -, hbehind⟩ := Machine.boot_round_eq_ok hboot
    exact ih count (hcode count) hbehind
  | drain next ih =>
    obtain ⟨reached, -, hbehind⟩ := Machine.boot_drain_eq_ok hboot
    exact ih hcode hbehind

/-- Every answer of a run is one of the code's returns. -/
theorem MayAnswer.of_returns {value : α} (hanswer : MayAnswer host machine code value)
    (hcode : code.Returns property) : property value := by
  rcases hanswer with ⟨between, last, hrun⟩ | ⟨limit, last, hboot⟩
  · refine hrun.by_turns (fun rest _ => rest.Returns property)
      (fun result _ => ∀ value, result = .ok value → property value) ?_ hcode value rfl
    intro code machine hreturns
    have hkept : match code.turn host machine with
        | .returned value _ => property value
        | .yielded rest _ => rest.Returns property
        | .failed _ _ => True := hreturns.turn machine
    cases hturn : code.turn host machine with
    | returned value last =>
      rw [hturn] at hkept
      intro answer hsame
      cases hsame
      exact hkept
    | yielded rest given =>
      rw [hturn] at hkept
      exact fun _ _ => hkept
    | failed cause last =>
      intro answer hsame
      cases hsame
  · exact hcode.boot hboot

/-- The answers of a sequence are those of its second part, once the first part has ended. -/
theorem MayAnswer.behind {middle : Machine ε σ} {f : α → Coroutine ε σ β} {value : α} {answer : β}
    (hanswer : MayAnswer host machine (code.bind f) answer)
    (hcode : EndsIn host machine code value middle) : MayAnswer host middle (f value) answer := by
  rcases hanswer with ⟨between, last, hrun⟩ | ⟨limit, last, hboot⟩
  · obtain ⟨found, reached, hfirst, hrest⟩ := hrun.split_ok
    have hturn := hfirst.first_turn
    rw [hcode.turn] at hturn
    obtain ⟨hfound, rfl⟩ := hturn
    cases hfound
    exact Or.inl ⟨between, last, hrest⟩
  · rw [Machine.boot_bind, hcode.boot] at hboot
    exact Or.inr ⟨limit, last, hboot⟩

end Returns

/-- Code that ends at once has no other answer. -/
theorem EndsIn.eq_of_mayAnswer {machine last : Machine ε σ} {code : Coroutine ε σ α}
    {value other : α} (hends : EndsIn host machine code value last)
    (hanswer : MayAnswer host machine code other) : other = value := by
  rw [← bind_done code] at hanswer
  have honly : (Coroutine.done value : Coroutine ε σ α).Returns fun other => other = value := rfl
  exact (hanswer.behind hends).of_returns honly

end Coroutine

end DriverHost
