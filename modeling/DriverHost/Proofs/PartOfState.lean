import DriverHost.Proofs.TaskRun

/-!
# Code on a part of the state

Code written against a part of the state runs on the whole through a view.  Its turns and its
whole runs there are those on the part, with the rest of the state left alone, so what is proved
of a lock or of the fragment pool holds wherever it is kept.

Main results:

- Structure `Coroutine.View.Lawful`: a view whose part is put in and taken out without loss.
- Theorem `Coroutine.turn_zoom`: a turn on the whole is a turn on the part.
- Theorem `Coroutine.Runs.of_zoom`: a run on the whole is a run on the part.
-/

namespace DriverHost

variable {ε σ τ α : Type}

/-- A view whose part is put in and taken out without loss. -/
structure Coroutine.View.Lawful (view : Coroutine.View τ σ) : Prop where
  /-- Putting back what is there changes nothing. -/
  set_get : ∀ whole, view.set (view.get whole) whole = whole
  /-- What was put in is taken out. -/
  get_set : ∀ part whole, view.get (view.set part whole) = part
  /-- What is put in last counts. -/
  set_set : ∀ first second whole, view.set second (view.set first whole) = view.set second whole

/-- Surroundings for code that starts no threads and is told nothing. -/
def Host.still (ε σ : Type) : Host ε σ where
  body _ := .done ()
  notify _ shared := shared

namespace Machine

/-- The machine as code on a part of the state sees it. -/
def part (view : Coroutine.View τ σ) (machine : Machine ε τ) : Machine ε σ where
  scheduler := machine.scheduler
  shared := view.get machine.shared

/-- The machine after code on a part of the state has left that part as another machine has it. -/
def withPart (view : Coroutine.View τ σ) (machine : Machine ε τ) (left : Machine ε σ) :
    Machine ε τ :=
  { machine with scheduler := left.scheduler, shared := view.set left.shared machine.shared }

/-- Putting a part back as it is changes nothing. -/
theorem withPart_part {view : Coroutine.View τ σ} (hview : view.Lawful)
    (machine : Machine ε τ) : machine.withPart view (machine.part view) = machine := by
  simp only [withPart, part, hview.set_get]

end Machine

namespace Coroutine

/-- What a turn on a part of the state is for the whole. -/
def Turn.onWhole (view : View τ σ) (machine : Machine ε τ) : Turn ε σ α → Turn ε τ α
  | .returned value left => .returned value (machine.withPart view left)
  | .yielded rest left => .yielded (rest.zoom view) (machine.withPart view left)
  | .failed cause left => .failed cause (machine.withPart view left)

/-- A turn on the whole is a turn on the part, with the rest of the state left alone. -/
theorem turn_zoom {host : Host ε τ} {view : View τ σ} (hview : view.Lawful)
    {code : Coroutine ε σ α} (hcode : code.Within fun _ _ => True) (machine : Machine ε τ) :
    (code.zoom view).turn host machine =
      Turn.onWhole view machine (code.turn (.still ε σ) (machine.part view)) := by
  induction code generalizing machine with
  | done value =>
    simp only [zoom, turn, Turn.onWhole, Machine.withPart_part hview]
  | attempt poll next ih =>
    rw [zoom, turn_attempt, turn_attempt]
    simp only [View.lift]
    have hpart : (machine.part view).shared = view.get machine.shared := rfl
    have hscheduler : (machine.part view).scheduler = machine.scheduler := rfl
    rw [hpart, hscheduler]
    cases hpoll : poll machine.scheduler (view.get machine.shared) with
    | error cause left => rfl
    | ok found left =>
      cases found with
      | none => rfl
      | some value =>
        simp only
        rw [ih value (hcode.2 value)]
        have hmachine : (machine.withShared (view.set left machine.shared)).part view =
            (machine.part view).withShared left := by
          simp only [Machine.part, Machine.withShared, hview.get_set]
        rw [hmachine]
        cases (next value).turn (.still ε σ) ((machine.part view).withShared left) <;>
          simp only [Turn.onWhole, Machine.withPart, Machine.withShared, hview.set_set]
  | pause next ih =>
    simp only [zoom, turn, Turn.onWhole, Machine.withPart_part hview]
  | spawn entry next ih => exact hcode.elim
  | moveTo core next ih => exact hcode.elim
  | round next ih => exact hcode.elim
  | drain next ih => exact hcode.elim

/-- What the others do to the whole, as code on a part of the state sees it. -/
def seenThrough (view : View τ σ) (between : Machine ε τ → Machine ε τ → Prop)
    (given taken : Machine ε σ) : Prop :=
  ∃ whole next, between whole next ∧ given.scheduler = whole.scheduler ∧
    given.shared = view.get whole.shared ∧ taken = next.part view

/-- A run on the whole is a run on the part. -/
theorem Runs.of_zoom {host : Host ε τ} {view : View τ σ} (hview : view.Lawful)
    {between : Machine ε τ → Machine ε τ → Prop}
    {code : Coroutine ε σ α} (hcode : code.Within fun _ _ => True)
    {machine last : Machine ε τ} {result : Except Fault α}
    (hrun : Runs host between (code.zoom view) machine result last) :
    ∃ left, Runs (.still ε σ) (seenThrough view between) code (machine.part view) result left ∧
      left.scheduler = last.scheduler ∧ left.shared = view.get last.shared := by
  generalize hzoomed : code.zoom view = zoomed at hrun
  induction hrun generalizing code with
  | @returned zoomed machine value last hturn =>
    subst hzoomed
    rw [turn_zoom hview hcode] at hturn
    cases hpart : code.turn (.still ε σ) (machine.part view) with
    | returned found left =>
      rw [hpart] at hturn
      cases hturn
      exact ⟨left, .returned hpart, rfl, (hview.get_set _ _).symm⟩
    | yielded rest left => simp [hpart, Turn.onWhole] at hturn
    | failed cause left => simp [hpart, Turn.onWhole] at hturn
  | @failed zoomed machine cause last hturn =>
    subst hzoomed
    rw [turn_zoom hview hcode] at hturn
    cases hpart : code.turn (.still ε σ) (machine.part view) with
    | returned found left => simp [hpart, Turn.onWhole] at hturn
    | yielded rest left => simp [hpart, Turn.onWhole] at hturn
    | failed found left =>
      rw [hpart] at hturn
      cases hturn
      exact ⟨left, .failed hpart, rfl, (hview.get_set _ _).symm⟩
  | @resumed zoomed machine rest given taken result last hturn hothers hrest ih =>
    subst hzoomed
    rw [turn_zoom hview hcode] at hturn
    have hfirst : match code.turn (.still ε σ) (machine.part view) with
        | .returned _ _ => True
        | .yielded rest _ => True ∧ rest.Within fun _ _ => True
        | .failed _ _ => True :=
      hcode.turn_keeps (.still ε σ) (fun _ => True) (fun _ _ _ _ => trivial) trivial
    cases hpart : code.turn (.still ε σ) (machine.part view) with
    | returned found left => simp [hpart, Turn.onWhole] at hturn
    | yielded partRest left =>
      rw [hpart] at hturn hfirst
      cases hturn
      obtain ⟨reached, hreached, hscheduler, hshared⟩ := ih hfirst.2 rfl
      refine ⟨reached, .resumed hpart ?_ hreached, hscheduler, hshared⟩
      exact ⟨_, taken, hothers, rfl, (hview.get_set _ _).symm, rfl⟩
    | failed cause left => simp [hpart, Turn.onWhole] at hturn

end Coroutine

end DriverHost
