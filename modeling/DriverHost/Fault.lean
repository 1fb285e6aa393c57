/-!
# Faults and actions

A fault is what ends the whole system at once, whichever task meets it: a bug check that
fired, a failed assertion, an arithmetic overflow, an index past the end of a buffer, or a
wait that nothing will ever end.  An action is a computation on a state that may meet one;
the state reached so far is kept, because what was printed before the fault stays printed.

Main results:

- Lemma `ensureWord_eq_ok_iff` and lemma `ensureHalf_eq_ok_iff` say exactly when a natural
  number fits a machine word.
-/

namespace DriverHost

/-- A place in driver source text, as a bug report names it. -/
structure Site where
  /-- The file's name as the reporter spelled it. -/
  file : String
  /-- The line in that file. -/
  line : UInt32
deriving DecidableEq, Repr

/-- What ends the system. -/
inductive Fault where
  /-- A bug check fired, at a place of the driver or inside the host itself. -/
  | bug (site : Option Site)
  /-- A condition the driver asserted does not hold. -/
  | assertion (condition : String) (site : Site)
  /-- A sum, difference or product does not fit its word. -/
  | overflow
  /-- An index lies past the end of a buffer. -/
  | bounds
  /-- A precondition of a function was broken by its caller. -/
  | panic (text : String)
  /-- A wait that will never end. -/
  | blocked
deriving DecidableEq, Repr

/-- The text that names a place: its file and line, or a star inside the host. -/
def Site.describe : Option Site → String
  | some site => site.file ++ ":" ++ toString site.line.toNat
  | none => "*"

/-- The text a fault carries, for the kinds that carry one. -/
def Fault.message : Fault → Option String
  | .bug site => some ("BUG at " ++ Site.describe site)
  | .assertion condition site =>
      some ("assertion failed: " ++ condition ++ " (" ++ Site.describe (some site) ++ ")")
  | .panic text => some text
  | .overflow | .bounds | .blocked => none

/-- The text a fault leaves in the log: bug checks and assertions report themselves before
they stop the system, the other kinds do not. -/
def Fault.report : Fault → Option String
  | .panic _ => none
  | fault => fault.message

/-- A computation on a state that may meet a fault. -/
abbrev Action (σ : Type) : Type → Type := EStateM Fault σ

/-- A computation without a state takes part in any action. -/
instance {σ : Type} : MonadLift (Except Fault) (Action σ) where
  monadLift
    | .ok value => fun s => .ok value s
    | .error fault => fun s => .error fault s

/-- A bug check inside the host: it fires when the condition holds. -/
def bugIf (condition : Bool) : Except Fault Unit :=
  if condition then .error (.bug none) else .ok ()

/-- A sequence of two steps gives a result exactly if both of them do. -/
theorem bind_eq_ok_iff {α β : Type} {first : Except Fault α} {next : α → Except Fault β}
    {result : β} :
    (first >>= next) = .ok result ↔ ∃ value, first = .ok value ∧ next value = .ok result := by
  cases first with
  | ok value =>
    constructor
    · intro h
      exact ⟨value, rfl, h⟩
    · rintro ⟨other, hother, h⟩
      cases hother
      exact h
  | error cause =>
    constructor
    · intro h
      cases h
    · rintro ⟨other, hother, _⟩
      cases hother

/-! ## Words that must not wrap -/

/-- A natural number as a 64-bit word, an overflow if it does not fit. -/
def ensureWord (n : Nat) : Except Fault UInt64 :=
  if n < UInt64.size then .ok (UInt64.ofNat n) else .error .overflow

/-- A natural number as a 32-bit word, an overflow if it does not fit. -/
def ensureHalf (n : Nat) : Except Fault UInt32 :=
  if n < UInt32.size then .ok (UInt32.ofNat n) else .error .overflow

/-- The sum of two words, an overflow if it does not fit. -/
def addWords (a b : UInt64) : Except Fault UInt64 :=
  ensureWord (a.toNat + b.toNat)

/-- The difference of two words, an overflow if it is negative. -/
def subWords (a b : UInt64) : Except Fault UInt64 :=
  if b ≤ a then .ok (a - b) else .error .overflow

/-- The product of two words, an overflow if it does not fit. -/
def mulWords (a b : UInt64) : Except Fault UInt64 :=
  ensureWord (a.toNat * b.toNat)

/-- A number fits a 64-bit word exactly below `2 ^ 64`, and is then that word's value. -/
theorem ensureWord_eq_ok_iff {n : Nat} {w : UInt64} :
    ensureWord n = .ok w ↔ w.toNat = n := by
  unfold ensureWord
  split
  · next h =>
    rw [Except.ok.injEq]
    constructor
    · rintro rfl
      exact UInt64.toNat_ofNat_of_lt' h
    · rintro rfl
      exact UInt64.ofNat_toNat
  · next h =>
    constructor
    · intro e
      cases e
    · rintro rfl
      exact absurd w.toNat_lt h

/-- A number fits a 32-bit word exactly below `2 ^ 32`, and is then that word's value. -/
theorem ensureHalf_eq_ok_iff {n : Nat} {w : UInt32} :
    ensureHalf n = .ok w ↔ w.toNat = n := by
  unfold ensureHalf
  split
  · next h =>
    rw [Except.ok.injEq]
    constructor
    · rintro rfl
      exact UInt32.toNat_ofNat_of_lt' h
    · rintro rfl
      exact UInt32.ofNat_toNat
  · next h =>
    constructor
    · intro e
      cases e
    · rintro rfl
      exact absurd w.toNat_lt h

end DriverHost
