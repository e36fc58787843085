-- SUMMARY: How a run of one of the programs can end early: a failed assertion or an access outside its objects.
import Mathlib.Data.List.Basic

/-!
# Faults

The operations of the model return `Except Fault`. A fault is either an
assertion of the program that failed and made it exit, or a point from which C
does not say how the program goes on.
-/

inductive Fault where
  /-- `_assert` failed with this message, and the process exits. -/
  | assertion (message : String)
  /-- A read or write outside the array it is made through. -/
  | outOfBounds
  /-- The flags, key or value of a hash table bucket outside the table. -/
  | bucket (index : Nat)
  /-- An integer was divided by zero. -/
  | divisionByZero
  /-- The program called `exit` after an error it reported. -/
  | exit (message : String)
  /-- A loop has not ended after the rounds it is given in the model. -/
  | unfinished
  /-- The only thread waits for a lock that it would have to release itself. -/
  | blocked
  /-- A lock is released that is not held. -/
  | notHeld
  /-- An object is used through a null pointer. -/
  | nullPointer
  deriving DecidableEq, Repr

/-- `_assert`: a failed check is fatal once `setExitOnAssert` has been called. -/
def assertThat (bailOnAssertFail state : Bool) (message : String) : Except Fault Unit :=
  if bailOnAssertFail && !state then .error (.assertion message) else .ok ()

@[simp] theorem assertThat_true (bail : Bool) (message : String) :
    assertThat bail true message = .ok () := by
  simp [assertThat]

@[simp] theorem assertThat_false (message : String) :
    assertThat true false message = .error (.assertion message) := rfl

/-- A read that may run past the end of its array. -/
def readOr {α : Type} (result : Option α) : Except Fault α :=
  match result with
  | some value => .ok value
  | none => .error .outOfBounds

@[simp] theorem readOr_some {α : Type} (value : α) : readOr (some value) = .ok value := rfl

@[simp] theorem readOr_none {α : Type} :
    readOr (none : Option α) = .error .outOfBounds := rfl

theorem readOr_ne_assertion {α : Type} (result : Option α) (message : String) :
    readOr result ≠ .error (.assertion message) := by
  cases result <;> simp

theorem assertThat_ne {state : Bool} {message message' : String} (h : message ≠ message') :
    assertThat true state message ≠ .error (.assertion message') := by
  cases state <;> simp [h]

/-! ## Results that may be faults -/

namespace Except

variable {ε α β : Type}

@[simp] theorem pure_eq_ok (a : α) : (pure a : Except ε α) = .ok a := rfl

@[simp] theorem ok_bind (a : α) (f : α → Except ε β) : (.ok a >>= f) = f a := rfl

@[simp] theorem error_bind (e : ε) (f : α → Except ε β) : (.error e >>= f) = .error e := rfl

@[simp] theorem ok_map (f : α → β) (a : α) : (f <$> .ok a : Except ε β) = .ok (f a) := rfl

/-- A sequence succeeds if both of its parts do. -/
theorem bind_eq_ok_iff {x : Except ε α} {f : α → Except ε β} {b : β} :
    x >>= f = .ok b ↔ ∃ a, x = .ok a ∧ f a = .ok b := by
  cases x with
  | error e => simp
  | ok a => simp

/-- A sequence ends in an error only if one of its parts does. -/
theorem bind_ne_error {x : Except ε α} {f : α → Except ε β} {e : ε}
    (hx : x ≠ .error e) (hf : ∀ a, f a ≠ .error e) : x >>= f ≠ .error e := by
  cases x with
  | error e' => simpa using hx
  | ok a => exact hf a

/-- The error a computation ended in, if it did. -/
def errorOf : Except ε α → Option ε
  | .error e => some e
  | .ok _ => none

theorem errorOf_eq_some_iff {x : Except ε α} {e : ε} : x.errorOf = some e ↔ x = .error e := by
  cases x <;> simp [errorOf]

end Except
