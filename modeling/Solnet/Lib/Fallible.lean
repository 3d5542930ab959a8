import Mathlib.Algebra.Ring.Int.Defs
import Mathlib.Algebra.Ring.Nat

/-! Computations that fail: what a successful or a failed one went through, for
sequencing, guards and machine addition and subtraction. -/
namespace Fallible

variable {E α β : Type}

def require (condition : Prop) [Decidable condition] (failure : E) : Except E Unit :=
  if condition then .ok () else .error failure

def addWithin (width : Nat) (failure : E) (a b : Nat) : Except E Nat :=
  if a + b < 2 ^ width then .ok (a + b) else .error failure

def subWithin (failure : E) (a b : Nat) : Except E Nat :=
  if b ≤ a then .ok (a - b) else .error failure

theorem bind_of_ok (a : α) (f : α → Except E β) : (Except.ok a >>= f) = f a := rfl

theorem bind_ok_iff {x : Except E α} {f : α → Except E β} {b : β} :
    (x >>= f) = .ok b ↔ ∃ a, x = .ok a ∧ f a = .ok b := by
  cases x with
  | error e => simp [bind, Except.bind]
  | ok a => simp [bind, Except.bind]

theorem bind_error_iff {x : Except E α} {f : α → Except E β} {e : E} :
    (x >>= f) = .error e ↔ x = .error e ∨ ∃ a, x = .ok a ∧ f a = .error e := by
  cases x with
  | error e' => simp [bind, Except.bind]
  | ok a => simp [bind, Except.bind]

/-- When what follows does not fail so, the first computation does. -/
theorem bind_error_left_iff {x : Except E α} {f : α → Except E β} {e : E}
    (rest : ∀ a, x = .ok a → f a ≠ .error e) : (x >>= f) = .error e ↔ x = .error e := by
  rw [bind_error_iff]
  constructor
  · rintro (error | ⟨a, ok, error⟩)
    · exact error
    · exact absurd error (rest a ok)
  · exact .inl

theorem guarded_ok_iff {condition : Prop} [Decidable condition] {a b : α} {failure : E} :
    (if condition then Except.ok a else .error failure) = .ok b ↔ condition ∧ a = b := by
  by_cases holds : condition
  · rw [if_pos holds, Except.ok.injEq, and_iff_right holds]
  · rw [if_neg holds]
    simp only [reduceCtorEq, holds, false_and]

theorem require_ok_iff {condition : Prop} [Decidable condition] {failure : E} {u : Unit} :
    require condition failure = .ok u ↔ condition := by
  rw [require, guarded_ok_iff, and_iff_left rfl]

theorem require_error_iff {condition : Prop} [Decidable condition] {failure e : E} :
    require condition failure = .error e ↔ ¬ condition ∧ failure = e := by
  unfold require
  split <;> simp_all

theorem addWithin_ok_iff {width a b c : Nat} {failure : E} :
    addWithin width failure a b = .ok c ↔ a + b < 2 ^ width ∧ a + b = c :=
  guarded_ok_iff

theorem subWithin_ok_iff {a b c : Nat} {failure : E} :
    subWithin failure a b = .ok c ↔ b ≤ a ∧ a - b = c :=
  guarded_ok_iff

end Fallible
