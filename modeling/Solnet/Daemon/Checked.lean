import Solnet.Lib.Fallible

/-! Arithmetic of the daemon. Release builds check overflow and abort on a panic, so an
operation that overflows has no state after it. -/
namespace Solnet.Daemon
open Fallible

/-- Why an operation does not return: a panic aborts the daemon, and a semaphore
without permits is waited on. -/
inductive Halt where
  | subOverflow
  | addOverflow
  | slicePanic
  | waits
  deriving DecidableEq, Repr

abbrev Checked := Except Halt

def checkedSub (a b : Nat) : Checked Nat := subWithin .subOverflow a b

def checkedAdd (width a b : Nat) : Checked Nat := addWithin width .addOverflow a b

/-- A cast of an unsigned integer to `i32`. -/
def asI32 (n : Nat) : Int := (BitVec.ofNat 32 n).toInt

def withinI32 (halt : Halt) (n : Int) : Checked Int :=
  if -2 ^ 31 ≤ n ∧ n < 2 ^ 31 then .ok n else .error halt

theorem checkedSub_underflows_iff {a b : Nat} : checkedSub a b = .error .subOverflow ↔ a < b := by
  unfold checkedSub subWithin
  split
  · rename_i ordered
    simp only [reduceCtorEq, false_iff, Nat.not_lt, ordered]
  · rename_i late
    exact iff_of_true rfl (Nat.not_le.mp late)

theorem checkedSub_bind_underflows_iff {α : Type} {a b : Nat} {f : Nat → Checked α}
    (rest : ∀ c, f c ≠ .error .subOverflow) :
    (checkedSub a b >>= f) = .error .subOverflow ↔ a < b := by
  rw [← checkedSub_underflows_iff]
  exact bind_error_left_iff fun c _ => rest c

theorem checkedAdd_ne_underflow {width a b : Nat} :
    checkedAdd width a b ≠ .error .subOverflow := by
  unfold checkedAdd addWithin
  split <;> simp

theorem withinI32_ok {halt : Halt} {n m : Int} (ok : withinI32 halt n = .ok m) : n = m := by
  unfold withinI32 at ok
  split at ok
  · exact Except.ok.inj ok
  · cases ok

theorem withinI32_error {halt halt' : Halt} {n : Int} (error : withinI32 halt n = .error halt') :
    halt' = halt := by
  unfold withinI32 at error
  split at error
  · cases error
  · exact (Except.error.inj error).symm

end Solnet.Daemon
