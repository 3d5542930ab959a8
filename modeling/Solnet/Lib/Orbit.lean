import Mathlib.Data.Set.Basic

/-! Following a partial function from a start. It either stops, and then no point
comes twice, or it stays in a set that every step leads back into. -/
namespace Orbit

variable {N : Type*} {next : N → Option N} {x y z : N}

/-- The point after `k` steps, if that many can be taken. -/
def follow (next : N → Option N) : Nat → N → Option N
  | 0, x => some x
  | k + 1, x => (next x).bind (follow next k)

/-- Following from `x` reaches `z` and can go no further. -/
def StopsAt (next : N → Option N) (x z : N) : Prop :=
  (∃ k, follow next k x = some z) ∧ next z = none

def NoRevisit (next : N → Option N) (x : N) : Prop :=
  ∀ i j y, follow next i x = some y → follow next j x = some y → i = j

def Trap (next : N → Option N) (S : Set N) : Prop :=
  ∀ y ∈ S, ∃ z ∈ S, next y = some z

theorem follow_add (i j : Nat) (x : N) :
    follow next (i + j) x = (follow next i x).bind (follow next j) := by
  induction i generalizing x with
  | zero => simp only [Nat.zero_add, follow, Option.bind_some]
  | succ i ih =>
    rw [Nat.succ_add]
    cases step : next x with
    | none => simp only [follow, step, Option.bind_none]
    | some y => simp only [follow, step, Option.bind_some, ih]

theorem follow_stop {i k : Nat} (reaches : follow next i x = some y)
    (last : follow next k x = some z) (stop : next z = none) :
    i ≤ k ∧ follow next (k - i) y = some z := by
  rcases Nat.lt_or_ge k i with beyond | within
  · obtain ⟨d, rfl⟩ := Nat.exists_eq_add_of_lt beyond
    rw [Nat.add_assoc, follow_add, last, Option.bind_some, follow, stop] at reaches
    cases reaches
  · obtain ⟨d, rfl⟩ := Nat.exists_eq_add_of_le within
    rw [follow_add, reaches, Option.bind_some] at last
    rw [Nat.add_sub_cancel_left]
    exact ⟨within, last⟩

theorem noRevisit_of_stop (stops : StopsAt next x z) : NoRevisit next x := by
  obtain ⟨⟨k, last⟩, stop⟩ := stops
  intro i j y first second
  obtain ⟨hi, leftAfter_i⟩ := follow_stop first last stop
  obtain ⟨hj, leftAfter_j⟩ := follow_stop second last stop
  have lower := (follow_stop leftAfter_i leftAfter_j stop).1
  have upper := (follow_stop leftAfter_j leftAfter_i stop).1
  omega

theorem Trap.follow_mem {S : Set N} (trap : Trap next S) {k : Nat} (inside : x ∈ S)
    (reaches : follow next k x = some y) : y ∈ S := by
  induction k generalizing x with
  | zero =>
    obtain rfl := Option.some.inj reaches
    exact inside
  | succ k ih =>
    obtain ⟨w, stays, step⟩ := trap x inside
    rw [follow, step, Option.bind_some] at reaches
    exact ih stays reaches

theorem StopsAt.cons (step : next x = some y) (stops : StopsAt next y z) : StopsAt next x z := by
  obtain ⟨⟨k, last⟩, stop⟩ := stops
  refine ⟨⟨k + 1, ?_⟩, stop⟩
  rw [follow, step, Option.bind_some, last]

/-- Following from a point stops exactly when no trap holds the point. -/
theorem stops_iff_no_trap : (∃ z, StopsAt next x z) ↔ ¬ ∃ S, Trap next S ∧ x ∈ S := by
  constructor
  · rintro ⟨z, ⟨k, last⟩, stop⟩ ⟨S, trap, inside⟩
    obtain ⟨w, _, step⟩ := trap z (trap.follow_mem inside last)
    rw [stop] at step
    cases step
  · intro free
    by_contra endless
    -- the points from which following never stops form a trap
    refine free ⟨{y | ¬ ∃ z, StopsAt next y z}, ?_, endless⟩
    intro y never
    cases step : next y with
    | none => exact absurd ⟨y, ⟨0, rfl⟩, step⟩ never
    | some w => exact ⟨w, fun ⟨z, stops⟩ => never ⟨z, stops.cons step⟩, rfl⟩

end Orbit
