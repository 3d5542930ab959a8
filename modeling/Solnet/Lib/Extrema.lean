import Mathlib.Order.BoundedOrder.Lattice

/-! Running extremes of samples from a linear order. The running minimum marks with the least
element that there is no sample yet, although the least element may be a sample itself. -/
namespace Extrema

variable {α : Type} [LinearOrder α] [OrderBot α] {least x : α} {xs : List α}

def lower (least x : α) : α := if x < least ∨ least = ⊥ then x else least

def lowest (xs : List α) : α := xs.foldl lower ⊥

def highest (xs : List α) : α := xs.foldl max ⊥

theorem lowest_concat (xs : List α) (x : α) : lowest (xs ++ [x]) = lower (lowest xs) x := by
  rw [lowest, List.foldl_append]
  rfl

theorem highest_concat (xs : List α) (x : α) : highest (xs ++ [x]) = max (highest xs) x := by
  rw [highest, List.foldl_append]
  rfl

/-- After a sample that is the mark, the samples before it are forgotten. -/
theorem lower_eq_bot_iff : lower least x = ⊥ ↔ x = ⊥ := by
  unfold lower
  split
  · rfl
  · rename_i kept
    rw [not_or] at kept
    constructor
    · intro marked
      exact absurd marked kept.2
    · rintro rfl
      exact absurd (bot_lt_iff_ne_bot.mpr kept.2) kept.1

theorem lower_of_ne_bot (marked : least ≠ ⊥) : lower least x = min least x := by
  unfold lower
  split
  · rename_i falls
    rw [min_eq_right (falls.resolve_right marked).le]
  · rename_i kept
    rw [min_eq_left (not_lt.mp (not_or.mp kept).1)]

theorem foldl_min_eq_bot_iff : xs.foldl min least = ⊥ ↔ least = ⊥ ∨ ⊥ ∈ xs := by
  induction xs generalizing least with
  | nil => simp only [List.foldl_nil, List.not_mem_nil, or_false]
  | cons x xs ih =>
    rw [List.foldl_cons, ih, min_eq_bot, List.mem_cons, or_assoc, eq_comm (a := x)]

theorem foldl_lower (marked : least ≠ ⊥) (positive : ⊥ ∉ xs) :
    xs.foldl lower least = xs.foldl min least := by
  induction xs generalizing least with
  | nil => rfl
  | cons x xs ih =>
    obtain ⟨first, rest⟩ := not_or.mp (mt List.mem_cons.mpr positive)
    have next : min least x ≠ ⊥ := by
      rw [ne_eq, min_eq_bot, not_or]
      exact ⟨marked, fun same => first same.symm⟩
    rw [List.foldl_cons, List.foldl_cons, lower_of_ne_bot marked, ih next rest]

theorem lowest_eq_bot_iff (nonempty : xs ≠ []) : lowest xs = ⊥ ↔ xs.getLast? = some ⊥ := by
  obtain ⟨front, last, rfl⟩ : ∃ front last, xs = front ++ [last] :=
    ⟨_, _, (List.dropLast_concat_getLast nonempty).symm⟩
  rw [lowest_concat, lower_eq_bot_iff, List.getLast?_concat, Option.some.injEq]

theorem min?_eq_lowest_iff (nonempty : xs ≠ []) :
    xs.min? = some (lowest xs) ↔ ⊥ ∉ xs ∨ xs.getLast? = some ⊥ := by
  have last := lowest_eq_bot_iff nonempty
  cases xs with
  | nil => exact absurd rfl nonempty
  | cons x xs =>
    have first : lowest (x :: xs) = xs.foldl lower x := by
      rw [lowest, List.foldl_cons, lower, if_pos (.inr rfl)]
    rw [List.min?_cons', Option.some.injEq]
    by_cases marked : ⊥ ∈ x :: xs
    · have least : xs.foldl min x = ⊥ := by
        rw [foldl_min_eq_bot_iff, eq_comm]
        exact List.mem_cons.mp marked
      rw [least, eq_comm, last, or_iff_right (not_not.mpr marked)]
    · obtain ⟨here, rest⟩ := not_or.mp (mt List.mem_cons.mpr marked)
      rw [first, foldl_lower (Ne.symm here) rest]
      exact iff_of_true rfl (.inl marked)

theorem max?_eq_highest (nonempty : xs ≠ []) : xs.max? = some (highest xs) := by
  cases xs with
  | nil => exact absurd rfl nonempty
  | cons x xs => rw [List.max?_cons', highest, List.foldl_cons, max_eq_right bot_le]

end Extrema
