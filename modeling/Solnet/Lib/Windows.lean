import Mathlib.Data.List.Infix
import Mathlib.Algebra.Ring.Nat

/-! Times in order, and how many of them fall in an interval of a given length. For a list
that is cut into windows, and keeps the first few times of each, it is enough to look at
neighbouring windows. -/
namespace Windows

/-- Each time lies more than `w` before the one `k` places after it. -/
def Spread (k w : Nat) (times : List Nat) : Prop :=
  ∀ p ∈ times.zip (times.drop k), p.1 + w < p.2

/-- The same across two windows that keep `k` times each. -/
def Apart (k w : Nat) (a b : List Nat) : Prop :=
  ∀ p ∈ (a.take k).zip ((b.take k).drop (k - (a.take k).length)), p.1 + w < p.2

instance (k w : Nat) (times : List Nat) : Decidable (Spread k w times) :=
  inferInstanceAs (Decidable (∀ p ∈ _, _))

instance (k w : Nat) : DecidableRel (Apart k w) :=
  fun _ _ => inferInstanceAs (Decidable (∀ p ∈ _, _))

/-- The times of a window lie more than `w` before those of the window after the next. -/
def Sparse (w : Nat) : List (List Nat) → Prop
  | [] => True
  | a :: rest => (∀ x ∈ a, ∀ z ∈ rest.tail.flatten, x + w < z) ∧ Sparse w rest

variable {k w : Nat} {times a : List Nat} {rest : List (List Nat)}

theorem mem_zip_iff {α : Type*} {left right : List α} {p : α × α} :
    p ∈ left.zip right ↔ ∃ n : Nat, left[n]? = some p.1 ∧ right[n]? = some p.2 := by
  rw [List.mem_iff_getElem?]
  simp only [List.getElem?_zip_eq_some]

theorem spread_cons_iff {x : Nat} : Spread k w (x :: times) ↔
    (∀ y, (x :: times)[k]? = some y → x + w < y) ∧ Spread k w times := by
  have later : ∀ n, ((x :: times).drop k)[n + 1]? = (times.drop k)[n]? := by
    intro n
    rw [List.getElem?_drop, List.getElem?_drop, ← Nat.add_assoc, List.getElem?_cons_succ]
  constructor
  · intro spread
    constructor
    · intro y found
      refine spread (x, y) (mem_zip_iff.mpr ⟨0, rfl, ?_⟩)
      rw [List.getElem?_drop]
      exact found
    · intro p pair
      obtain ⟨n, left, right⟩ := mem_zip_iff.mp pair
      exact spread p (mem_zip_iff.mpr ⟨n + 1, left, (later n).trans right⟩)
  · rintro ⟨first, tail⟩ p pair
    obtain ⟨n, left, right⟩ := mem_zip_iff.mp pair
    cases n with
    | zero =>
      obtain rfl : x = p.1 := Option.some.inj left
      rw [List.getElem?_drop] at right
      exact first p.2 right
    | succ n => exact tail p (mem_zip_iff.mpr ⟨n, left, (later n).symm.trans right⟩)

/-- Past the `k`-th, the times of an ordered list are no earlier than it. -/
theorem le_of_mem_drop (sorted : times.Pairwise (· ≤ ·)) {z : Nat} (late : z ∈ times.drop k) :
    ∃ y, times[k]? = some y ∧ y ≤ z := by
  have ordered := sorted.drop (i := k)
  cases cut : times.drop k with
  | nil => simp [cut] at late
  | cons y later =>
    have found : times[k]? = some y := by
      rw [← Nat.add_zero k, ← List.getElem?_drop, cut]
      rfl
    refine ⟨y, found, ?_⟩
    rw [cut] at late ordered
    rcases List.mem_cons.mp late with rfl | after
    · exact Nat.le_refl z
    · exact (List.pairwise_cons.mp ordered).1 z after

/-- Up to the `k`-th, they are no later than it. -/
theorem le_of_mem_take (sorted : times.Pairwise (· ≤ ·)) {y z : Nat}
    (found : times[k]? = some y) (early : z ∈ times.take (k + 1)) : z ≤ y := by
  rw [List.take_add_one, found, List.mem_append] at early
  rcases early with before | same
  · have late : y ∈ times.drop k := by
      apply List.mem_of_getElem? (i := 0)
      rw [List.getElem?_drop]
      exact found
    rw [← List.take_append_drop k times, List.pairwise_append] at sorted
    exact sorted.2.2 z before y late
  · rw [Option.toList_some, List.mem_singleton] at same
    exact same.le

theorem countP_of_spread (sorted : times.Pairwise (· ≤ ·)) (spread : Spread k w times) (t : Nat) :
    times.countP (fun now => t ≤ now ∧ now ≤ t + w) ≤ k := by
  induction times with
  | nil => exact Nat.zero_le k
  | cons x times ih =>
    obtain ⟨first, tail⟩ := spread_cons_iff.mp spread
    by_cases starts : t ≤ x
    · have late : ((x :: times).drop k).countP (fun now => t ≤ now ∧ now ≤ t + w) = 0 := by
        rw [List.countP_eq_zero]
        intro z after
        obtain ⟨y, found, before⟩ := le_of_mem_drop sorted after
        have := first y found
        simp only [decide_eq_true_eq]
        omega
      calc (x :: times).countP _
          = ((x :: times).take k).countP _ + ((x :: times).drop k).countP _ := by
            rw [← List.countP_append, List.take_append_drop]
        _ ≤ ((x :: times).take k).length := by
            rw [late]
            exact List.countP_le_length
        _ ≤ k := List.length_take_le k _
    · rw [List.countP_cons_of_neg (by simp [starts])]
      exact ih (List.pairwise_cons.mp sorted).2 tail

theorem spread_of_countP (sorted : times.Pairwise (· ≤ ·))
    (few : ∀ t, times.countP (fun now => t ≤ now ∧ now ≤ t + w) ≤ k) : Spread k w times := by
  induction times with
  | nil => simp [Spread]
  | cons x times ih =>
    obtain ⟨after, ordered⟩ := List.pairwise_cons.mp sorted
    apply spread_cons_iff.mpr
    constructor
    · intro y found
      by_contra near
      have inside : k < (x :: times).length := (List.getElem?_eq_some_iff.mp found).1
      -- The first `k + 1` times all lie in the interval that begins at `x`.
      have all : ∀ z ∈ (x :: times).take (k + 1), decide (x ≤ z ∧ z ≤ x + w) = true := by
        intro z early
        have upper : z ≤ y := le_of_mem_take sorted found early
        have lower : x ≤ z := by
          rcases List.mem_cons.mp (List.mem_of_mem_take early) with rfl | member
          · exact Nat.le_refl z
          · exact after z member
        simp only [decide_eq_true_eq]
        omega
      have counted := (List.take_sublist (k + 1) (x :: times)).countP_le
        (p := fun now => decide (x ≤ now ∧ now ≤ x + w))
      rw [List.countP_eq_length.mpr all, List.length_take] at counted
      have := few x
      omega
    · exact ih ordered fun t =>
        (List.Sublist.countP_le (List.sublist_cons_self x times)).trans (few t)

theorem countP_le_iff_spread (sorted : times.Pairwise (· ≤ ·)) :
    (∀ t, times.countP (fun now => t ≤ now ∧ now ≤ t + w) ≤ k) ↔ Spread k w times :=
  ⟨spread_of_countP sorted, countP_of_spread sorted⟩

theorem spread_append_iff {later : List Nat} (few : a.length ≤ k) : Spread k w (a ++ later) ↔
    (∀ p ∈ a.zip (later.drop (k - a.length)), p.1 + w < p.2) ∧ Spread k w later := by
  have shifted : (a ++ later).drop k = later.drop (k - a.length) := by
    rw [List.drop_append, List.drop_eq_nil_of_le few, List.nil_append]
  have places {m : Nat} : (later.drop (k - a.length))[a.length + m]? = (later.drop k)[m]? := by
    rw [List.getElem?_drop, List.getElem?_drop]
    congr 1
    omega
  constructor
  · intro spread
    constructor
    · intro p pair
      obtain ⟨n, left, right⟩ := mem_zip_iff.mp pair
      have inside : n < a.length := (List.getElem?_eq_some_iff.mp left).1
      refine spread p (mem_zip_iff.mpr ⟨n, ?_, shifted ▸ right⟩)
      rw [List.getElem?_append_left inside]
      exact left
    · intro p pair
      obtain ⟨m, left, right⟩ := mem_zip_iff.mp pair
      refine spread p (mem_zip_iff.mpr ⟨a.length + m, ?_, ?_⟩)
      · rw [List.getElem?_append_right (Nat.le_add_right _ m), Nat.add_sub_cancel_left]
        exact left
      · rw [shifted, places]
        exact right
  · rintro ⟨first, tail⟩ p pair
    obtain ⟨n, left, right⟩ := mem_zip_iff.mp pair
    rw [shifted] at right
    by_cases inside : n < a.length
    · rw [List.getElem?_append_left inside] at left
      exact first p (mem_zip_iff.mpr ⟨n, left, right⟩)
    · obtain ⟨m, rfl⟩ := Nat.exists_eq_add_of_le (Nat.le_of_not_lt inside)
      rw [List.getElem?_append_right (Nat.le_add_right _ m), Nat.add_sub_cancel_left] at left
      rw [places] at right
      exact tail p (mem_zip_iff.mpr ⟨m, left, right⟩)

theorem forall_mem_zip_append_iff {left right : List Nat}
    (beyond : ∀ x ∈ a, ∀ z ∈ right, x + w < z) :
    (∀ p ∈ a.zip (left ++ right), p.1 + w < p.2) ↔ ∀ p ∈ a.zip left, p.1 + w < p.2 := by
  constructor
  · intro all p pair
    obtain ⟨n, first, second⟩ := mem_zip_iff.mp pair
    have inside : n < left.length := (List.getElem?_eq_some_iff.mp second).1
    refine all p (mem_zip_iff.mpr ⟨n, first, ?_⟩)
    rw [List.getElem?_append_left inside]
    exact second
  · intro all p pair
    obtain ⟨n, first, second⟩ := mem_zip_iff.mp pair
    by_cases inside : n < left.length
    · rw [List.getElem?_append_left inside] at second
      exact all p (mem_zip_iff.mpr ⟨n, first, second⟩)
    · rw [List.getElem?_append_right (Nat.le_of_not_lt inside)] at second
      exact beyond p.1 (List.mem_of_getElem? first) p.2 (List.mem_of_getElem? second)

/-- The times kept are spread when each window is apart from the next. -/
theorem spread_keep_iff {windows : List (List Nat)} (sparse : Sparse w windows) :
    Spread k w (windows.flatMap (List.take k)) ↔ windows.IsChain (Apart k w) := by
  induction windows with
  | nil => simp [Spread]
  | cons a rest ih =>
    obtain ⟨skips, sparse⟩ := sparse
    rw [List.flatMap_cons, spread_append_iff (List.length_take_le k a), ih sparse]
    cases rest with
    | nil => simp
    | cons b later =>
      rw [List.isChain_cons_cons, List.flatMap_cons, List.drop_append,
        forall_mem_zip_append_iff, Apart]
      intro x early z late
      apply skips x (List.mem_of_mem_take early)
      obtain ⟨window, member, kept⟩ := List.mem_flatMap.mp (List.mem_of_mem_drop late)
      exact List.mem_flatten.mpr ⟨window, member, List.mem_of_mem_take kept⟩

end Windows
