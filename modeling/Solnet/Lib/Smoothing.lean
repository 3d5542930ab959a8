/-! Moving averages of natural numbers, rounded down. The old average has weight `k` and a
sample weight one. An average that is at most `k` below the samples no longer moves. -/
namespace Smoothing

def smooth (k a x : Nat) : Nat := (a * k + x) / (k + 1)

def smoothed (k a : Nat) (xs : List Nat) : Nat := xs.foldl (smooth k) a

variable {k a x low high : Nat} {xs : List Nat}

theorem le_smooth (old : low ≤ a) (sample : low ≤ x) : low ≤ smooth k a x := by
  rw [smooth, Nat.le_div_iff_mul_le k.succ_pos, Nat.mul_succ]
  exact Nat.add_le_add (Nat.mul_le_mul_right k old) sample

theorem smooth_le (old : a ≤ high) (sample : x ≤ high) : smooth k a x ≤ high := by
  apply Nat.div_le_of_le_mul
  rw [Nat.succ_mul, Nat.mul_comm k high]
  exact Nat.add_le_add (Nat.mul_le_mul_right k old) sample

theorem smooth_lt (falls : x < a) : smooth k a x < a := by
  rw [smooth, Nat.div_lt_iff_lt_mul k.succ_pos, Nat.mul_succ]
  omega

theorem lt_smooth (rises : a + k < x) : a < smooth k a x := by
  rw [smooth, Nat.lt_iff_add_one_le, Nat.le_div_iff_mul_le k.succ_pos, Nat.succ_mul, Nat.mul_succ]
  omega

/-- The average stays from the sample down to `k` below it. -/
theorem smooth_fixed (below : a ≤ x) (near : x ≤ a + k) : smooth k a x = a := by
  apply Nat.div_eq_of_lt_le
  · rw [Nat.mul_succ]
    omega
  · rw [Nat.succ_mul, Nat.mul_succ]
    omega

theorem smoothed_cons : smoothed k a (x :: xs) = smoothed k (smooth k a x) xs := rfl

theorem smoothed_concat : smoothed k a (xs ++ [x]) = smooth k (smoothed k a xs) x := by
  rw [smoothed, List.foldl_append]
  rfl

theorem le_smoothed (old : low ≤ a) (samples : ∀ x ∈ xs, low ≤ x) : low ≤ smoothed k a xs := by
  induction xs generalizing a with
  | nil => exact old
  | cons x xs ih =>
    obtain ⟨first, rest⟩ := List.forall_mem_cons.mp samples
    exact ih (le_smooth old first) rest

theorem smoothed_le (old : a ≤ high) (samples : ∀ x ∈ xs, x ≤ high) : smoothed k a xs ≤ high := by
  induction xs generalizing a with
  | nil => exact old
  | cons x xs ih =>
    obtain ⟨first, rest⟩ := List.forall_mem_cons.mp samples
    exact ih (smooth_le old first) rest

theorem smoothed_fixed (below : a ≤ x) (near : x ≤ a + k) (n : Nat) :
    smoothed k a (List.replicate n x) = a := by
  induction n with
  | zero => rfl
  | succ n ih => rw [List.replicate_succ, smoothed_cons, smooth_fixed below near, ih]

/-- Under equal samples the average settles: from above at the sample, and from below within
`k` of it. -/
theorem smoothed_settles (k a x : Nat) : ∃ n, ∀ m, n ≤ m →
    smoothed k a (List.replicate m x) ≤ x ∧ x ≤ smoothed k a (List.replicate m x) + k ∧
      (x ≤ a → smoothed k a (List.replicate m x) = x) := by
  induction distance : (a - x) + (x - a) using Nat.strongRecOn generalizing a with
  | ind d ih =>
    by_cases settled : a ≤ x ∧ x ≤ a + k
    · refine ⟨0, fun m _ => ?_⟩
      rw [smoothed_fixed settled.1 settled.2]
      exact ⟨settled.1, settled.2, Nat.le_antisymm settled.1⟩
    · have closer : (smooth k a x - x) + (x - smooth k a x) < d ∧
          (x ≤ a → x ≤ smooth k a x) := by
        by_cases falls : x < a
        · have down : smooth k a x < a := smooth_lt falls
          have above : x ≤ smooth k a x := le_smooth (Nat.le_of_lt falls) (Nat.le_refl x)
          omega
        · have up : a < smooth k a x := lt_smooth (by omega)
          have under : smooth k a x ≤ x := smooth_le (by omega) (Nat.le_refl x)
          omega
      obtain ⟨n, later⟩ := ih _ closer.1 (smooth k a x) rfl
      refine ⟨n + 1, fun m late => ?_⟩
      obtain ⟨m, rfl⟩ : ∃ m', m = m' + 1 := ⟨m - 1, by omega⟩
      obtain ⟨upper, lower, exactly⟩ := later m (Nat.le_of_succ_le_succ late)
      rw [List.replicate_succ, smoothed_cons]
      exact ⟨upper, lower, fun above => exactly (closer.2 above)⟩

end Smoothing
