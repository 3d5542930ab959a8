import Mathlib.Algebra.BigOperators.Intervals
import Mathlib.Algebra.Order.BigOperators.Group.Finset
import Solnet.Lib.While
import Solnet.Program.Accounts

/-! The halving loop of `settle_compressed_batch` and the schedule it pays out:
request number `k` earns `10^10 >> (k / 10^8)` base units, and nothing from era 64. -/
namespace Solnet.Program

def initialReward : Nat := 10 * 1_000_000_000
def halvingInterval : Nat := 100_000_000

def eraReward (era : Nat) : Nat :=
  if era ≥ 64 then 0 else initialReward >>> era

structure LoopState where
  totalReward : Nat
  currentGlobal : Nat
  remaining : Nat
  deriving DecidableEq, Repr

/-- The loop body. `u64` arithmetic is checked: the two `checked_` operations give
the program's own error, a plain operator that overflows panics. -/
def eraStep (s : LoopState) : Except Failure LoopState :=
  let era := s.currentGlobal / halvingInterval
  let nextHalving := (era + 1) * halvingInterval
  let canFill := nextHalving - s.currentGlobal
  let toProcess := min canFill s.remaining
  let reward := toProcess * eraReward era
  if 2 ^ 64 ≤ nextHalving then .error .panic
  else if 2 ^ 64 ≤ reward then .error (.sns .overflow)
  else if 2 ^ 64 ≤ s.totalReward + reward then .error (.sns .overflow)
  else if 2 ^ 64 ≤ s.currentGlobal + toProcess then .error .panic
  else .ok ⟨s.totalReward + reward, s.currentGlobal + toProcess, s.remaining - toProcess⟩

/-- The reward of request number `k`. -/
def requestReward (k : Nat) : Nat := eraReward (k / halvingInterval)

/-- The reward of the requests `g, …, g + n - 1`. -/
def scheduledReward (g n : Nat) : Nat := ∑ k ∈ Finset.range n, requestReward (g + k)

theorem scheduledReward_zero (g : Nat) : scheduledReward g 0 = 0 := rfl

theorem scheduledReward_add (g m n : Nat) :
    scheduledReward g (m + n) = scheduledReward g m + scheduledReward (g + m) n := by
  unfold scheduledReward
  rw [Finset.sum_range_add]
  simp only [Nat.add_assoc]

theorem lt_next_halving (g : Nat) : g < (g / halvingInterval + 1) * halvingInterval := by
  rw [Nat.mul_comm]
  exact Nat.lt_mul_div_succ g (Nat.succ_pos _)

theorem scheduledReward_era {g n : Nat}
    (within : n ≤ (g / halvingInterval + 1) * halvingInterval - g) :
    scheduledReward g n = n * eraReward (g / halvingInterval) := by
  have same : ∀ k ∈ Finset.range n, requestReward (g + k) = eraReward (g / halvingInterval) := by
    intro k hk
    have upper : k < n := Finset.mem_range.mp hk
    have lower := Nat.div_mul_le_self g halvingInterval
    have ahead := lt_next_halving g
    have era : (g + k) / halvingInterval = g / halvingInterval := by
      apply Nat.div_eq_of_lt_le
      · omega
      · omega
    rw [requestReward, era]
  unfold scheduledReward
  rw [Finset.sum_const_nat same, Finset.card_range]

theorem eraReward_le (era : Nat) : eraReward era ≤ initialReward >>> era := by
  unfold eraReward
  split
  · exact Nat.zero_le _
  · exact Nat.le_refl _

theorem eraRewards_le (eras : Nat) :
    ∑ era ∈ Finset.range eras, eraReward era + 2 * (initialReward >>> eras) ≤
      2 * initialReward := by
  induction eras with
  | zero => simp
  | succ eras ih =>
    have pays := eraReward_le eras
    have halves : 2 * (initialReward >>> (eras + 1)) ≤ initialReward >>> eras := by
      rw [Nat.shiftRight_succ]
      exact Nat.mul_div_le _ 2
    rw [Finset.sum_range_succ]
    omega

theorem scheduledReward_eras (eras : Nat) :
    scheduledReward 0 (eras * halvingInterval) =
      halvingInterval * ∑ era ∈ Finset.range eras, eraReward era := by
  induction eras with
  | zero => simp [scheduledReward]
  | succ eras ih =>
    have current : eras * halvingInterval / halvingInterval = eras :=
      Nat.mul_div_cancel eras (Nat.succ_pos _)
    have within : halvingInterval ≤ (eras * halvingInterval / halvingInterval + 1) *
        halvingInterval - eras * halvingInterval := by
      rw [current, Nat.succ_mul]
      omega
    rw [Nat.succ_mul, scheduledReward_add, Nat.zero_add, ih, scheduledReward_era within, current,
      Finset.sum_range_succ, Nat.mul_add]

/-- The cap of the schedule, however many requests are served. -/
theorem scheduledReward_le_cap (n : Nat) : scheduledReward 0 n ≤ 2 * 10 ^ 18 := by
  have longer : scheduledReward 0 n ≤ scheduledReward 0 (n * halvingInterval) := by
    have split : n * halvingInterval = n + n * (halvingInterval - 1) := by
      unfold halvingInterval
      omega
    rw [split, scheduledReward_add]
    exact Nat.le_add_right _ _
  have eras := eraRewards_le n
  calc scheduledReward 0 n ≤ scheduledReward 0 (n * halvingInterval) := longer
    _ = halvingInterval * ∑ era ∈ Finset.range n, eraReward era := scheduledReward_eras n
    _ ≤ halvingInterval * (2 * initialReward) := Nat.mul_le_mul_left _ (by omega)
    _ = 2 * 10 ^ 18 := by decide

/-- One turn of the loop moves `p ≥ 1` receipts and pays their schedule. -/
theorem eraStep_ok {s t : LoopState} (positive : 0 < s.remaining) (ok : eraStep s = .ok t) :
    ∃ p, 0 < p ∧ s.remaining = p + t.remaining ∧ t.currentGlobal = s.currentGlobal + p ∧
      t.totalReward = s.totalReward + scheduledReward s.currentGlobal p := by
  have ahead := lt_next_halving s.currentGlobal
  simp only [eraStep] at ok
  split_ifs at ok
  obtain rfl := Except.ok.inj ok
  refine ⟨min ((s.currentGlobal / halvingInterval + 1) * halvingInterval - s.currentGlobal)
    s.remaining, ?_, ?_, rfl, ?_⟩
  · omega
  · dsimp only
    omega
  · dsimp only
    rw [scheduledReward_era (Nat.min_le_left _ _)]

def halvingLoop : While.Loop LoopState Failure where
  guard s := decide (0 < s.remaining)
  body := eraStep
  variant := LoopState.remaining
  decreases s t positive ok := by
    obtain ⟨p, hp, moved, _, _⟩ := eraStep_ok (of_decide_eq_true positive) ok
    omega

/-- The total reward and the request count after `receiptCount` more requests. -/
def rewardLoop (globalRequestCount receiptCount : Nat) : Except Failure (Nat × Nat) :=
  match halvingLoop.run ⟨0, globalRequestCount, receiptCount⟩ with
  | .ok s => .ok (s.totalReward, s.currentGlobal)
  | .error failure => .error failure

theorem rewardLoop_empty (g : Nat) : rewardLoop g 0 = .ok (0, g) := by
  rw [rewardLoop, While.run_done rfl]

/-- What the turns so far have moved and paid, out of `n` receipts from request `g` on. -/
def Progressed (g n : Nat) (s : LoopState) : Prop :=
  ∃ p, n = p + s.remaining ∧ s.currentGlobal = g + p ∧ s.totalReward = scheduledReward g p

theorem eraStep_progressed {g n : Nat} (s t : LoopState)
    (go : halvingLoop.guard s = true) (done : Progressed g n s) (ok : eraStep s = .ok t) :
    Progressed g n t := by
  obtain ⟨p, hn, current, total⟩ := done
  obtain ⟨q, _, moved, current', total'⟩ := eraStep_ok (of_decide_eq_true go) ok
  refine ⟨p + q, ?_, ?_, ?_⟩
  · omega
  · omega
  · rw [total', total, current, scheduledReward_add]

theorem rewardLoop_ok {g n total current : Nat} (ok : rewardLoop g n = .ok (total, current)) :
    total = scheduledReward g n ∧ current = g + n := by
  unfold rewardLoop at ok
  split at ok
  · rename_i s run
    obtain ⟨rfl, rfl⟩ := Prod.mk.inj (Except.ok.inj ok)
    have start : Progressed g n ⟨0, g, n⟩ := ⟨0, (Nat.zero_add n).symm, rfl, rfl⟩
    obtain ⟨⟨p, hn, current, total⟩, stop⟩ :=
      While.run_invariant (eraStep_progressed (g := g) (n := n)) start run
    have finished : s.remaining = 0 := Nat.eq_zero_of_not_pos (of_decide_eq_false stop)
    obtain rfl : n = p := by omega
    exact ⟨total, current⟩
  · cases ok

/-! Up to which request the loop pays. -/

/-- The last era boundary that 64 bits hold. -/
def requestLimit : Nat := 184467440737 * halvingInterval

theorem requestLimit_lt : requestLimit < 2 ^ 64 := by decide

theorem halvingInterval_pos : 0 < halvingInterval := by decide

theorem nextHalving_le {g : Nat} (below : g < requestLimit) :
    (g / halvingInterval + 1) * halvingInterval ≤ requestLimit := by
  apply Nat.mul_le_mul_right
  rw [Nat.succ_le_iff, Nat.div_lt_iff_lt_mul halvingInterval_pos]
  exact below

theorem nextHalving_overflows {g : Nat} (beyond : requestLimit ≤ g) :
    2 ^ 64 ≤ (g / halvingInterval + 1) * halvingInterval := by
  have eras : 184467440737 ≤ g / halvingInterval := by
    rw [Nat.le_div_iff_mul_le halvingInterval_pos]
    exact beyond
  have limit : 2 ^ 64 ≤ (184467440737 + 1) * halvingInterval := by decide
  exact Nat.le_trans limit (Nat.mul_le_mul_right _ (Nat.add_le_add_right eras 1))

theorem scheduledReward_le (g n : Nat) : scheduledReward g n ≤ 2 * 10 ^ 18 := by
  have cap := scheduledReward_le_cap (g + n)
  rw [scheduledReward_add, Nat.zero_add] at cap
  omega

/-- Short of the limit no arithmetic of a turn overflows. -/
theorem eraStep_answers {g n : Nat} {s : LoopState} (below : s.currentGlobal < requestLimit)
    (done : Progressed g n s) : ∃ t, eraStep s = .ok t ∧
      t.currentGlobal ≤ (s.currentGlobal / halvingInterval + 1) * halvingInterval := by
  obtain ⟨p, _, current, total⟩ := done
  have ahead := lt_next_halving s.currentGlobal
  have fits := Nat.lt_of_le_of_lt (nextHalving_le below) requestLimit_lt
  have pays := scheduledReward_era (Nat.min_le_left
    ((s.currentGlobal / halvingInterval + 1) * halvingInterval - s.currentGlobal) s.remaining)
  simp only [eraStep]
  generalize (s.currentGlobal / halvingInterval + 1) * halvingInterval = nextHalving at *
  have paid := scheduledReward_le g (p + min (nextHalving - s.currentGlobal) s.remaining)
  rw [scheduledReward_add, ← current, ← total, pays] at paid
  generalize min (nextHalving - s.currentGlobal) s.remaining *
    eraReward (s.currentGlobal / halvingInterval) = reward at *
  rw [if_neg (by omega), if_neg (by omega), if_neg (by omega), if_neg (by omega)]
  refine ⟨_, rfl, ?_⟩
  dsimp only
  omega

theorem eraStep_panics {s : LoopState} (beyond : requestLimit ≤ s.currentGlobal) :
    eraStep s = .error .panic :=
  if_pos (nextHalving_overflows beyond)

theorem rewardLoop_pays {g n : Nat} (within : n = 0 ∨ g + n ≤ requestLimit) :
    rewardLoop g n = .ok (scheduledReward g n, g + n) := by
  have start : Progressed g n ⟨0, g, n⟩ := ⟨0, (Nat.zero_add n).symm, rfl, rfl⟩
  have turns : ∀ s, halvingLoop.guard s = true → Progressed g n s →
      ∃ t, halvingLoop.body s = .ok t ∧ Progressed g n t := by
    intro s go done
    have positive : 0 < s.remaining := of_decide_eq_true go
    have below : s.currentGlobal < requestLimit := by
      obtain ⟨p, hn, current, _⟩ := done
      omega
    obtain ⟨t, ok, _⟩ := eraStep_answers below done
    exact ⟨t, ok, eraStep_progressed s t go done ok⟩
  obtain ⟨t, run, _, _⟩ := While.run_total turns start
  have ok : rewardLoop g n = .ok (t.totalReward, t.currentGlobal) := by
    rw [rewardLoop, run]
  obtain ⟨total, current⟩ := rewardLoop_ok ok
  rw [ok, total, current]

theorem rewardLoop_panics {g n : Nat} (positive : 0 < n) (beyond : requestLimit < g + n) :
    rewardLoop g n = .error .panic ∧
      ∃ s, Relation.ReflTransGen halvingLoop.Turn ⟨0, g, n⟩ s ∧
        2 ^ 64 ≤ (s.currentGlobal / halvingInterval + 1) * halvingInterval := by
  have start : Progressed g n ⟨0, g, n⟩ ∧ 0 < n := ⟨⟨0, (Nat.zero_add n).symm, rfl, rfl⟩, positive⟩
  have turns : ∀ s, Progressed g n s ∧ 0 < s.remaining → halvingLoop.guard s = true ∧
      ((∃ t, halvingLoop.body s = .ok t ∧ Progressed g n t ∧ 0 < t.remaining) ∨
        halvingLoop.body s = .error .panic ∧
          2 ^ 64 ≤ (s.currentGlobal / halvingInterval + 1) * halvingInterval) := by
    rintro s ⟨done, positive⟩
    have go : halvingLoop.guard s = true := decide_eq_true positive
    refine ⟨go, ?_⟩
    rcases Nat.lt_or_ge s.currentGlobal requestLimit with below | above
    · obtain ⟨t, ok, reaches⟩ := eraStep_answers below done
      have next := eraStep_progressed s t go done ok
      refine .inl ⟨t, ok, next, ?_⟩
      -- the requests that are left lie beyond the era boundary
      obtain ⟨p, hn, current, _⟩ := next
      have bounded := nextHalving_le below
      omega
    · exact .inr ⟨eraStep_panics above, nextHalving_overflows above⟩
  obtain ⟨failed, reached⟩ := While.run_fails turns start
  refine ⟨?_, reached⟩
  rw [rewardLoop, failed]

/-- Several runs of the loop, each from the count that the one before has left. -/
def rewardRuns (globalRequestCount : Nat) : List Nat → Except Failure (Nat × Nat)
  | [] => .ok (0, globalRequestCount)
  | receiptCount :: rest => do
    let (total, current) ← rewardLoop globalRequestCount receiptCount
    let (more, last) ← rewardRuns current rest
    return (total + more, last)

theorem rewardLoop_eq (g n : Nat) : rewardLoop g n =
    if n = 0 ∨ g + n ≤ requestLimit then .ok (scheduledReward g n, g + n)
    else .error .panic := by
  split
  · rename_i within
    exact rewardLoop_pays within
  · rename_i beyond
    rw [not_or, Nat.not_le] at beyond
    exact (rewardLoop_panics (Nat.pos_of_ne_zero beyond.1) beyond.2).1

theorem rewardRuns_eq (g : Nat) (parts : List Nat) :
    rewardRuns g parts = rewardLoop g parts.sum := by
  induction parts generalizing g with
  | nil => exact (rewardLoop_empty g).symm
  | cons n rest ih =>
    rw [rewardRuns, List.sum_cons, rewardLoop_eq g n, rewardLoop_eq g (n + rest.sum)]
    by_cases within : n = 0 ∨ g + n ≤ requestLimit
    · rw [if_pos within, Fallible.bind_of_ok]
      dsimp only
      rw [ih, rewardLoop_eq]
      by_cases more : rest.sum = 0 ∨ g + n + rest.sum ≤ requestLimit
      · rw [if_pos more, if_pos (by omega), scheduledReward_add, Nat.add_assoc]
        rfl
      · rw [if_neg more, if_neg (by omega)]
        rfl
    · rw [if_neg within, if_neg (by omega)]
      rfl

/-- The loop pays the schedule and moves the count up to the last era boundary of 64 bits;
beyond it the instruction panics on the next boundary. It never returns the overflow error, and
to split the receipts among several runs changes nothing. -/
theorem rewardLoop_outcome (g n : Nat) :
    rewardLoop g n = (if n = 0 ∨ g + n ≤ requestLimit then .ok (scheduledReward g n, g + n)
      else .error .panic) ∧
    (0 < n ∧ requestLimit < g + n →
      ∃ s, Relation.ReflTransGen halvingLoop.Turn ⟨0, g, n⟩ s ∧
        2 ^ 64 ≤ (s.currentGlobal / halvingInterval + 1) * halvingInterval) ∧
    rewardLoop g n ≠ .error (.sns .overflow) ∧
    ∀ parts : List Nat, parts.sum = n → rewardRuns g parts = rewardLoop g n := by
  refine ⟨rewardLoop_eq g n, fun ⟨positive, beyond⟩ => (rewardLoop_panics positive beyond).2,
    ?_, ?_⟩
  · rw [rewardLoop_eq]
    split <;> exact nofun
  · rintro parts rfl
    exact rewardRuns_eq g parts

end Solnet.Program
