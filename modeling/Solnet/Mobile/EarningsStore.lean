import Solnet.Lib.Doubles
import Solnet.Lib.Runs

/-! The earnings store of the app, which is fed with the health samples of a daemon. The samples
hold finite numbers. The clock is read for the date and again for the time of an entry. -/
namespace Solnet.Mobile
open Doubles Runs

structure HealthResponse where
  requestsServed : Option ℚ
  earningsLamports : Option ℚ
  deriving DecidableEq, Repr

structure EarningEntry where
  timestamp : String
  lamports : ℚ
  requests : ℚ
  deriving DecidableEq, Repr

structure EarningsStore where
  lifetimeLamports : ℚ
  todayLamports : ℚ
  history : List EarningEntry
  lastRequestCount : ℚ
  lastUpdatedDate : Option String
  deriving DecidableEq, Repr

/-- A call with what the clock shows in it. -/
structure Update where
  todayStr : String
  now : String
  health : HealthResponse
  deriving DecidableEq, Repr

namespace EarningsStore

def new : EarningsStore := ⟨0, 0, [], 0, none⟩

def resetTodayIfNeeded (s : EarningsStore) (todayStr : String) : EarningsStore :=
  if s.lastUpdatedDate ≠ some todayStr then
    { s with todayLamports := 0, lastUpdatedDate := some todayStr }
  else s

def appendHistory (s : EarningsStore) (entry : EarningEntry) : EarningsStore :=
  { s with history := entry :: s.history }

/-- What a sample with both counters does. -/
def enterSample (s : EarningsStore) (now : String) (earnings requests : ℚ) : EarningsStore :=
  let deltaLamports := max 0 (sub earnings s.lifetimeLamports)
  let deltaRequests := max 0 (sub requests s.lastRequestCount)
  if deltaLamports > 0 ∨ deltaRequests > 0 then
    let s := s.appendHistory ⟨now, deltaLamports, deltaRequests⟩
    -- The totals become those of the sample, whatever was appended.
    { s with
      lifetimeLamports := earnings
      todayLamports := add s.todayLamports deltaLamports
      lastRequestCount := requests }
  else s

def updateEarnings (s : EarningsStore) (update : Update) : EarningsStore :=
  let s := s.resetTodayIfNeeded update.todayStr
  match update.health.earningsLamports, update.health.requestsServed with
  | some earnings, some requests => s.enterSample update.now earnings requests
  | _, _ => s

def Updates (s : EarningsStore) (update : Update) (s' : EarningsStore) : Prop :=
  s.updateEarnings update = s'

/-- The number of entries when the date last changed. -/
def noteDate (s : EarningsStore) (update : Update) (entries : Nat) : Nat :=
  if s.lastUpdatedDate ≠ some update.todayStr then s.history.length else entries

end EarningsStore

def total (entries : List EarningEntry) : ℚ := (entries.map EarningEntry.lamports).sum

theorem total_cons (entry : EarningEntry) (entries : List EarningEntry) :
    total (entry :: entries) = entry.lamports + total entries := by
  rw [total, List.map_cons, List.sum_cons, total]

/-- The totals are the sums over the history and over its entries since the date changed. -/
structure Ledger (x : EarningsStore × Nat) : Prop where
  lifetime : x.1.lifetimeLamports = total x.1.history
  today : x.1.todayLamports = total (x.1.history.take (x.1.history.length - x.2))

/-- The lifetime total does not fall in the call, and the ledger holds after it. -/
def KeepsLedger (x : EarningsStore × Nat) (update : Update) : Prop :=
  x.1.lifetimeLamports ≤ (x.1.updateEarnings update).lifetimeLamports ∧
    Ledger (x.1.updateEarnings update, x.1.noteDate update x.2)

namespace EarningsStore

/-- One of the two counters is above the stored one. -/
def Enters (s : EarningsStore) (earnings requests : ℚ) : Prop :=
  0 < sub earnings s.lifetimeLamports ∨ 0 < sub requests s.lastRequestCount

/-- The earnings are not below the stored total, and the arithmetic with them is exact. -/
def Continues (s : EarningsStore) (earnings : ℚ) : Prop :=
  s.lifetimeLamports ≤ earnings ∧
    sub earnings s.lifetimeLamports = earnings - s.lifetimeLamports ∧
    add s.todayLamports (earnings - s.lifetimeLamports) =
      s.todayLamports + (earnings - s.lifetimeLamports)

/-- A sample that has both counters, one of them above the stored one, continues the total. -/
def InOrder (x : EarningsStore × Nat) (update : Update) : Prop :=
  ∀ earnings requests, update.health.earningsLamports = some earnings →
    update.health.requestsServed = some requests →
    (x.1.resetTodayIfNeeded update.todayStr).Enters earnings requests →
    (x.1.resetTodayIfNeeded update.todayStr).Continues earnings

variable {s : EarningsStore} {entries : Nat} {now : String} {earnings requests : ℚ}

theorem enters_iff : max 0 (sub earnings s.lifetimeLamports) > 0 ∨
    max 0 (sub requests s.lastRequestCount) > 0 ↔ s.Enters earnings requests := by
  simp only [gt_iff_lt, lt_max_iff, lt_irrefl, false_or, Enters]

theorem enterSample_kept (kept : ¬ s.Enters earnings requests) :
    s.enterSample now earnings requests = s := by
  rw [enterSample, if_neg (mt enters_iff.mp kept)]

theorem enterSample_entered (enters : s.Enters earnings requests) :
    s.enterSample now earnings requests = { s with
      lifetimeLamports := earnings
      todayLamports := add s.todayLamports (max 0 (sub earnings s.lifetimeLamports))
      history := ⟨now, max 0 (sub earnings s.lifetimeLamports),
        max 0 (sub requests s.lastRequestCount)⟩ :: s.history
      lastRequestCount := requests } := by
  rw [enterSample, if_pos (enters_iff.mpr enters)]
  rfl

/-- An entered sample keeps the ledger exactly when it continues the total. -/
theorem enterSample_ledger_iff (ledger : Ledger (s, entries)) (dated : entries ≤ s.history.length)
    (enters : s.Enters earnings requests) :
    (s.lifetimeLamports ≤ (s.enterSample now earnings requests).lifetimeLamports ∧
      Ledger (s.enterSample now earnings requests, entries)) ↔ s.Continues earnings := by
  rw [enterSample_entered enters]
  refine and_congr_right fun ordered => ?_
  have recent : s.history.length + 1 - entries = (s.history.length - entries) + 1 := by omega
  constructor
  · rintro ⟨lifetime, today⟩
    have appended : max 0 (sub earnings s.lifetimeLamports) = earnings - s.lifetimeLamports := by
      rw [total_cons, ← ledger.lifetime] at lifetime
      exact eq_sub_of_add_eq lifetime.symm
    rw [List.length_cons, recent, List.take_succ_cons, total_cons, ← ledger.today, appended,
      add_comm] at today
    exact ⟨(max_sub_eq_iff ordered).mp appended, today⟩
  · rintro ⟨exact, today⟩
    have appended := (max_sub_eq_iff ordered).mpr exact
    constructor
    · rw [total_cons, ← ledger.lifetime, appended, sub_add_cancel]
    · rw [List.length_cons, recent, List.take_succ_cons, total_cons, ← ledger.today, appended,
        today, add_comm]

theorem resetTodayIfNeeded_lifetime (s : EarningsStore) (todayStr : String) :
    (s.resetTodayIfNeeded todayStr).lifetimeLamports = s.lifetimeLamports := by
  unfold resetTodayIfNeeded
  split
  · rfl
  · rfl

theorem resetTodayIfNeeded_history (s : EarningsStore) (todayStr : String) :
    (s.resetTodayIfNeeded todayStr).history = s.history := by
  unfold resetTodayIfNeeded
  split
  · rfl
  · rfl

theorem resetTodayIfNeeded_ledger (ledger : Ledger (s, entries)) (update : Update) :
    Ledger (s.resetTodayIfNeeded update.todayStr, s.noteDate update entries) := by
  unfold resetTodayIfNeeded noteDate
  split
  · refine ⟨ledger.lifetime, ?_⟩
    rw [Nat.sub_self]
    rfl
  · exact ledger

theorem noteDate_le (dated : entries ≤ s.history.length) (update : Update) :
    s.noteDate update entries ≤ s.history.length := by
  unfold noteDate
  split
  · exact Nat.le_refl _
  · exact dated

theorem length_history_le (s : EarningsStore) (update : Update) :
    s.history.length ≤ (s.updateEarnings update).history.length := by
  rw [← resetTodayIfNeeded_history s update.todayStr]
  unfold updateEarnings
  split
  · rename_i earnings requests _ _
    by_cases enters : (s.resetTodayIfNeeded update.todayStr).Enters earnings requests
    · rw [enterSample_entered enters]
      exact Nat.le_succ _
    · rw [enterSample_kept enters]
  · exact Nat.le_refl _

/-- What one call does to the ledger. -/
theorem keepsLedger_iff (ledger : Ledger (s, entries)) (dated : entries ≤ s.history.length)
    (update : Update) : KeepsLedger (s, entries) update ↔ InOrder (s, entries) update := by
  have reset := resetTodayIfNeeded_ledger ledger update
  have dated' : s.noteDate update entries ≤
      (s.resetTodayIfNeeded update.todayStr).history.length := by
    rw [resetTodayIfNeeded_history]
    exact noteDate_le dated update
  have resets (same : s.updateEarnings update = s.resetTodayIfNeeded update.todayStr) :
      KeepsLedger (s, entries) update := by
    rw [KeepsLedger, same, resetTodayIfNeeded_lifetime]
    exact ⟨le_refl _, reset⟩
  match reported : update.health.earningsLamports, served : update.health.requestsServed with
  | some earnings, some requests =>
    have enters : s.updateEarnings update =
        (s.resetTodayIfNeeded update.todayStr).enterSample update.now earnings requests := by
      rw [updateEarnings, reported, served]
    by_cases entered : (s.resetTodayIfNeeded update.todayStr).Enters earnings requests
    · have once : InOrder (s, entries) update ↔
          (s.resetTodayIfNeeded update.todayStr).Continues earnings := by
        constructor
        · intro inOrder
          exact inOrder earnings requests reported served entered
        · intro continues earnings' requests' reported' _ _
          obtain rfl := Option.some.inj (reported.symm.trans reported')
          exact continues
      rw [once, KeepsLedger, enters, ← enterSample_ledger_iff reset dated' entered,
        resetTodayIfNeeded_lifetime]
    · refine iff_of_true (resets (enters.trans (enterSample_kept entered))) ?_
      intro earnings' requests' reported' served' entered'
      obtain rfl := Option.some.inj (reported.symm.trans reported')
      obtain rfl := Option.some.inj (served.symm.trans served')
      exact absurd entered' entered
  | none, _ =>
    refine iff_of_true (resets (by rw [updateEarnings, reported])) ?_
    intro earnings' requests' reported' _ _
    cases reported.symm.trans reported'
  | some _, none =>
    refine iff_of_true (resets (by rw [updateEarnings, reported, served])) ?_
    intro earnings' requests' _ served' _
    cases served.symm.trans served'

theorem updates_deterministic : Deterministic Updates := by
  rintro s update t u rfl rfl
  rfl

theorem updates_run (updates : List Update) (x : EarningsStore × Nat) :
    ∃ y, Run (Traced Updates noteDate) x updates y := by
  induction updates generalizing x with
  | nil => exact ⟨x, .nil x⟩
  | cons update updates ih =>
    obtain ⟨y, rest⟩ := ih (x.1.updateEarnings update, x.1.noteDate update x.2)
    exact ⟨y, .cons (traced_of rfl x.2) rest⟩

def start : EarningsStore × Nat := (.new, 0)

/-- The store is a ledger all along a run exactly when each sample of the run is in order. -/
theorem ledger_kept_iff (updates : List Update) :
    EachStep (Traced Updates noteDate) KeepsLedger start updates ↔
      ∃ x, Run (Guarded (Traced Updates noteDate) InOrder) start updates x := by
  have exact (x : EarningsStore × Nat) (update : Update) (y : EarningsStore × Nat)
      (kept : Ledger x ∧ x.2 ≤ x.1.history.length) (step : Traced Updates noteDate x update y) :
      InOrder x update ∧ KeepsLedger x update ∧ (Ledger y ∧ y.2 ≤ y.1.history.length) ∨
        ¬ InOrder x update ∧ ¬ KeepsLedger x update := by
    obtain ⟨s, entries⟩ := x
    obtain ⟨ledger, dated⟩ := kept
    obtain ⟨_, _⟩ := y
    obtain ⟨rfl, rfl⟩ := step
    have keeps := keepsLedger_iff ledger dated update
    by_cases inOrder : InOrder (s, entries) update
    · have kept := keeps.mpr inOrder
      have length := length_history_le s update
      exact .inl ⟨inOrder, kept, kept.2, (noteDate_le dated update).trans length⟩
    · exact .inr ⟨inOrder, mt keeps.mp inOrder⟩
  have fresh : Ledger start ∧ start.2 ≤ start.1.history.length := ⟨⟨rfl, rfl⟩, Nat.le_refl 0⟩
  obtain ⟨y, run⟩ := updates_run updates start
  constructor
  · intro all
    exact ⟨y, (eachStep_iff_guarded updates_deterministic.traced exact run fresh).mp all⟩
  · rintro ⟨x, guarded⟩
    exact (eachStep_iff_guarded updates_deterministic.traced exact guarded.unguarded fresh).mpr
      guarded

/-! The lamports of a kept ledger are those of a sample at most, so they do not overflow where the
samples are doubles. -/

structure Within (limit : ℚ) (s : EarningsStore) : Prop where
  today : 0 ≤ s.todayLamports
  lifetime : s.todayLamports ≤ s.lifetimeLamports
  limited : s.lifetimeLamports ≤ limit

theorem resetTodayIfNeeded_within {limit : ℚ} (within : Within limit s) (todayStr : String) :
    Within limit (s.resetTodayIfNeeded todayStr) := by
  unfold resetTodayIfNeeded
  split
  · exact ⟨le_refl _, within.today.trans within.lifetime, within.limited⟩
  · exact within

theorem updateEarnings_within {limit : ℚ} {update : Update} (within : Within limit s)
    (reported : ∀ earnings ∈ update.health.earningsLamports, earnings ≤ limit)
    (inOrder : InOrder (s, entries) update) : Within limit (s.updateEarnings update) := by
  have reset := resetTodayIfNeeded_within within update.todayStr
  unfold updateEarnings
  split
  · rename_i earnings requests told served
    by_cases enters : (s.resetTodayIfNeeded update.todayStr).Enters earnings requests
    · obtain ⟨ordered, exact, added⟩ := inOrder earnings requests told served enters
      rw [enterSample_entered enters, (max_sub_eq_iff ordered).mpr exact, added]
      have positive := reset.today
      have below := reset.lifetime
      refine ⟨?_, ?_, reported earnings told⟩
      · dsimp only
        linarith
      · dsimp only
        linarith
    · rw [enterSample_kept enters]
      exact reset
  · exact reset

theorem kept_within {limit : ℚ} {updates : List Update} {x y : EarningsStore × Nat}
    (run : Run (Guarded (Traced Updates noteDate) InOrder) x updates y)
    (reported : ∀ update ∈ updates, ∀ earnings ∈ update.health.earningsLamports, earnings ≤ limit)
    (within : Within limit x.1) : Within limit y.1 := by
  induction run with
  | nil x => exact within
  | cons step _ ih =>
    obtain ⟨⟨updated, _⟩, inOrder⟩ := step
    obtain ⟨first, rest⟩ := List.forall_mem_cons.mp reported
    apply ih rest
    rw [← show _ = _ from updated]
    exact updateEarnings_within within first inOrder

/-! A daemon that has served five requests, and after a restart six for less. -/

def beforeRestart : Update :=
  ⟨"Mon Jan 05 2026", "2026-01-05T10:00:00.000Z", ⟨some 5, some 100⟩⟩

def afterRestart : Update :=
  ⟨"Mon Jan 05 2026", "2026-01-05T10:15:00.000Z", ⟨some 6, some 60⟩⟩

def earnedBefore : EarningsStore :=
  ⟨100, 100, [⟨"2026-01-05T10:00:00.000Z", 100, 5⟩], 5, some "Mon Jan 05 2026"⟩

theorem lifetime_falls : ¬ ∀ updates : List Update,
    EachStep (Traced Updates noteDate) KeepsLedger start updates := by
  intro all
  have earns : new.updateEarnings beforeRestart = earnedBefore := by decide +kernel
  have first : Traced Updates noteDate start beforeRestart (earnedBefore, 0) := traced_of earns 0
  have second : Traced Updates noteDate (earnedBefore, 0) afterRestart _ := traced_of rfl 0
  have keeps := all [beforeRestart, afterRestart] [beforeRestart] afterRestart [] _ _ rfl
    (.cons first (.nil _)) second
  have falls : (earnedBefore.updateEarnings afterRestart).lifetimeLamports = 60 := by
    decide +kernel
  have kept : 100 ≤ (earnedBefore.updateEarnings afterRestart).lifetimeLamports := keeps.1
  rw [falls] at kept
  exact absurd kept (by decide)

end EarningsStore

end Solnet.Mobile
