import Solnet.Daemon.Checked
import Solnet.Lib.Runs
import Solnet.Lib.Table
import Solnet.Lib.Windows

/-! The limiter of `security.rs`: for each address the number of requests of its window
and the second in which the window began. -/
namespace Solnet.Daemon
open Runs Fallible Windows

structure RateLimiter where
  requests : Table String (Nat × Nat)

namespace RateLimiter

def new : RateLimiter := ⟨∅⟩

def check (s : RateLimiter) (ip : String) (now : Nat) : Checked (RateLimiter × Bool) := do
  let stored := (s.requests.lookup ip).getD (0, now)
  let entry := if 60 < now - stored.2 then (0, now) else stored
  let count ← checkedAdd 64 entry.1 1
  return (⟨s.requests.insert ip (count, entry.2)⟩, count ≤ 100)

/-- Entries whose window began less than 5 minutes ago are kept. -/
def keeps (now : Nat) (_ : String) (entry : Nat × Nat) : Checked Bool := .ok (now - entry.2 < 300)

def cleanup (s : RateLimiter) (now : Nat) : Checked RateLimiter := do
  return ⟨← s.requests.retain (keeps now)⟩

inductive Event where
  | checked (ip : String) (now : Nat) (allowed : Bool)
  | cleaned (now : Nat)
  deriving DecidableEq, Repr

def Event.now : Event → Nat
  | .checked _ now _ => now
  | .cleaned now => now

def Performs (s : RateLimiter) : Event → RateLimiter → Prop
  | .checked ip now allowed, s' => s.check ip now = .ok (s', allowed)
  | .cleaned now, s' => s.cleanup now = .ok s'

/-- The times at which an address was checked. -/
def asked (ip : String) : List Event → List Nat
  | [] => []
  | .checked client now _ :: events =>
    if client = ip then now :: asked ip events else asked ip events
  | .cleaned _ :: events => asked ip events

/-- The times at which it was admitted. -/
def admitted (ip : String) : List Event → List Nat
  | [] => []
  | .checked client now allowed :: events =>
    if client = ip ∧ allowed then now :: admitted ip events else admitted ip events
  | .cleaned _ :: events => admitted ip events

/-- What is left of the window that began at `start`, and the windows after it. -/
def windowsFrom (start : Nat) : List Nat → List Nat × List (List Nat)
  | [] => ([], [])
  | now :: times =>
    if 60 < now - start then ([], (now :: (windowsFrom now times).1) :: (windowsFrom now times).2)
    else (now :: (windowsFrom start times).1, (windowsFrom start times).2)

/-- Arrival times cut into windows: a window is over with the first arrival more than 60
seconds after the one that began it. -/
def windows : List Nat → List (List Nat)
  | [] => []
  | now :: times => (now :: (windowsFrom now times).1) :: (windowsFrom now times).2

/-- The arrivals still to be admitted, from the entry of the address. -/
def served : Option (Nat × Nat) → List Nat → List Nat
  | none, times => (windows times).flatMap (List.take 100)
  | some (count, start), times => (windowsFrom start times).1.take (100 - count) ++
    (windowsFrom start times).2.flatMap (List.take 100)

variable {s s' : RateLimiter} {ip client : String} {now start count : Nat} {times : List Nat}
  {allowed : Bool} {events : List Event}

/-! What each call does. -/

theorem check_ok_iff : s.check ip now = .ok (s', allowed) ↔ ∃ entry,
    (if 60 < now - ((s.requests.lookup ip).getD (0, now)).2 then (0, now)
      else (s.requests.lookup ip).getD (0, now)) = entry ∧
    entry.1 + 1 < 2 ^ 64 ∧ ⟨s.requests.insert ip (entry.1 + 1, entry.2)⟩ = s' ∧
    decide (entry.1 + 1 ≤ 100) = allowed := by
  simp only [check, bind_ok_iff, checkedAdd, addWithin_ok_iff, pure, Except.pure, Except.ok.injEq,
    Prod.mk.injEq, exists_eq_left']
  constructor
  · rintro ⟨_, ⟨fits, rfl⟩, rest⟩
    exact ⟨fits, rest⟩
  · rintro ⟨fits, rest⟩
    exact ⟨_, ⟨fits, rfl⟩, rest⟩

theorem lookup_of_cleanup (cleaned : s.cleanup now = .ok s') (ip : String) :
    s'.requests.lookup ip = s.requests.lookup ip ∨ ∃ count start,
      s.requests.lookup ip = some (count, start) ∧ s'.requests.lookup ip = none ∧
        start + 300 ≤ now := by
  obtain ⟨requests, retained, ok⟩ := bind_ok_iff.mp cleaned
  obtain rfl := Except.ok.inj ok
  have answers (entry : Nat × Nat) : requests.lookup ip = some entry ↔
      s.requests.lookup ip = some entry ∧ now - entry.2 < 300 := by
    rw [Table.lookup_retain_iff retained]
    simp [keeps]
  change requests.lookup ip = _ ∨ _
  cases stored : s.requests.lookup ip with
  | none =>
    left
    cases found : requests.lookup ip with
    | none => rfl
    | some entry => cases stored.symm.trans ((answers entry).mp found).1
  | some entry =>
    obtain ⟨count, start⟩ := entry
    by_cases young : now - start < 300
    · exact .inl ((answers (count, start)).mpr ⟨stored, young⟩)
    · refine .inr ⟨count, start, rfl, ?_, by omega⟩
      cases found : requests.lookup ip with
      | none => rfl
      | some entry =>
        obtain ⟨same, kept⟩ := (answers entry).mp found
        obtain rfl := Option.some.inj (stored.symm.trans same)
        exact absurd kept young

/-! The arrivals that are admitted. -/

theorem served_restarts (late : ∀ t ∈ times, start + 60 < t) :
    served (some (count, start)) times = served none times := by
  cases times with
  | nil => simp [served, windowsFrom, windows]
  | cons t times =>
    have restarts : 60 < t - start := by
      have := late t List.mem_cons_self
      omega
    simp [served, windowsFrom, windows, restarts]

/-- A check admits the arrival when the entry it finds, or begins, has counted fewer than 100. -/
theorem served_cons {stored : Option (Nat × Nat)} {entry : Nat × Nat}
    (opens : (if 60 < now - (stored.getD (0, now)).2 then (0, now) else stored.getD (0, now)) =
      entry) :
    served stored (now :: times) = if entry.1 + 1 ≤ 100
      then now :: served (some (entry.1 + 1, entry.2)) times
      else served (some (entry.1 + 1, entry.2)) times := by
  cases stored with
  | none =>
    obtain rfl : (0, now) = entry := by simpa using opens
    simp [served, windows]
  | some stored =>
    obtain ⟨count, start⟩ := stored
    rw [Option.getD_some] at opens
    by_cases restarts : 60 < now - start
    · rw [if_pos restarts] at opens
      obtain rfl := opens
      simp [served, windowsFrom, restarts]
    · rw [if_neg restarts] at opens
      obtain rfl := opens
      by_cases room : count + 1 ≤ 100
      · have one : 100 - count = (100 - (count + 1)) + 1 := by omega
        simp only [served, windowsFrom, if_neg restarts, if_pos room]
        rw [one, List.take_succ_cons, List.cons_append]
      · have full : 100 - count = 0 ∧ 100 - (count + 1) = 0 := by omega
        simp [served, windowsFrom, restarts, room, full]

theorem asked_sublist (ip : String) (events : List Event) :
    (asked ip events).Sublist (events.map Event.now) := by
  induction events with
  | nil => exact List.Sublist.refl []
  | cons event events ih =>
    cases event with
    | checked client now allowed =>
      rw [asked, List.map_cons]
      split
      · exact ih.cons_cons now
      · exact ih.cons now
    | cleaned now => exact ih.cons now

theorem admitted_sublist (ip : String) (events : List Event) :
    (admitted ip events).Sublist (asked ip events) := by
  induction events with
  | nil => exact List.Sublist.refl []
  | cons event events ih =>
    cases event with
    | checked client now allowed =>
      rw [admitted, asked]
      by_cases own : client = ip
      · rw [if_pos own]
        split
        · exact ih.cons_cons now
        · exact ih.cons now
      · rw [if_neg own, if_neg fun both => own both.1]
        exact ih
    | cleaned now => exact ih

/-- A cleanup forgets only what the next check would begin anew. -/
theorem admitted_eq_served (run : Run Performs s events s')
    (ordered : (events.map Event.now).Pairwise (· ≤ ·)) (ip : String) :
    admitted ip events = served (s.requests.lookup ip) (asked ip events) := by
  induction run with
  | nil s =>
    cases s.requests.lookup ip with
    | none => rfl
    | some entry => simp [admitted, asked, served, windowsFrom]
  | @cons s t u event events step _ ih =>
    rw [List.map_cons, List.pairwise_cons] at ordered
    obtain ⟨after, ordered⟩ := ordered
    replace ih := ih ordered
    cases event with
    | checked client now allowed =>
      obtain ⟨entry, opens, _, rfl, rfl⟩ := check_ok_iff.mp step
      rw [Table.lookup_insert] at ih
      by_cases own : client = ip
      · subst own
        rw [if_pos rfl] at ih
        rw [admitted, asked, if_pos rfl, served_cons opens, ← ih]
        simp
      · rw [if_neg (Ne.symm own)] at ih
        simp [admitted, asked, own, ih]
    | cleaned now =>
      rw [admitted, asked, ih]
      rcases lookup_of_cleanup step ip with same | ⟨count, start, stored, gone, old⟩
      · rw [same]
      · rw [stored, gone]
        apply (served_restarts ?_).symm
        intro t later
        have : now ≤ t := after t ((asked_sublist ip events).mem later)
        omega

/-! Windows begin more than 60 seconds apart. -/

theorem windowsFrom_append (start : Nat) (times : List Nat) :
    (windowsFrom start times).1 ++ (windowsFrom start times).2.flatten = times := by
  induction times generalizing start with
  | nil => rfl
  | cons now times ih =>
    rw [windowsFrom]
    split
    · rw [List.nil_append, List.flatten_cons, List.cons_append, ih]
    · rw [List.cons_append, ih]

theorem windowsFrom_le : ∀ x ∈ (windowsFrom start times).1, x ≤ start + 60 := by
  induction times with
  | nil => exact nofun
  | cons now times ih =>
    rw [windowsFrom]
    split
    · exact nofun
    · rename_i inside
      exact List.forall_mem_cons.mpr ⟨by omega, ih⟩

theorem windowsFrom_lt (sorted : times.Pairwise (· ≤ ·)) :
    ∀ z ∈ (windowsFrom start times).2.flatten, start + 60 < z := by
  induction times with
  | nil => simp [windowsFrom]
  | cons now times ih =>
    obtain ⟨after, sorted⟩ := List.pairwise_cons.mp sorted
    rw [windowsFrom]
    split
    · rename_i late
      rw [List.flatten_cons, List.cons_append, windowsFrom_append]
      intro z member
      have : now ≤ z := by
        rcases List.mem_cons.mp member with rfl | later
        · exact Nat.le_refl z
        · exact after z later
      omega
    · exact ih sorted

theorem windowsFrom_tail_lt (sorted : times.Pairwise (· ≤ ·)) :
    ∀ z ∈ (windowsFrom start times).2.tail.flatten, start + 120 < z := by
  induction times with
  | nil => simp [windowsFrom]
  | cons now times ih =>
    have sorted' := (List.pairwise_cons.mp sorted).2
    rw [windowsFrom]
    split
    · intro z later
      have : now + 60 < z := windowsFrom_lt sorted' z later
      omega
    · exact ih sorted'

theorem sparse_cons (sorted : times.Pairwise (· ≤ ·))
    (sparse : Sparse 59 (windowsFrom start times).2) :
    Sparse 59 ((start :: (windowsFrom start times).1) :: (windowsFrom start times).2) := by
  refine ⟨?_, sparse⟩
  intro x member z later
  have upper : x ≤ start + 60 := by
    rcases List.mem_cons.mp member with rfl | inside
    · omega
    · exact windowsFrom_le x inside
  have : start + 120 < z := windowsFrom_tail_lt sorted z later
  omega

theorem sparse_windowsFrom (sorted : times.Pairwise (· ≤ ·)) :
    Sparse 59 (windowsFrom start times).2 := by
  induction times generalizing start with
  | nil => trivial
  | cons now times ih =>
    have sorted' := (List.pairwise_cons.mp sorted).2
    rw [windowsFrom]
    split
    · exact sparse_cons sorted' (ih sorted')
    · exact ih sorted'

theorem sparse_windows (sorted : times.Pairwise (· ≤ ·)) : Sparse 59 (windows times) := by
  cases times with
  | nil => trivial
  | cons now times =>
    have sorted' := (List.pairwise_cons.mp sorted).2
    exact sparse_cons sorted' (sparse_windowsFrom sorted')

/-! The limit over any minute. -/

/-- At most 100 of the checks made in the 60 seconds from `t` admit. -/
def Limited (ip : String) (events : List Event) (t : Nat) : Prop :=
  (admitted ip events).countP (fun now => t ≤ now ∧ now ≤ t + 59) ≤ 100

/-- A window has room for 100 checks. -/
theorem run_replicate (n now : Nat) (stored : s.requests.lookup ip = some (count, start))
    (inside : now - start ≤ 60) (room : count + n ≤ 100) :
    ∃ s', Run Performs s (List.replicate n (.checked ip now true)) s' ∧
      s'.requests.lookup ip = some (count + n, start) := by
  induction n generalizing s count with
  | zero => exact ⟨s, .nil s, stored⟩
  | succ n ih =>
    have next : (⟨s.requests.insert ip (count + 1, start)⟩ : RateLimiter).requests.lookup ip =
        some (count + 1, start) := by
      rw [Table.lookup_insert, if_pos rfl]
    obtain ⟨s', rest, last⟩ := ih next (by omega)
    rw [Nat.add_right_comm] at last
    refine ⟨s', .cons (check_ok_iff.mpr ⟨(count, start), ?_, ?_, rfl, ?_⟩) rest, last⟩
    · rw [stored, Option.getD_some, if_neg (Nat.not_lt.mpr inside)]
    · omega
    · rw [decide_eq_true_eq]
      omega

/-- One request opens a window, 99 come in its last second, two at `next`. -/
def burst (next : Nat) : List Event :=
  .checked "10.0.0.1" 0 true :: (List.replicate 99 (.checked "10.0.0.1" 60 true) ++
    List.replicate 2 (.checked "10.0.0.1" next true))

theorem burst_runs {next : Nat} (late : 60 < next) : ∃ s, Run Performs new (burst next) s := by
  have first : Performs new (.checked "10.0.0.1" 0 true) ⟨new.requests.insert "10.0.0.1" (1, 0)⟩ :=
    rfl
  obtain ⟨s, early, full⟩ := run_replicate (s := ⟨new.requests.insert "10.0.0.1" (1, 0)⟩) 99 60
    (by rw [Table.lookup_insert, if_pos rfl]) (by decide) (by decide)
  have again : Performs s (.checked "10.0.0.1" next true)
      ⟨s.requests.insert "10.0.0.1" (1, next)⟩ := by
    refine check_ok_iff.mpr ⟨(0, next), ?_, (by decide : 1 < 2 ^ 64), rfl, rfl⟩
    rw [full, Option.getD_some, if_pos (by omega)]
  obtain ⟨s', last, _⟩ := run_replicate (s := ⟨s.requests.insert "10.0.0.1" (1, next)⟩) 1 next
    (by rw [Table.lookup_insert, if_pos rfl]) (by omega) (by decide)
  exact ⟨s', .cons first (run_append_iff.mpr ⟨s, early, .cons again last⟩)⟩

theorem burst_ordered {next : Nat} (late : 60 < next) :
    ((burst next).map Event.now).Pairwise (· ≤ ·) := by
  simp only [burst, List.map_cons, List.map_append, List.map_replicate, Event.now,
    List.pairwise_cons, List.pairwise_append, List.pairwise_replicate, List.mem_append,
    List.mem_replicate]
  refine ⟨fun _ _ => Nat.zero_le _, by simp, by simp, ?_⟩
  rintro a ⟨_, rfl⟩ b ⟨_, rfl⟩
  exact late.le

/-- Cut into windows of the counter, the arrivals of an address must not bunch at the end of one
window and the start of the next: the 100th admitted after another comes 60 seconds later. -/
theorem limited_iff_apart {s : RateLimiter} {events : List Event} (run : Run Performs new events s)
    (ordered : (events.map Event.now).Pairwise (· ≤ ·)) (ip : String) :
    (∀ t, Limited ip events t) ↔ (windows (asked ip events)).IsChain (Apart 100 59) := by
  have sorted : (asked ip events).Pairwise (· ≤ ·) := ordered.sublist (asked_sublist ip events)
  have inOrder : (admitted ip events).Pairwise (· ≤ ·) :=
    sorted.sublist (admitted_sublist ip events)
  have kept : admitted ip events = (windows (asked ip events)).flatMap (List.take 100) :=
    admitted_eq_served run ordered ip
  calc (∀ t, Limited ip events t)
      ↔ Spread 100 59 (admitted ip events) := countP_le_iff_spread inOrder
    _ ↔ (windows (asked ip events)).IsChain (Apart 100 59) := by
        rw [kept]
        exact spread_keep_iff (sparse_windows sorted)

/-- Two requests in the first second of the next window are too many, two a minute after the
burst are not. -/
theorem burst_limited_iff :
    (¬ ∀ t, Limited "10.0.0.1" (burst 61) t) ∧ ∀ t, Limited "10.0.0.1" (burst 120) t := by
  have soon : 60 < 61 := by decide
  have later : 60 < 120 := by decide
  obtain ⟨_, run⟩ := burst_runs soon
  obtain ⟨_, spaced⟩ := burst_runs later
  rw [limited_iff_apart run (burst_ordered soon), limited_iff_apart spaced (burst_ordered later)]
  decide

theorem burst_exceeds : ∃ events s ip t, Run Performs new events s ∧
    (events.map Event.now).Pairwise (· ≤ ·) ∧ ¬ Limited ip events t := by
  have soon : 60 < 61 := by decide
  obtain ⟨s, run⟩ := burst_runs soon
  refine ⟨burst 61, s, "10.0.0.1", 2, run, burst_ordered soon, ?_⟩
  unfold Limited
  decide +kernel

end RateLimiter

end Solnet.Daemon
