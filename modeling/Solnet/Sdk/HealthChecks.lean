import Mathlib.Data.List.Perm.Basic
import Solnet.Sdk.Overlaps

/-! The timers of the health checks. Each call that initializes the connection sets one, and
only the last one set is remembered. -/
namespace Solnet.Sdk
open Runs Solnet.Daemon

namespace SdkWorld

/-- Whether a call for the method has to initialize the connection. -/
def ranksFor (w : SdkWorld) (method : String) : Nat :=
  if validateRpcMethod method = .ok () ∧ w.connection.initialized = false then 1 else 0

def opens (w : SdkWorld) : SdkEvent → Nat
  | .calls method _ => w.ranksFor method
  | _ => 0

/-- How many allowed calls are made before the connection is initialized. -/
def early (hostOf : String → Option String) : SdkWorld → List SdkEvent → Nat
  | _, [] => 0
  | w, event :: events =>
    match w.advance hostOf event with
    | none => 0
    | some w' => opens w event + early hostOf w' events

/-- The calls that initialize the connection. -/
def starting (w : SdkWorld) : Nat := w.rankings.countP fun ranking => ranking.owner.isRequest

/-- There is a timer for each call that has initialized the connection. -/
structure Timed (n : Nat) (w : SdkWorld) : Prop where
  intervals : w.intervals = List.range w.created
  remembered : w.healthCheckInterval = if w.created = 0 then none else some (w.created - 1)
  count : w.created + w.starting = n

variable {hostOf : String → Option String} {w w' : SdkWorld} {event : SdkEvent}
  {events : List SdkEvent} {i n : Nat} {call : SdkCall}

theorem Timed.setCall (timed : w.Timed n) (i : Nat) (call : SdkCall) : (w.setCall i call).Timed n :=
  ⟨timed.intervals, timed.remembered, timed.count⟩

theorem Timed.setEndpoint (timed : w.Timed n) (endpoint : Option String) :
    (w.setEndpoint endpoint).Timed n :=
  ⟨timed.intervals, timed.remembered, timed.count⟩

theorem starting_rankPeers (w : SdkWorld) (owner : RankingOwner) :
    (w.rankPeers owner).starting = w.starting + if owner.isRequest then 1 else 0 := by
  rw [starting, rankPeers, List.countP_append, List.countP_singleton]
  rfl

theorem Timed.addCall (timed : w.Timed n) (call : SdkCall) : (w.addCall call).Timed n :=
  ⟨timed.intervals, timed.remembered, timed.count⟩

theorem Timed.begin (timed : w.Timed n) (method params : String) :
    (w.begin method params).Timed (n + w.ranksFor method) := by
  unfold SdkWorld.begin ranksFor
  cases checked : validateRpcMethod method with
  | error e =>
    rw [if_neg (by simp)]
    exact timed.addCall _
  | ok allowed =>
    cases initialized : w.connection.initialized with
    | true =>
      rw [if_neg (by simp)]
      exact timed.addCall _
    | false =>
      rw [if_pos ⟨rfl, rfl⟩]
      have waits := timed.addCall ⟨method, params, .initializes, []⟩
      dsimp only
      rw [if_neg Bool.false_ne_true]
      refine ⟨waits.intervals, waits.remembered, ?_⟩
      rw [starting_rankPeers, ← Nat.add_assoc]
      exact congrArg (· + 1) waits.count

theorem Timed.catches (timed : w.Timed n) (i : Nat) (uuid : String) (call : SdkCall) :
    (w.catches i uuid call).Timed n := by
  unfold SdkWorld.catches
  split
  · exact (timed.setEndpoint _).setCall i _
  · exact timed.setCall i _

theorem starting_eraseIdx {r : Nat} {ranking : Ranking} (found : w.rankings[r]? = some ranking) :
    starting { w with rankings := w.rankings.eraseIdx r } +
      (if ranking.owner.isRequest then 1 else 0) = w.starting := by
  obtain ⟨inside, rfl⟩ := List.getElem?_eq_some_iff.mp found
  have same := (List.getElem_cons_eraseIdx_perm inside).countP_eq
    fun ranking => ranking.owner.isRequest
  rw [List.countP_cons] at same
  exact same

theorem starting_set {r : Nat} {ranking : Ranking} (found : w.rankings[r]? = some ranking)
    (checks : List (Option PeerHealth)) :
    starting { w with rankings := w.rankings.set r { ranking with checks } } = w.starting := by
  obtain ⟨front, back, split, set⟩ := set_splits found
  simp only [starting, set]
  rw [split, List.countP_append, List.countP_append, List.countP_cons, List.countP_cons]

theorem step_timed (timed : w.Timed n) (step : w.Step hostOf event w')
    (stays : event ≠ .destroys) : w'.Timed (n + opens w event) := by
  cases step.took with
  | requests method params uuid => exact timed.addCall _
  | calls method params => exact timed.begin method params
  | @checked r k probe ranking found inside unended =>
    refine ⟨timed.intervals, timed.remembered, ?_⟩
    rw [← timed.count]
    exact congrArg (w.created + ·) (starting_set found _)
  | @swept r ranking found owner all =>
    have dropped : SdkWorld.Timed n { w with rankings := w.rankings.eraseIdx r } := by
      refine ⟨timed.intervals, timed.remembered, ?_⟩
      have fewer := starting_eraseIdx found
      rw [owner] at fewer
      rw [← timed.count]
      exact congrArg (w.created + ·) fewer
    unfold sweep
    split
    · exact dropped.setEndpoint _
    · exact dropped
  | @initialized r i ranking call found owner all here point =>
    refine ⟨?_, rfl, ?_⟩
    · have intervals : w.intervals ++ [w.created] = List.range (w.created + 1) := by
        rw [List.range_succ, timed.intervals]
      exact intervals
    · have fewer := starting_eraseIdx found
      rw [owner, RankingOwner.isRequest, if_pos rfl] at fewer
      have count := timed.count
      rw [← fewer] at count
      rw [← count]
      exact Nat.succ_add_eq_add_succ _ _
  | @proceeds i now uuid call here point =>
    unfold attempt
    split
    · exact timed.catches i uuid call
    · exact timed.setCall i _
  | @replies i reply uuid call here point =>
    unfold SdkWorld.reply
    split
    · exact timed.setCall i _
    · exact timed.catches i uuid call
  | @baseReplies i retries reply uuid call post here point =>
    unfold SdkWorld.baseReply
    split
    · exact timed.setCall i _
    · exact timed.setCall i _
  | ticks live =>
    refine ⟨timed.intervals, timed.remembered, ?_⟩
    rw [starting_rankPeers]
    exact timed.count
  | destroys => exact absurd rfl stays

theorem run_timed (run : Run (Step hostOf) w events w') (timed : w.Timed n)
    (stays : .destroys ∉ events) : w'.Timed (n + early hostOf w events) := by
  induction run generalizing n with
  | nil w => exact timed
  | @cons w next w' event events step _ ih =>
    obtain ⟨first, rest⟩ := not_or.mp (mt List.mem_cons.mpr stays)
    have advanced : w.advance hostOf event = some next := step
    rw [early, advanced]
    dsimp only
    rw [← Nat.add_assoc]
    exact ih (step_timed timed step (Ne.symm first)) rest

/-- When all initializations have ended, a connection that is destroyed leaves a health check
running for each allowed call that came before the first initialization ended, but one. The
public requests of the base class start none. -/
theorem health_checks_left (hostOf : String → Option String) (endpoint : String) (privacy : Bool)
    (peers : List String) (events : List SdkEvent) (w : SdkWorld) (stays : .destroys ∉ events)
    (run : Run (Step hostOf) (.new endpoint privacy peers) (events ++ [.destroys]) w)
    (initialized : ∀ ranking ∈ w.rankings, ranking.owner = .timer) :
    w.intervals.length = early hostOf (.new endpoint privacy peers) events - 1 := by
  obtain ⟨before, lives, last⟩ := run_append_iff.mp run
  obtain ⟨_, destroyed, nothing⟩ := run_cons_iff.mp last
  obtain rfl := run_nil_iff.mp nothing
  have start : (new endpoint privacy peers).Timed 0 := ⟨rfl, rfl, rfl⟩
  have timed := run_timed lives start stays
  obtain rfl := Option.some.inj destroyed
  have none_starts : before.starting = 0 := by
    refine List.countP_eq_zero.mpr ?_
    intro ranking member owned
    rw [initialized ranking member] at owned
    cases owned
  have count := timed.count
  rw [none_starts, Nat.zero_add, Nat.add_zero] at count
  rw [← count]
  dsimp only
  rw [timed.remembered, timed.intervals]
  cases before.created with
  | zero => rfl
  | succ created =>
    rw [if_neg (Nat.succ_ne_zero created), Nat.add_sub_cancel]
    dsimp only
    rw [List.length_erase_of_mem (List.mem_range.mpr (Nat.lt_succ_self created)),
      List.length_range]
    rfl

/-- Two calls at once, beside a public request. -/
theorem health_checks_left_two : ∃ w, Run (Step some) (.new "https://a" false [])
      ([.requests "getSlot" "[]" "id", .calls "getSlot" "[]", .calls "getSlot" "[]", .ranked 0,
        .ranked 0] ++ [.destroys]) w ∧
    w.intervals.length = 1 := by
  obtain ⟨w, followed, ranked⟩ : ∃ w, (new "https://a" false []).follow some
      ([.requests "getSlot" "[]" "id", .calls "getSlot" "[]", .calls "getSlot" "[]", .ranked 0,
        .ranked 0] ++ [.destroys]) =
        some w ∧ w.rankings.length = 0 :=
    Option.map_eq_some_iff.mp (by decide)
  have run := follow_run followed
  refine ⟨w, run, ?_⟩
  rw [health_checks_left some "https://a" false [] _ w (by simp) run]
  · decide
  · rw [List.length_eq_zero_iff.mp ranked]
    exact nofun

end SdkWorld

end Solnet.Sdk
