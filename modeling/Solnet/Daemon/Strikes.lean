import Solnet.Daemon.Quorum

/-! The strikes a node collects: how they relate to the values it returned, and what they come
to when the calls are made one after another. -/
namespace Solnet.Daemon.ConsensusRouter
open Runs

/-- The text that two replies have. -/
def winner (lib : Serde) (results : List (String × Except String Value)) : Option String :=
  ((results.map (ballot lib)).filterMap Prod.snd).find? fun k =>
    2 ≤ (Votes.voters k (results.map (ballot lib))).length

/-- A value the node returned has another text than `k`. -/
def differs (lib : Serde) (results : List (String × Except String Value)) (k nodeId : String) :
    Bool :=
  (results.map (ballot lib)).any fun b => b.1 = nodeId && b.2.any (· ≠ k)

/-- The call returned a value, and the node returned another one. -/
def Event.dissents (lib : Serde) (nodeId : String) : Event → Bool
  | .answers query post _ _ (.ok _) => (winner lib (query.results lib post)).any fun k =>
    differs lib (query.results lib post) k nodeId
  | _ => false

/-- When two replies agree, a selected node either agrees with them or returned another value:
it did not fail, nor was it asked twice and did both. -/
def Event.Clear (lib : Serde) : Event → Prop
  | .answers query post _ _ _ => ∀ k ∈ winner lib (query.results lib post), ∀ n ∈ query.selected,
    n ∉ Votes.voters k ((query.results lib post).map (ballot lib)) ↔
      differs lib (query.results lib post) k n = true
  | _ => True

/-- The strikes an event gives a node. -/
def Event.given (lib : Serde) (nodeId : String) : Event → Nat
  | .answers query post _ _ _ => (winner lib (query.results lib post)).elim 0 fun k =>
    (query.selected.filter fun n =>
      n ∉ Votes.voters k ((query.results lib post).map (ballot lib))).count nodeId
  | _ => 0

/-! Calls made one after another. -/

inductive Call where
  | refused (availableNodes : List String)
  | answered (availableNodes : List String) (query : Query)
      (post : Nat → String → Value → Except String Value) (clock : String → Nat)
      (order : List ((_ : String) × List String)) (outcome : Except ConsensusError Value)

namespace Call

def events : Call → List Event
  | .refused availableNodes => [.refuses availableNodes .insufficientNodes]
  | .answered availableNodes query post clock order outcome =>
    [.selects availableNodes query, .answers query post clock order outcome]

def selected : Call → List String
  | .refused _ => []
  | .answered _ query _ _ _ _ => query.selected

def outcome : Call → Except ConsensusError Value
  | .refused _ => .error .insufficientNodes
  | .answered _ _ _ _ _ outcome => outcome

end Call

/-- A whole call, with no other in flight. -/
def Performs (lib : Serde) (router : ConsensusRouter) (call : Call) (router' : ConsensusRouter) :
    Prop :=
  Run (Step lib) ⟨router, []⟩ call.events ⟨router', []⟩

structure Tidy (router : ConsensusRouter) : Prop where
  few : ∀ n, router.strikes n ≤ 3
  counted : ∀ n, router.failures n = router.strikes n

variable {lib : Serde} {router router' : ConsensusRouter} {query : Query}
  {results : List (String × Except String Value)} {order : List ((_ : String) × List String)}
  {selected agreeingNodes : List String} {clock : String → Nat} {nodeId k : String}
  {outcome : Except ConsensusError Value} {w w' : World} {event : Event} {events : List Event}
  {call : Call} {calls : List Call} {post : Nat → String → Value → Except String Value}

theorem winner_votes (won : winner lib results = some k) :
    2 ≤ (Votes.voters k (results.map (ballot lib))).length := by
  have enough := List.find?_some won
  rwa [decide_eq_true_eq] at enough

theorem winner_of_votes (three : results.length = 3)
    (enough : 2 ≤ (Votes.voters k (results.map (ballot lib))).length) :
    winner lib results = some k := by
  have cast : k ∈ (results.map (ballot lib)).filterMap Prod.snd := by
    obtain ⟨n, votes⟩ := List.exists_mem_of_length_pos (Nat.lt_of_lt_of_le Nat.zero_lt_two enough)
    exact List.mem_filterMap.mpr ⟨_, Votes.mem_voters_iff.mp votes, rfl⟩
  cases won : winner lib results with
  | none =>
    have short := List.find?_eq_none.mp won k cast
    exact absurd (decide_eq_true enough) short
  | some k' =>
    have votes := winner_votes won
    by_contra other
    have both := Votes.voters_disjoint (results.map (ballot lib)) fun same : k' = k =>
      other (congrArg some same)
    rw [List.length_map, three] at both
    omega

theorem strikes_of_punished {dissenters : List String}
    (ok : dissenters.foldlM (fun router nodeId => router.punishNode (clock nodeId) nodeId
      "Returned value diverged from 2-of-3 consensus") router = .ok router') (n : String) :
    router'.strikes n = router.strikes n + dissenters.count n := by
  induction dissenters generalizing router with
  | nil =>
    obtain rfl := Except.ok.inj ok
    rfl
  | cons d dissenters ih =>
    obtain ⟨next, struck, rest⟩ := Fallible.bind_ok_iff.mp ok
    rw [ih rest, (struck_of_punishNode struck).strikes, List.count_cons]
    simp only [beq_iff_eq, eq_comm (a := d)]
    omega

/-! What each kind of step does. -/

theorem refuses_same {availableNodes : List String} {error : ConsensusError}
    (step : Step lib w (.refuses availableNodes error) w') : w' = w := by
  cases step
  rfl

theorem selects_cases {availableNodes : List String}
    (step : Step lib w (.selects availableNodes query) w') :
    query.selected.length = 3 ∧ (∀ n ∈ query.selected, w.router.strikes n < 3) ∧
      w' = { w with inFlight := query :: w.inFlight } := by
  cases step with
  | selects enough three chosen space => exact ⟨three, standing_of_chosen chosen, rfl⟩

theorem answers_inFlight (step : Step lib w (.answers query post clock order outcome) w') :
    query ∈ w.inFlight ∧ w.inFlight.length = w'.inFlight.length + 1 := by
  cases step with
  | answers perm concludes =>
    refine ⟨List.mem_append_right _ List.mem_cons_self, ?_⟩
    rw [List.length_append, List.length_append, List.length_cons]
    omega

/-- A call returns a value when two replies agree, and strikes those that did not. -/
theorem answers_cases (three : query.selected.length = 3)
    (step : Step lib w (.answers query post clock order outcome) w') :
    winner lib (query.results lib post) = none ∧ (∃ e, outcome = .error e) ∧
        w'.router = w.router ∨
      ∃ k, winner lib (query.results lib post) = some k ∧
        outcome = .ok ((lib.fromStr k).getD .null) ∧
        punishDissenters clock query.selected
          (Votes.voters k ((query.results lib post).map (ballot lib))) w.router =
            .ok w'.router := by
  have three : (query.results lib post).length = 3 := results_length.trans three
  cases step with
  | answers perm concludes =>
    rcases conclude_cases three perm concludes with ⟨failed, same, few⟩ | ⟨k, enough, rest⟩
    · refine .inl ⟨?_, failed, same⟩
      cases won : winner lib (query.results lib post) with
      | none => rfl
      | some k => exact absurd (winner_votes won) (Nat.not_le.mpr (few k))
    · exact .inr ⟨k, winner_of_votes three enough, rest⟩

/-- A call strikes nobody, or one of its nodes, and then it returns a value. -/
theorem answers_struck (three : query.selected.length = 3)
    (step : Step lib w (.answers query post clock order outcome) w') :
    w'.router = w.router ∨ (∃ v, outcome = .ok v) ∧
      ∃ nodeId ∈ query.selected, Struck w.router nodeId w'.router := by
  rcases answers_cases three step with ⟨_, _, same⟩ | ⟨k, _, rfl, _⟩
  · exact .inl same
  · have three : (query.results lib post).length = 3 := results_length.trans three
    cases step with
    | answers perm concludes =>
      rcases conclude_strikes three results_names perm concludes with same | ⟨d, chosen, struck, _⟩
      · exact .inl same
      · exact .inr ⟨⟨_, rfl⟩, d, chosen, struck⟩

/-- What a step does to the strikes. -/
theorem step_strikes (bounded : Bounded w) (step : Step lib w event w') (n : String) :
    w'.router.strikes n = w.router.strikes n + event.given lib n := by
  cases event with
  | refuses availableNodes error =>
    rw [refuses_same step]
    rfl
  | selects availableNodes query =>
    rw [(selects_cases step).2.2]
    rfl
  | answers query post clock order outcome =>
    have three := bounded.three query (answers_inFlight step).1
    rcases answers_cases three step with ⟨none, _, same⟩ | ⟨k, won, _, punished⟩
    · rw [Event.given, none, same]
      rfl
    · rw [punishDissenters_eq] at punished
      rw [Event.given, won]
      exact strikes_of_punished punished n

/-! Strikes and dissent. -/

theorem differs_names (differs : differs lib results k nodeId = true) :
    nodeId ∈ results.map Prod.fst := by
  obtain ⟨b, member, holds⟩ := List.any_eq_true.mp differs
  rw [Bool.and_eq_true, decide_eq_true_eq] at holds
  have names : (results.map (ballot lib)).map Prod.fst = results.map Prod.fst := ballot_names
  rw [← names, ← holds.1]
  exact List.mem_map_of_mem member

theorem dissenters_nodup (three : results.length = 3) (names : results.map Prod.fst = selected)
    (won : winner lib results = some k) :
    (selected.filter fun n => n ∉ Votes.voters k (results.map (ballot lib))).Nodup := by
  rcases dissenters_cases three names (winner_votes won) with none | ⟨nodeId, _, _, one⟩
  · rw [none]
    exact List.nodup_nil
  · rw [one]
    exact List.nodup_singleton nodeId

theorem one_eq_one_iff {p q : Prop} [Decidable p] [Decidable q] :
    (if p then 1 else 0) = (if q then 1 else 0) ↔ (p ↔ q) := by
  by_cases left : p <;> by_cases right : q <;> simp [left, right]

/-- A step gives one strike for each dissent, and no others, when it is clear. -/
theorem given_iff_clear (bounded : Bounded w) (step : Step lib w event w') :
    (∀ n, event.given lib n = if event.dissents lib n then 1 else 0) ↔ event.Clear lib := by
  cases event with
  | refuses availableNodes error => exact iff_of_true (fun _ => rfl) trivial
  | selects availableNodes query => exact iff_of_true (fun _ => rfl) trivial
  | answers query post clock order outcome =>
    have three := bounded.three query (answers_inFlight step).1
    rcases answers_cases three step with ⟨none, ⟨e, rfl⟩, _⟩ | ⟨k, won, rfl, _⟩
    · simp only [Event.given, Event.dissents, Event.Clear, none, Option.elim_none, if_false,
        Bool.false_eq_true, implies_true, reduceCtorEq, Option.mem_def, false_imp_iff]
    · have three : (query.results lib post).length = 3 := results_length.trans three
      have once := dissenters_nodup three results_names won
      simp only [Event.given, Event.dissents, Event.Clear, won, Option.elim_some, Option.any_some,
        once.count, one_eq_one_iff, Option.mem_def, Option.some.injEq, forall_eq',
        List.mem_filter, decide_eq_true_eq]
      apply forall_congr'
      intro n
      by_cases chosen : n ∈ query.selected
      · simp only [chosen, true_and, true_imp_iff]
      · have agrees : ¬ differs lib (query.results lib post) k n = true := by
          intro differs
          have named := differs_names differs
          rw [results_names] at named
          exact chosen named
        simp [chosen, agrees]

/-! Runs. -/

theorem run_strikes_from (bounded : Bounded w) (run : Run (Step lib) w events w') (n : String) :
    w'.router.strikes n = w.router.strikes n + (events.map fun e => e.given lib n).sum := by
  induction run with
  | nil w => rfl
  | cons step _ ih =>
    rw [ih (step_bounded _ _ _ bounded step), step_strikes bounded step, List.map_cons,
      List.sum_cons, Nat.add_assoc]

theorem run_strikes (run : Run (Step lib) .start events w) (n : String) :
    w.router.strikes n = (events.map fun e => e.given lib n).sum := by
  rw [run_strikes_from bounded_start run, show World.start.router.strikes n = 0 from rfl,
    Nat.zero_add]

theorem sum_given_of_clear (clear : ∀ e ∈ events, ∀ n,
    e.given lib n = if e.dissents lib n then 1 else 0) (n : String) :
    (events.map fun e => e.given lib n).sum = events.countP (Event.dissents lib n) := by
  induction events with
  | nil => rfl
  | cons e events ih =>
    obtain ⟨first, rest⟩ := List.forall_mem_cons.mp clear
    rw [List.map_cons, List.sum_cons, List.countP_cons, ih rest, first n, Nat.add_comm]

theorem run_events (run : Run (Performs lib) router calls router') :
    Run (Step lib) ⟨router, []⟩ (calls.flatMap Call.events) ⟨router', []⟩ := by
  induction run with
  | nil router => exact .nil _
  | cons performs _ ih => exact run_append_iff.mpr ⟨_, performs, ih⟩

/-! Calls of three nodes, in which two return one value. -/

def asked (post : Nat → String → Value → Except String Value) (value : Value) : Call :=
  .answered threeNodes threeWay post (fun _ => 0)
    (voteMap boolSerde (threeWay.results boolSerde post)).entries (.ok value)

/-- After any calls that leave the three nodes standing. -/
theorem asked_performs {h : Value} (run : Run (Performs boolSerde) .new calls router)
    (standing : ∀ n ∈ threeNodes, router.strikes n < 3)
    (majority : Majority h (threeWay.results boolSerde post)) :
    ∃ router', Performs boolSerde router
      (asked post ((boolSerde.fromStr (boolSerde.toString h)).getD .null)) router' := by
  have all : router.eligible threeNodes = threeNodes := by
    apply List.filter_eq_self.mpr
    intro n member
    rw [Bool.not_eq_true', ← Bool.not_eq_true, isBlacklisted_iff, Nat.not_le]
    exact standing n member
  have selects : Step boolSerde ⟨router, []⟩ (.selects threeNodes threeWay)
      ⟨router, [threeWay]⟩ := by
    refine .selects ?_ rfl ?_ (Nat.two_pow_pos 31)
    · rw [all]
      decide
    · rw [all]
      exact List.Subperm.refl _
  have bounded := step_bounded _ _ _ (run_bounded (run_events run)) selects
  obtain ⟨⟨router', inFlight⟩, answers⟩ := answers_majority bounded List.mem_cons_self
    (fun _ => 0) majority (.refl _)
  obtain rfl : inFlight = [] :=
    List.eq_nil_of_length_eq_zero (Nat.succ.inj (answers_inFlight answers).2.symm)
  exact ⟨router', .cons selects (.cons answers (.nil _))⟩

/-- Of the nodes that are asked, only the last is not with the two. -/
def LastAlone (post : Nat → String → Value → Except String Value) : Prop :=
  ∃ k ∈ winner boolSerde (threeWay.results boolSerde post),
    (threeWay.selected.filter fun n => n ∉ Votes.voters k
      ((threeWay.results boolSerde post).map (ballot boolSerde))) = ["http://c:9000"]

theorem asked_given (alone : LastAlone post) (value : Value) (n : String) :
    ((asked post value).events.map fun e => e.given boolSerde n).sum =
      ["http://c:9000"].count n := by
  obtain ⟨k, won, others⟩ := alone
  rw [Option.mem_def] at won
  simp only [asked, Call.events, List.map_cons, List.map_nil, Event.given, won,
    Option.elim_some, others, List.sum_cons, List.sum_nil, Nat.zero_add, Nat.add_zero]

/-- The last node gets a strike in each of up to three calls. -/
theorem asked_thrice {h : Value} (majority : Majority h (threeWay.results boolSerde post))
    (returned : (boolSerde.fromStr (boolSerde.toString h)).getD .null = h)
    (alone : LastAlone post) (i : Nat) (few : i ≤ 3) :
    ∃ router, Run (Performs boolSerde) .new (List.replicate i (asked post h)) router ∧
      ∀ n, router.strikes n = i * ["http://c:9000"].count n := by
  induction i with
  | zero => exact ⟨.new, .nil _, fun n => by simp [new, strikes]⟩
  | succ i ih =>
    obtain ⟨router, run, strikes⟩ := ih (Nat.le_of_succ_le few)
    have standing : ∀ n ∈ threeNodes, router.strikes n < 3 := by
      intro n _
      have once : ["http://c:9000"].count n ≤ 1 := List.count_le_length
      have bound := Nat.mul_le_mul_left i once
      rw [strikes n]
      omega
    obtain ⟨router', performs⟩ := asked_performs run standing majority
    rw [returned] at performs
    rw [List.replicate_succ']
    refine ⟨router', run_append_iff.mpr ⟨router, run, .cons performs (.nil router')⟩, fun n => ?_⟩
    rw [run_strikes_from (run_bounded (run_events run)) performs, strikes n,
      asked_given alone h n, Nat.succ_mul]

/-! The last of the nodes returns another value. -/

def dissenting : Call := asked lastDeviates (.bool true)

theorem bool_returned (value : Bool) :
    (boolSerde.fromStr (boolSerde.toString (.bool value))).getD .null = .bool value := by
  rw [boolSerde_fromStr]
  cases value <;> rfl

theorem dissenting_performs : ∃ router, Performs boolSerde .new dissenting router := by
  have standing : ∀ n ∈ threeNodes, ConsensusRouter.new.strikes n < 3 :=
    fun _ _ => Nat.zero_lt_succ 2
  have performs := asked_performs (.nil ConsensusRouter.new) standing threeWay_majority
  rwa [bool_returned true] at performs

/-- All along a run each node has as many strikes as calls it dissented in, exactly when each
step is clear. -/
theorem strikes_match_iff {lib : Serde} {events : List Event} {w : World}
    (run : Run (Step lib) .start events w) :
    (∀ pre w', pre <+: events → Run (Step lib) .start pre w' →
      ∀ n, w'.router.strikes n = pre.countP (Event.dissents lib n)) ↔
    ∀ e ∈ events, e.Clear lib := by
  constructor
  · intro matched e member
    obtain ⟨pre, post, rfl⟩ := List.append_of_mem member
    obtain ⟨s, before, rest⟩ := run_append_iff.mp run
    obtain ⟨t, step, _⟩ := run_cons_iff.mp rest
    have through : Run (Step lib) .start (pre ++ [e]) t :=
      run_append_iff.mpr ⟨s, before, .cons step (.nil t)⟩
    refine (given_iff_clear (run_bounded before) step).mp fun n => ?_
    have first := matched pre s ⟨e :: post, rfl⟩ before n
    have second := matched (pre ++ [e]) t ⟨post, by simp⟩ through n
    rw [step_strikes (run_bounded before) step, first, List.countP_append, List.countP_singleton]
      at second
    omega
  · intro clear pre w' sub part n
    rw [run_strikes part]
    apply sum_given_of_clear
    intro e member
    obtain ⟨before, after, rfl⟩ := List.append_of_mem member
    obtain ⟨s, first, rest⟩ := run_append_iff.mp part
    obtain ⟨t, step, _⟩ := run_cons_iff.mp rest
    exact (given_iff_clear (run_bounded first) step).mpr
      (clear e (sub.subset (List.mem_append_right _ List.mem_cons_self)))

theorem dissenting_matched : ∃ router, Performs boolSerde .new dissenting router ∧
    ∀ n, router.strikes n = dissenting.events.countP (Event.dissents boolSerde n) := by
  obtain ⟨router, run⟩ := dissenting_performs
  refine ⟨router, run, (strikes_match_iff run).mpr ?_ dissenting.events _ List.prefix_rfl run⟩
  intro e member
  rcases List.mem_cons.mp member with rfl | member
  · trivial
  · obtain rfl := List.mem_singleton.mp member
    intro k won
    have agreed : winner boolSerde (threeWay.results boolSerde lastDeviates) = some "true" := by
      decide
    obtain rfl : "true" = k := Option.some.inj (agreed.symm.trans won)
    decide

/-! The last of the nodes times out in each call. -/

def timedOut : Call := asked (silentAt 2) .null

theorem timedOut_alone : LastAlone (silentAt 2) :=
  ⟨"null", by decide, by decide⟩

theorem timedOut_dissents :
    timedOut.events.countP (Event.dissents boolSerde "http://c:9000") = 0 := by
  decide

theorem silent_node_blacklisted : ∃ events w, Run (Step boolSerde) .start events w ∧
    w.router.strikes "http://c:9000" ≠ events.countP (Event.dissents boolSerde "http://c:9000") ∧
    w.router.isBlacklisted "http://c:9000" = true := by
  have majority : Majority .null (threeWay.results boolSerde (silentAt 2)) :=
    ⟨"http://a:9000", "http://b:9000", "http://c:9000", .error "operation timed out", .refl _⟩
  have returned : (boolSerde.fromStr (boolSerde.toString .null)).getD .null = .null := by
    rw [boolSerde_fromStr]
    rfl
  obtain ⟨router, run, strikes⟩ := asked_thrice majority returned timedOut_alone 3 (Nat.le_refl 3)
  have three : router.strikes "http://c:9000" = 3 := strikes "http://c:9000"
  refine ⟨_, _, run_events run, ?_, isBlacklisted_iff.mpr three.ge⟩
  have silent : (timedOut.events ++ (timedOut.events ++ (timedOut.events ++ []))).countP
      (Event.dissents boolSerde "http://c:9000") = 0 := by
    simp only [List.countP_append, timedOut_dissents, List.countP_nil]
  rw [three]
  exact fun same => absurd (same.trans silent) (by decide)

/-! Calls made one after another. -/

/-- A call that chooses its nodes chooses standing ones, and strikes at most one of them, when
it returns a value. -/
theorem performs_cases (performs : Performs lib router call router') :
    (∀ n ∈ call.selected, router.strikes n < 3) ∧
      (router' = router ∨ (∃ v, call.outcome = .ok v) ∧
        ∃ nodeId ∈ call.selected, Struck router nodeId router') := by
  cases call with
  | refused availableNodes =>
    obtain ⟨w, step, rest⟩ := run_cons_iff.mp performs
    obtain rfl := run_nil_iff.mp rest
    exact ⟨nofun, .inl (congrArg World.router (refuses_same step))⟩
  | answered availableNodes query post clock order outcome =>
    obtain ⟨w, choice, rest⟩ := run_cons_iff.mp performs
    obtain ⟨w', answers, rest⟩ := run_cons_iff.mp rest
    obtain rfl := run_nil_iff.mp rest
    obtain ⟨three, standing, rfl⟩ := selects_cases choice
    exact ⟨standing, answers_struck three answers⟩

theorem performs_tidy (router : ConsensusRouter) (call : Call) (router' : ConsensusRouter)
    (tidy : Tidy router) (performs : Performs lib router call router') : Tidy router' := by
  obtain ⟨standing, rfl | ⟨_, d, chosen, struck⟩⟩ := performs_cases performs
  · exact tidy
  · constructor
    · intro n
      rw [struck.strikes]
      by_cases same : n = d
      · have few := standing d chosen
        rw [if_pos same, same]
        omega
      · rw [if_neg same]
        exact tidy.few n
    · intro n
      rw [struck.strikes, struck.failures, tidy.counted n]

theorem performs_keeps (performs : Performs lib router call router')
    (blacklisted : 3 ≤ router.strikes nodeId) :
    nodeId ∉ call.selected ∧ 3 ≤ router'.strikes nodeId := by
  obtain ⟨standing, changed⟩ := performs_cases performs
  constructor
  · intro chosen
    have few := standing nodeId chosen
    omega
  · rcases changed with rfl | ⟨_, d, _, struck⟩
    · exact blacklisted
    · rw [struck.strikes]
      omega

theorem run_keeps (run : Run (Performs lib) router calls router')
    (blacklisted : 3 ≤ router.strikes nodeId) :
    3 ≤ router'.strikes nodeId ∧ ∀ call ∈ calls, nodeId ∉ call.selected := by
  induction run with
  | nil router => exact ⟨blacklisted, nofun⟩
  | cons performs _ ih =>
    obtain ⟨unchosen, still⟩ := performs_keeps performs blacklisted
    obtain ⟨kept, rest⟩ := ih still
    exact ⟨kept, List.forall_mem_cons.mpr ⟨unchosen, rest⟩⟩

/-- After any calls made one after another, no node has more than three strikes and each has as
many failures; a next call adds one strike, and then returns a value, or none; and a node
with three strikes stays blacklisted and is not selected again. -/
theorem strike_bookkeeping {lib : Serde} {calls : List Call} {router : ConsensusRouter}
    (run : Run (Performs lib) .new calls router) :
    (∀ n, router.strikes n ≤ 3 ∧ router.failures n = router.strikes n) ∧
    (∀ call router', Performs lib router call router' →
      (∀ n, router'.strikes n = router.strikes n) ∨ (∃ v, call.outcome = .ok v) ∧
        ∃ nodeId, ∀ n, router'.strikes n = router.strikes n + if n = nodeId then 1 else 0) ∧
    ∀ n, router.strikes n = 3 → ∀ later router', Run (Performs lib) router later router' →
      router'.isBlacklisted n = true ∧ ∀ call ∈ later, n ∉ call.selected := by
  have start : Tidy .new := ⟨fun _ => Nat.zero_le 3, fun _ => rfl⟩
  have tidy := run.invariant performs_tidy start
  refine ⟨fun n => ⟨tidy.few n, tidy.counted n⟩, ?_, ?_⟩
  · intro call router' performs
    obtain ⟨_, rfl | ⟨returned, d, _, struck⟩⟩ := performs_cases performs
    · exact .inl fun _ => rfl
    · exact .inr ⟨returned, d, struck.strikes⟩
  · intro n three later router' rest
    obtain ⟨kept, unchosen⟩ := run_keeps rest three.ge
    exact ⟨isBlacklisted_iff.mpr kept, unchosen⟩

theorem dissenting_alone : LastAlone lastDeviates :=
  ⟨"true", by decide, by decide⟩

/-- Three such calls blacklist the last node, and a call of the three is refused then. -/
theorem strike_bookkeeping_dissenting : ∃ router,
    Run (Performs boolSerde) .new (List.replicate 3 dissenting) router ∧
      router.strikes "http://c:9000" = 3 ∧ router.failures "http://c:9000" = 3 ∧
      Performs boolSerde router (.refused threeNodes) router ∧
      ∀ later router', Run (Performs boolSerde) router later router' →
        router'.isBlacklisted "http://c:9000" = true ∧
          ∀ call ∈ later, "http://c:9000" ∉ call.selected := by
  obtain ⟨router, run, strikes⟩ :=
    asked_thrice threeWay_majority (bool_returned true) dissenting_alone 3 (Nat.le_refl 3)
  have three : router.strikes "http://c:9000" = 3 := strikes "http://c:9000"
  obtain ⟨counts, _, keeps⟩ := strike_bookkeeping run
  have blacklisted : router.isBlacklisted "http://c:9000" = true := isBlacklisted_iff.mpr three.ge
  have few : (router.eligible threeNodes).length < 3 :=
    List.length_filter_lt_length_iff_exists.mpr
      ⟨"http://c:9000", by decide, by rw [blacklisted]; decide⟩
  exact ⟨router, run, three, (counts _).2.trans three, .cons (.refuses few) (.nil _),
    keeps "http://c:9000" three⟩

end Solnet.Daemon.ConsensusRouter
