import Mathlib.Data.List.DropRight
import Solnet.Daemon.Checked
import Solnet.Daemon.Json
import Solnet.Lib.Runs
import Solnet.Lib.Votes

/-! The 2-of-3 vote. A call picks its nodes from those that are not blacklisted when it
starts, waits for the three replies, and then counts votes and strikes. Other calls may
start and end while it waits. -/
namespace Solnet.Daemon
open Fallible Runs

structure BlacklistEntry where
  reason : String
  timestamp : Nat
  strikeCount : Nat
  deriving DecidableEq, Repr

structure NodeStats where
  requestsProxied : Nat
  consensusFailures : Nat
  deriving DecidableEq, Repr

inductive ConsensusError where
  | insufficientNodes | noConsensus | allNodesFailed
  deriving DecidableEq, Repr

structure ConsensusRouter where
  blacklist : Table String BlacklistEntry
  nodeStats : Table String NodeStats

namespace ConsensusRouter

def new : ConsensusRouter := ⟨∅, ∅⟩

def isBlacklisted (router : ConsensusRouter) (nodeId : String) : Bool :=
  ((router.blacklist.lookup nodeId).map fun e => decide (3 ≤ e.strikeCount)).getD false

def eligible (router : ConsensusRouter) (availableNodes : List String) : List String :=
  availableNodes.filter fun n => !router.isBlacklisted n

def trimEndSlashes (endpoint : String) : String :=
  String.ofList (endpoint.toList.rdropWhile (· = '/'))

def rpcBody (method : String) (params : Value) : Value :=
  .object [("id", .number (.int 1)), ("jsonrpc", .string "2.0"), ("method", .string method),
    ("params", params)]

/-- One query. `post` is what the post of a body to a URL comes to: the JSON of the reply,
or the text of an error. -/
def queryNode (lib : Serde) (post : String → Value → Except String Value)
    (nodeEndpoint method : String) (params : Value) : Except String Value := do
  let json ← post (trimEndSlashes nodeEndpoint ++ "/rpc") (rpcBody method params)
  match json.get "error" with
  | some err => .error ("RPC error: " ++ lib.toString err)
  | none => .ok (json.index "result")

structure Query where
  method : String
  params : Value
  selected : List String

/-- The replies in the order of the queries, whichever came first. -/
def Query.results (lib : Serde) (post : Nat → String → Value → Except String Value)
    (query : Query) : List (String × Except String Value) :=
  query.selected.zipIdx.map fun q => (q.1, queryNode lib (post q.2) q.1 query.method query.params)

/-- The vote of a reply: the text of its value, and none for an error. -/
def ballot (lib : Serde) : String × Except String Value → String × Option String
  | (nodeId, .ok val) => (nodeId, some (lib.toString val))
  | (nodeId, .error _) => (nodeId, none)

def voteMap (lib : Serde) (results : List (String × Except String Value)) :
    Table String (List String) :=
  Votes.tally (results.map (ballot lib))

def errorCount (results : List (String × Except String Value)) : Nat :=
  results.countP fun r => !r.2.isOk

def punishNode (router : ConsensusRouter) (now : Nat) (nodeId reason : String) :
    Checked ConsensusRouter := do
  let entry := (router.blacklist.lookup nodeId).getD ⟨reason, now, 0⟩
  let strikeCount ← checkedAdd 32 entry.strikeCount 1
  let stats := (router.nodeStats.lookup nodeId).getD ⟨0, 0⟩
  let consensusFailures ← checkedAdd 64 stats.consensusFailures 1
  return ⟨router.blacklist.insert nodeId { entry with strikeCount },
    router.nodeStats.insert nodeId { stats with consensusFailures }⟩

/-- The loop over the selected nodes. `clock` is the reading at the punishment of a node. -/
def punishDissenters (clock : String → Nat) (selected agreeingNodes : List String)
    (router : ConsensusRouter) : Checked ConsensusRouter :=
  selected.foldlM (fun router nodeId =>
    if nodeId ∈ agreeingNodes then return router
    else router.punishNode (clock nodeId) nodeId
      "Returned value diverged from 2-of-3 consensus") router

/-- What a call returns once it has the replies. `order` is the vote map in the order in
which the loop over it goes. -/
def conclude (lib : Serde) (clock : String → Nat) (selected : List String)
    (results : List (String × Except String Value)) (order : List ((_ : String) × List String))
    (router : ConsensusRouter) : Checked (Except ConsensusError Value × ConsensusRouter) :=
  if errorCount results = 3 then return (.error .allNodesFailed, router)
  else match order.find? fun e => decide (2 ≤ e.2.length) with
    | some ⟨canonical, agreeingNodes⟩ => do
      let consensusVal := (lib.fromStr canonical).getD .null
      let router ← punishDissenters clock selected agreeingNodes router
      return (.ok consensusVal, router)
    | none => return (.error .noConsensus, router)

/-! Runs of calls. -/

structure World where
  router : ConsensusRouter
  inFlight : List Query

def World.start : World := ⟨.new, []⟩

/-- A call in flight has a connection open, and file descriptors are `i32`. -/
def descriptors : Nat := 2 ^ 31

inductive Event where
  | refuses (availableNodes : List String) (error : ConsensusError)
  | selects (availableNodes : List String) (query : Query)
  | answers (query : Query) (post : Nat → String → Value → Except String Value)
      (clock : String → Nat) (order : List ((_ : String) × List String))
      (outcome : Except ConsensusError Value)

inductive Step (lib : Serde) : World → Event → World → Prop where
  | refuses {w : World} {availableNodes : List String}
      (few : (w.router.eligible availableNodes).length < 3) :
      Step lib w (.refuses availableNodes .insufficientNodes) w
  | selects {w : World} {availableNodes : List String} {query : Query}
      (enough : 3 ≤ (w.router.eligible availableNodes).length)
      (three : query.selected.length = 3)
      (chosen : query.selected.Subperm (w.router.eligible availableNodes))
      (room : w.inFlight.length < descriptors) :
      Step lib w (.selects availableNodes query) { w with inFlight := query :: w.inFlight }
  | answers {router router' : ConsensusRouter} {before after : List Query} {query : Query}
      {post : Nat → String → Value → Except String Value} {clock : String → Nat}
      {order : List ((_ : String) × List String)} {outcome : Except ConsensusError Value}
      (perm : order.Perm (voteMap lib (query.results lib post)).entries)
      (concludes : conclude lib clock query.selected (query.results lib post) order router =
        .ok (outcome, router')) :
      Step lib ⟨router, before ++ query :: after⟩ (.answers query post clock order outcome)
        ⟨router', before ++ after⟩

def Majority (h : Value) (results : List (String × Except String Value)) : Prop :=
  ∃ a b c last, results.Perm [(a, .ok h), (b, .ok h), (c, last)]

def Deviates (h : Value) (results : List (String × Except String Value)) (nodeId : String) : Prop :=
  ∃ result, (nodeId, result) ∈ results ∧ result ≠ .ok h

def Event.Honest (lib : Serde) : Event → Prop
  | .answers query post _ _ _ => ∃ h, Majority h (query.results lib post)
  | _ => True

def Event.Spares (lib : Serde) (nodeId : String) : Event → Prop
  | .answers query post _ _ _ =>
    ∀ h, Majority h (query.results lib post) → ¬ Deviates h (query.results lib post) nodeId
  | _ => True

def strikes (router : ConsensusRouter) (nodeId : String) : Nat :=
  ((router.blacklist.lookup nodeId).map BlacklistEntry.strikeCount).getD 0

def failures (router : ConsensusRouter) (nodeId : String) : Nat :=
  ((router.nodeStats.lookup nodeId).map NodeStats.consensusFailures).getD 0

variable {lib : Serde} {router router' : ConsensusRouter} {query : Query} {h : Value}
  {results : List (String × Except String Value)} {order : List ((_ : String) × List String)}
  {selected agreeingNodes : List String} {clock : String → Nat} {nodeId : String}
  {outcome : Except ConsensusError Value}

/-! Strikes. -/

theorem isBlacklisted_iff : router.isBlacklisted nodeId = true ↔ 3 ≤ router.strikes nodeId := by
  unfold isBlacklisted strikes
  cases router.blacklist.lookup nodeId with
  | none => exact iff_of_false Bool.false_ne_true (Nat.not_succ_le_zero 2)
  | some e => simp only [Option.map_some, Option.getD_some, decide_eq_true_eq]

/-- A node that is chosen is not blacklisted. -/
theorem standing_of_chosen {availableNodes : List String}
    (chosen : selected.Subperm (router.eligible availableNodes)) :
    ∀ n ∈ selected, router.strikes n < 3 := by
  intro n member
  have standing := (List.mem_filter.mp (chosen.subset member)).2
  rw [← Nat.not_le, ← isBlacklisted_iff]
  simpa using standing

structure Struck (router : ConsensusRouter) (nodeId : String) (router' : ConsensusRouter) :
    Prop where
  strikes : ∀ n, router'.strikes n = router.strikes n + if n = nodeId then 1 else 0
  failures : ∀ n, router'.failures n = router.failures n + if n = nodeId then 1 else 0

theorem punishNode_ok (now : Nat) (reason : String) (few : router.strikes nodeId + 1 < 2 ^ 32)
    (counted : router.failures nodeId + 1 < 2 ^ 64) :
    ∃ router', router.punishNode now nodeId reason = .ok router' := by
  have entry : ((router.blacklist.lookup nodeId).getD ⟨reason, now, 0⟩).strikeCount =
      router.strikes nodeId := by
    unfold strikes
    cases router.blacklist.lookup nodeId <;> rfl
  have stats : ((router.nodeStats.lookup nodeId).getD ⟨0, 0⟩).consensusFailures =
      router.failures nodeId := by
    unfold failures
    cases router.nodeStats.lookup nodeId <;> rfl
  refine ⟨_, bind_ok_iff.mpr ⟨_, addWithin_ok_iff.mpr ⟨?_, rfl⟩, bind_ok_iff.mpr
    ⟨_, addWithin_ok_iff.mpr ⟨?_, rfl⟩, rfl⟩⟩⟩
  · rw [entry]
    exact few
  · rw [stats]
    exact counted

theorem struck_of_punishNode {now : Nat} {reason : String}
    (ok : router.punishNode now nodeId reason = .ok router') : Struck router nodeId router' := by
  simp only [punishNode, bind_ok_iff, checkedAdd, addWithin_ok_iff, pure, Except.pure,
    Except.ok.injEq] at ok
  obtain ⟨_, ⟨_, rfl⟩, _, ⟨_, rfl⟩, rfl⟩ := ok
  constructor
  · intro n
    simp only [strikes, Table.lookup_insert]
    by_cases same : n = nodeId
    · subst same
      simp only [if_true, Option.map_some, Option.getD_some]
      cases router.blacklist.lookup n <;> rfl
    · simp only [if_neg same, Nat.add_zero]
  · intro n
    simp only [failures, Table.lookup_insert]
    by_cases same : n = nodeId
    · subst same
      simp only [if_true, Option.map_some, Option.getD_some]
      cases router.nodeStats.lookup n <;> rfl
    · simp only [if_neg same, Nat.add_zero]

theorem punishDissenters_eq : punishDissenters clock selected agreeingNodes router =
    (selected.filter fun n => n ∉ agreeingNodes).foldlM (fun router nodeId =>
      router.punishNode (clock nodeId) nodeId "Returned value diverged from 2-of-3 consensus")
      router := by
  unfold punishDissenters
  induction selected generalizing router with
  | nil => rfl
  | cons nodeId selected ih =>
    rw [List.filter_cons, List.foldlM_cons]
    by_cases agrees : nodeId ∈ agreeingNodes
    · simp only [agrees, if_true, not_true_eq_false, decide_false, Bool.false_eq_true, if_false]
      exact ih
    · simp only [agrees, if_false, not_false_eq_true, decide_true, if_true, List.foldlM_cons]
      refine congrArg _ (funext fun router' => ?_)
      exact ih

/-! Votes. -/

theorem results_names {post : Nat → String → Value → Except String Value} :
    (query.results lib post).map Prod.fst = query.selected := by
  rw [Query.results, List.map_map]
  exact List.zipIdx_map_fst 0 query.selected

theorem ballot_names : (results.map (ballot lib)).map Prod.fst = results.map Prod.fst := by
  rw [List.map_map]
  apply List.map_congr_left
  intro r _
  obtain ⟨n, reply⟩ := r
  cases reply <;> rfl

theorem Majority.length (majority : Majority h results) : results.length = 3 := by
  obtain ⟨a, b, c, last, perm⟩ := majority
  exact perm.length_eq

theorem Majority.eq {h' : Value} (first : Majority h results) (second : Majority h' results) :
    h = h' := by
  obtain ⟨a, b, c, last, perm⟩ := first
  obtain ⟨a', b', c', last', perm'⟩ := second
  have replies : [.ok h, .ok h, last].Perm [.ok h', .ok h', last'] :=
    (perm.symm.trans perm').map Prod.snd
  by_contra other
  have differs : (.ok h : Except String Value) ≠ .ok h' := fun same => other (Except.ok.inj same)
  -- the one reply beside the pair of `h'` takes the first `h`, and none is left for the second
  have dissent : last' = .ok h := by
    have member := replies.subset List.mem_cons_self
    simp only [List.mem_cons, differs, List.not_mem_nil, false_or, or_false] at member
    exact member.symm
  have rest : [.ok h, last].Perm [.ok h', .ok h'] := by
    have turned : [.ok h', .ok h', last'].Perm [last', .ok h', .ok h'] :=
      @List.perm_append_comm _ [_, _] [_]
    have swapped := replies.trans turned
    rw [dissent] at swapped
    exact swapped.cons_inv
  have member := rest.subset List.mem_cons_self
  simp only [List.mem_cons, differs, List.not_mem_nil, or_false] at member

theorem Majority.answered (majority : Majority h results) : errorCount results ≠ 3 := by
  obtain ⟨a, b, c, last, perm⟩ := majority
  have agreed : ∀ r : Except String Value, ([(a, .ok h), (b, .ok h), (c, r)] :
      List (String × Except String Value)).countP (fun r => !r.2.isOk) ≤ 1 := by
    intro r
    cases r <;> simp [Except.isOk, Except.toBool]
  have few := agreed last
  rw [errorCount, perm.countP_eq]
  omega

theorem Majority.votes (majority : Majority h results) (lib : Serde) :
    2 ≤ (Votes.voters (lib.toString h) (results.map (ballot lib))).length := by
  obtain ⟨a, b, c, last, perm⟩ := majority
  have same := ((perm.map (ballot lib)).filter
    fun b => decide (b.2 = some (lib.toString h))).map Prod.fst
  rw [Votes.voters, same.length_eq]
  simp only [List.map_cons, List.map_nil, ballot, List.filter_cons, decide_true, if_true,
    List.length_cons]
  omega

theorem Majority.found (majority : Majority h results)
    (perm : order.Perm (voteMap lib results).entries) :
    (order.find? fun e => decide (2 ≤ e.2.length)) =
      some ⟨lib.toString h, Votes.voters (lib.toString h) (results.map (ballot lib))⟩ := by
  apply Votes.find_majority perm (majority.votes lib)
  rw [List.length_map, majority.length]
  decide

theorem deviates_of_not_voter (member : nodeId ∈ results.map Prod.fst)
    (absent : nodeId ∉ Votes.voters (lib.toString h) (results.map (ballot lib))) :
    Deviates h results nodeId := by
  obtain ⟨⟨n, result⟩, found, rfl⟩ := List.mem_map.mp member
  refine ⟨result, found, ?_⟩
  rintro rfl
  exact absent (Votes.mem_voters_iff.mpr (List.mem_map.mpr ⟨_, found, rfl⟩))

theorem dissenters_few {k : String} (three : results.length = 3)
    (quorum : 2 ≤ (Votes.voters k (results.map (ballot lib))).length) :
    ((results.map Prod.fst).filter
      fun n => n ∉ Votes.voters k (results.map (ballot lib))).length ≤ 1 := by
  have all := Votes.dissenters_le (results.map (ballot lib)) k
  rw [ballot_names, List.length_map, three] at all
  omega

/-- Where two of three agree, at most one node remains to be punished. -/
theorem dissenters_cases {k : String} (three : results.length = 3)
    (names : results.map Prod.fst = selected)
    (quorum : 2 ≤ (Votes.voters k (results.map (ballot lib))).length) :
    (selected.filter fun n => n ∉ Votes.voters k (results.map (ballot lib))) = [] ∨
      ∃ nodeId ∈ selected, nodeId ∉ Votes.voters k (results.map (ballot lib)) ∧
        (selected.filter fun n => n ∉ Votes.voters k (results.map (ballot lib))) = [nodeId] := by
  have few := dissenters_few three quorum
  rw [names] at few
  cases dissenters : selected.filter fun n =>
      decide (n ∉ Votes.voters k (results.map (ballot lib))) with
  | nil => exact .inl rfl
  | cons nodeId others =>
    rw [dissenters, List.length_cons] at few
    obtain rfl : others = [] := List.eq_nil_of_length_eq_zero (by omega)
    have member : nodeId ∈ selected.filter fun n =>
        decide (n ∉ Votes.voters k (results.map (ballot lib))) := dissenters ▸ List.mem_cons_self
    obtain ⟨chosen, absent⟩ := List.mem_filter.mp member
    exact .inr ⟨nodeId, chosen, of_decide_eq_true absent, rfl⟩

theorem mem_ballots_iff {k : String} : (nodeId, some k) ∈ results.map (ballot lib) ↔
    ∃ val, (nodeId, .ok val) ∈ results ∧ lib.toString val = k := by
  rw [List.mem_map]
  constructor
  · rintro ⟨⟨n, result⟩, member, same⟩
    cases result with
    | ok val =>
      obtain ⟨rfl, texts⟩ := Prod.mk.inj same
      exact ⟨val, member, Option.some.inj texts⟩
    | error e => cases (Prod.mk.inj same).2
  · rintro ⟨val, member, rfl⟩
    exact ⟨_, member, rfl⟩

theorem voters_of_failed (failed : errorCount results = results.length) (k : String) :
    Votes.voters k (results.map (ballot lib)) = [] := by
  rw [errorCount, List.countP_eq_length] at failed
  apply List.eq_nil_iff_forall_not_mem.mpr
  intro n votes
  obtain ⟨val, member, _⟩ := mem_ballots_iff.mp (Votes.mem_voters_iff.mp votes)
  exact absurd (failed _ member) (by simp [Except.isOk, Except.toBool])

/-- A conclusion returns the value of the text that two replies have, and punishes those who
did not vote for it; or no two replies have one text, and it does nothing. -/
theorem conclude_cases (three : results.length = 3)
    (perm : order.Perm (voteMap lib results).entries)
    (ok : conclude lib clock selected results order router = .ok (outcome, router')) :
    ((∃ e, outcome = .error e) ∧ router' = router ∧
      ∀ k, (Votes.voters k (results.map (ballot lib))).length < 2) ∨
    ∃ k, 2 ≤ (Votes.voters k (results.map (ballot lib))).length ∧
      outcome = .ok ((lib.fromStr k).getD .null) ∧
      punishDissenters clock selected (Votes.voters k (results.map (ballot lib))) router =
        .ok router' := by
  unfold conclude at ok
  split at ok
  · rename_i failed
    obtain ⟨rfl, rfl⟩ := Prod.mk.inj (Except.ok.inj ok)
    refine .inl ⟨⟨_, rfl⟩, rfl, fun k => ?_⟩
    rw [voters_of_failed (failed.trans three.symm)]
    decide
  split at ok
  · rename_i canonical agreeingNodes found
    have enough := List.find?_some found
    rw [decide_eq_true_eq] at enough
    have voters := Votes.entry_voters perm _ (List.mem_of_find?_eq_some found)
    dsimp only at enough voters
    obtain ⟨next, punished, ok⟩ := bind_ok_iff.mp ok
    obtain ⟨rfl, rfl⟩ := Prod.mk.inj (Except.ok.inj ok)
    rw [voters] at enough punished
    exact .inr ⟨canonical, enough, rfl, punished⟩
  · rename_i missing
    obtain ⟨rfl, rfl⟩ := Prod.mk.inj (Except.ok.inj ok)
    refine .inl ⟨⟨_, rfl⟩, rfl, fun k => ?_⟩
    by_contra many
    have found := Votes.find_majority perm (Nat.le_of_not_lt many) (by
      rw [List.length_map, three]
      decide)
    cases found.symm.trans missing

/-- What a conclusion does to the counts: nothing, or one strike for one of its nodes. -/
theorem conclude_strikes (three : results.length = 3) (names : results.map Prod.fst = selected)
    (perm : order.Perm (voteMap lib results).entries)
    (ok : conclude lib clock selected results order router = .ok (outcome, router')) :
    router' = router ∨ ∃ nodeId ∈ selected, Struck router nodeId router' ∧
      ∀ h, Majority h results → Deviates h results nodeId := by
  rcases conclude_cases three perm ok with ⟨_, same, _⟩ | ⟨k, enough, _, punished⟩
  · exact .inl same
  · rw [punishDissenters_eq] at punished
    rcases dissenters_cases three names enough with none | ⟨nodeId, chosen, abstains, one⟩
    · rw [none] at punished
      exact .inl (Except.ok.inj punished).symm
    · rw [one] at punished
      obtain ⟨next', struck, ok⟩ := bind_ok_iff.mp punished
      obtain rfl := Except.ok.inj ok
      refine .inr ⟨nodeId, chosen, struck_of_punishNode struck, fun h majority => ?_⟩
      have same : k = lib.toString h := by
        by_contra other
        have both := Votes.voters_disjoint (results.map (ballot lib)) other
        have votes := majority.votes lib
        rw [List.length_map, three] at both
        omega
      rw [same] at abstains
      exact deviates_of_not_voter (names ▸ chosen) abstains

theorem conclude_agreed (clock : String → Nat) (majority : Majority h results)
    (names : results.map Prod.fst = selected)
    (perm : order.Perm (voteMap lib results).entries)
    (few : ∀ n ∈ selected, router.strikes n + 1 < 2 ^ 32)
    (counted : ∀ n, router.failures n + 1 < 2 ^ 64) :
    ∃ router', conclude lib clock selected results order router =
      .ok (.ok ((lib.fromStr (lib.toString h)).getD .null), router') := by
  have punished : ∃ router', punishDissenters clock selected
      (Votes.voters (lib.toString h) (results.map (ballot lib))) router = .ok router' := by
    rw [punishDissenters_eq]
    rcases dissenters_cases majority.length names (majority.votes lib) with
      none | ⟨nodeId, chosen, _, one⟩
    · rw [none]
      exact ⟨router, rfl⟩
    · rw [one]
      obtain ⟨router', struck⟩ := punishNode_ok (clock nodeId)
        "Returned value diverged from 2-of-3 consensus" (few nodeId chosen) (counted nodeId)
      exact ⟨router', bind_ok_iff.mpr ⟨router', struck, rfl⟩⟩
  obtain ⟨router', punished⟩ := punished
  refine ⟨router', ?_⟩
  unfold conclude
  rw [if_neg majority.answered, majority.found perm]
  exact bind_ok_iff.mpr ⟨router', punished, rfl⟩

theorem conclude_majority (clock : String → Nat) (majority : Majority h results)
    (names : results.map Prod.fst = selected)
    (perm : order.Perm (voteMap lib results).entries)
    (printed : lib.fromStr (lib.toString h) = some h)
    (few : ∀ n ∈ selected, router.strikes n + 1 < 2 ^ 32)
    (counted : ∀ n, router.failures n + 1 < 2 ^ 64) :
    ∃ router', conclude lib clock selected results order router = .ok (.ok h, router') := by
  have agreed := conclude_agreed clock majority names perm few counted
  rw [printed] at agreed
  exact agreed

/-! Runs. A node that is not blacklisted has at most two strikes, so it never collects more
than two and one for each call that was in flight. -/

structure Bounded (w : World) : Prop where
  room : ∀ n, w.router.strikes n + w.inFlight.countP (fun q => n ∈ q.selected) ≤ 2 + descriptors
  counted : ∀ n, w.router.failures n = w.router.strikes n
  three : ∀ q ∈ w.inFlight, q.selected.length = 3

theorem Bounded.few {w : World} (bounded : Bounded w) (member : query ∈ w.inFlight) {n : String}
    (chosen : n ∈ query.selected) : w.router.strikes n ≤ 1 + descriptors := by
  have waits : 0 < w.inFlight.countP fun q => n ∈ q.selected :=
    List.countP_pos_iff.mpr ⟨query, member, decide_eq_true chosen⟩
  have room := bounded.room n
  omega

theorem Bounded.fits {w : World} (bounded : Bounded w) (member : query ∈ w.inFlight) :
    (∀ n ∈ query.selected, w.router.strikes n + 1 < 2 ^ 32) ∧
      ∀ n, w.router.failures n + 1 < 2 ^ 64 := by
  constructor
  · intro n chosen
    have strikes := bounded.few member chosen
    unfold descriptors at strikes
    omega
  · intro n
    have room := bounded.room n
    rw [bounded.counted n]
    unfold descriptors at room
    omega

theorem results_length {post : Nat → String → Value → Except String Value} :
    (query.results lib post).length = query.selected.length := by
  rw [← results_names, List.length_map]

theorem Bounded.three_results {w : World} {post : Nat → String → Value → Except String Value}
    (bounded : Bounded w) (member : query ∈ w.inFlight) : (query.results lib post).length = 3 :=
  results_length.trans (bounded.three query member)

/-- The call that ends leaves room for a strike of each of its nodes. -/
theorem Bounded.room_answered {before after : List Query}
    (bounded : Bounded ⟨router, before ++ query :: after⟩) (n : String) :
    router.strikes n + (before ++ after).countP (fun q => n ∈ q.selected) +
      (if n ∈ query.selected then 1 else 0) ≤ 2 + descriptors := by
  have room := bounded.room n
  rw [List.countP_append, List.countP_cons] at room
  simp only [decide_eq_true_eq] at room
  rw [List.countP_append]
  omega

theorem step_bounded (w : World) (e : Event) (w' : World) (bounded : Bounded w)
    (step : Step lib w e w') : Bounded w' := by
  cases step with
  | refuses few => exact bounded
  | @selects _ availableNodes query enough three chosen space =>
    refine ⟨fun n => ?_, bounded.counted, ?_⟩
    · have room := bounded.room n
      rw [List.countP_cons]
      by_cases member : n ∈ query.selected
      · have few : w.router.strikes n < 3 := standing_of_chosen chosen n member
        have waiting : w.inFlight.countP (fun q => n ∈ q.selected) ≤ w.inFlight.length :=
          List.countP_le_length
        simp only [member, decide_true, if_true]
        omega
      · simp only [member, decide_false, Bool.false_eq_true, if_false]
        exact room
    · intro q member
      rcases List.mem_cons.mp member with rfl | member
      · exact three
      · exact bounded.three q member
  | @answers router router' before after query post clock order outcome perm concludes =>
    have three : (query.results lib post).length = 3 :=
      bounded.three_results (List.mem_append_right _ List.mem_cons_self)
    have others : ∀ q ∈ before ++ after, q.selected.length = 3 := by
      intro q member
      apply bounded.three q
      rcases List.mem_append.mp member with member | member
      · exact List.mem_append_left _ member
      · exact List.mem_append_right _ (List.mem_cons_of_mem _ member)
    rcases conclude_strikes three results_names perm concludes with rfl | ⟨d, chosen, struck, _⟩
    · exact ⟨fun n => Nat.le_of_add_right_le (bounded.room_answered n), bounded.counted, others⟩
    · refine ⟨fun n => ?_, fun n => ?_, others⟩
      · have room := bounded.room_answered n
        rw [struck.strikes]
        dsimp only
        by_cases same : n = d
        · subst same
          rw [if_pos chosen] at room
          rw [if_pos rfl]
          omega
        · rw [if_neg same]
          omega
      · have counted := bounded.counted n
        rw [struck.strikes, struck.failures]
        exact congrArg (· + _) counted

theorem bounded_start : Bounded .start :=
  ⟨fun _ => Nat.zero_le _, fun _ => rfl, fun _ member => nomatch member⟩

theorem run_bounded {events : List Event} {w : World} (run : Run (Step lib) .start events w) :
    Bounded w :=
  run.invariant step_bounded bounded_start

/-- A call in flight whose replies have a majority can end. -/
theorem answers_majority {w : World} {post : Nat → String → Value → Except String Value}
    (bounded : Bounded w) (member : query ∈ w.inFlight) (clock : String → Nat)
    (majority : Majority h (query.results lib post))
    (perm : order.Perm (voteMap lib (query.results lib post)).entries) :
    ∃ w', Step lib w (.answers query post clock order
      (.ok ((lib.fromStr (lib.toString h)).getD .null))) w' := by
  obtain ⟨few, counted⟩ := bounded.fits member
  obtain ⟨router', concludes⟩ := conclude_agreed clock majority results_names perm few counted
  obtain ⟨before, after, split⟩ := List.append_of_mem member
  obtain ⟨router, inFlight⟩ := w
  obtain rfl : inFlight = before ++ query :: after := split
  exact ⟨_, .answers perm concludes⟩

theorem step_unstruck (w : World) (e : Event) (w' : World)
    (inv : Bounded w ∧ w.router.strikes nodeId = 0)
    (step : Guarded (Step lib) (fun _ e => e.Honest lib ∧ e.Spares lib nodeId) w e w') :
    Bounded w' ∧ w'.router.strikes nodeId = 0 := by
  obtain ⟨bounded, unstruck⟩ := inv
  obtain ⟨step, honest, spares⟩ := step
  refine ⟨step_bounded w e w' bounded step, ?_⟩
  cases step with
  | refuses few => exact unstruck
  | selects enough three chosen space => exact unstruck
  | @answers router router' before after query post clock order outcome perm concludes =>
    have three : (query.results lib post).length = 3 :=
      bounded.three_results (List.mem_append_right _ List.mem_cons_self)
    obtain ⟨h, majority⟩ := honest
    rcases conclude_strikes three results_names perm concludes with rfl | ⟨d, _, struck, deviates⟩
    · exact unstruck
    · have other : nodeId ≠ d := by
        rintro rfl
        exact spares h majority (deviates h majority)
      rw [struck.strikes, if_neg other]
      exact unstruck

/-- Two honest replies of three decide each call, only the deviating node is struck, and a
node that never deviates is never blacklisted. -/
theorem honest_majority_decides (lib : Serde) (events : List Event) (w : World)
    (run : Run (Step lib) .start events w) (honest : ∀ e ∈ events, e.Honest lib) :
    (∀ query ∈ w.inFlight, ∀ post clock order h, Majority h (query.results lib post) →
      lib.fromStr (lib.toString h) = some h →
      order.Perm (voteMap lib (query.results lib post)).entries →
      ∃ router', conclude lib clock query.selected (query.results lib post) order w.router =
          .ok (.ok h, router') ∧
        ∀ nodeId, router'.strikes nodeId ≠ w.router.strikes nodeId →
          Deviates h (query.results lib post) nodeId) ∧
    ∀ nodeId, (∀ e ∈ events, e.Spares lib nodeId) → w.router.isBlacklisted nodeId = false := by
  have bounded := run_bounded run
  constructor
  · intro query member post clock order h majority printed perm
    obtain ⟨few, counted⟩ := bounded.fits member
    obtain ⟨router', concludes⟩ := conclude_majority clock majority results_names perm printed
      few counted
    refine ⟨router', concludes, fun n changed => ?_⟩
    rcases conclude_strikes majority.length results_names perm concludes with
      rfl | ⟨d, _, struck, deviates⟩
    · exact absurd rfl changed
    · have same : n = d := by
        by_contra other
        exact changed (by rw [struck.strikes, if_neg other]; rfl)
      rw [same]
      exact deviates h majority
  · intro nodeId spares
    have guarded := run.guarded (C := fun _ e => e.Honest lib ∧ e.Spares lib nodeId)
      fun e member _ => ⟨honest e member, spares e member⟩
    have unstruck := (guarded.invariant step_unstruck ⟨bounded_start, rfl⟩).2
    rw [← Bool.not_eq_true, isBlacklisted_iff, unstruck]
    decide

/-! Three nodes answer one call, the last of them with another value. -/

def boolSerde : Serde where
  fromSlice bytes := (String.fromUTF8? bytes).bind fun text =>
    if text = "true" then some (.bool true)
    else if text = "false" then some (.bool false)
    else none
  toString
    | .bool value => if value then "true" else "false"
    | _ => "null"
  sha256Hex _ := ""

theorem boolSerde_fromStr (text : String) : boolSerde.fromStr text =
    if text = "true" then some (.bool true)
    else if text = "false" then some (.bool false)
    else none := by
  simp only [Serde.fromStr, boolSerde, fromUTF8?_toUTF8, Option.bind_some]

def threeNodes : List String := ["http://a:9000", "http://b:9000", "http://c:9000"]

def threeWay : Query := ⟨"isBlockhashValid", .array [], threeNodes⟩

def lastDeviates (i : Nat) (_ : String) (_ : Value) : Except String Value :=
  .ok (.object [("id", .number (.int 1)), ("jsonrpc", .string "2.0"),
    ("result", .bool (decide (i < 2)))])

theorem threeWay_results : threeWay.results boolSerde lastDeviates =
    [("http://a:9000", .ok (.bool true)), ("http://b:9000", .ok (.bool true)),
      ("http://c:9000", .ok (.bool false))] := by
  rfl

theorem threeWay_majority : Majority (.bool true) (threeWay.results boolSerde lastDeviates) :=
  ⟨_, _, _, _, .of_eq threeWay_results⟩

theorem threeWay_spares (h : Value)
    (majority : Majority h (threeWay.results boolSerde lastDeviates)) :
    ¬ Deviates h (threeWay.results boolSerde lastDeviates) "http://a:9000" := by
  obtain rfl := majority.eq threeWay_majority
  rintro ⟨result, member, deviates⟩
  rw [threeWay_results] at member
  simp at member
  exact deviates member

theorem one_of_three_deviates :
    ∃ router', Run (Step boolSerde) .start [.selects threeNodes threeWay,
        .answers threeWay lastDeviates (fun _ => 0)
          (voteMap boolSerde (threeWay.results boolSerde lastDeviates)).entries (.ok (.bool true))]
      ⟨router', []⟩ ∧ router'.isBlacklisted "http://a:9000" = false := by
  have selects : Step boolSerde .start (.selects threeNodes threeWay) ⟨.new, [threeWay]⟩ :=
    .selects (by decide) rfl (List.Subperm.refl _) (by decide)
  have printed : boolSerde.fromStr (boolSerde.toString (.bool true)) = some (.bool true) := by
    rw [boolSerde_fromStr]
    rfl
  obtain ⟨returns, _⟩ := honest_majority_decides boolSerde [.selects threeNodes threeWay] _
    (.cons selects (.nil _)) (by simp [Event.Honest])
  obtain ⟨router', concludes, _⟩ := returns threeWay List.mem_cons_self lastDeviates
    (fun _ => 0) _ _ threeWay_majority printed (List.Perm.refl _)
  have answers : Step boolSerde ⟨.new, [] ++ threeWay :: []⟩ _ ⟨router', [] ++ []⟩ :=
    .answers (List.Perm.refl _) concludes
  have run : Run (Step boolSerde) .start _ _ := .cons selects (.cons answers (.nil _))
  refine ⟨router', run, (honest_majority_decides boolSerde _ _ run ?_).2 _ ?_⟩
  · simpa [Event.Honest] using ⟨_, threeWay_majority⟩
  · simpa [Event.Spares] using threeWay_spares

end ConsensusRouter

end Solnet.Daemon
