import Mathlib.Data.List.Perm.Basic
import Solnet.Daemon.Json
import Solnet.Lib.OrderedMap
import Solnet.Lib.Tiers

/-! Peer discovery of the SDK. The ranking sorts the answers in the order of the peers, and the
best peer is found by a scan of the health map, whose keys came in as health checks ended. -/
namespace Solnet.Sdk
open Tiers Solnet.Daemon

structure PeerHealth where
  url : String
  latencyMs : Int
  alive : Bool
  deriving DecidableEq, Repr

/-- How a health check ends: without a body that is JSON, or with the reading of the clock, the
`ok` of the response and its body. -/
inductive Probe where
  | failed
  | answered (latencyMs : Int) (ok : Bool) (data : Value)

/-- A body that is null has no members to read. -/
def Probe.health (peer : String) : Probe → PeerHealth
  | failed | answered _ _ .null => ⟨peer, 99999, false⟩
  | answered latencyMs ok _ => ⟨peer, latencyMs, ok⟩

/-- The health checks of one round, in the order of the peers and in that in which they end. -/
structure Round (peers : List String) where
  probes : List (String × Probe)
  completed : List (String × Probe)
  ofPeers : probes.map Prod.fst = peers
  perm : completed.Perm probes

structure PeerDiscovery where
  peers : List String
  healthMap : OrderedMap String PeerHealth
  known : ∀ url ∈ healthMap.keys, url ∈ peers

/-- The comparator of the ranking. -/
def compareHealth (a b : PeerHealth) : Int :=
  if a.alive && !b.alive then -1
  else if !a.alive && b.alive then 1
  else a.latencyMs - b.latencyMs

def healths (probes : List (String × Probe)) : List (String × PeerHealth) :=
  probes.map fun probe => (probe.1, probe.2.health probe.1)

theorem Probe.health_url (probe : Probe) (peer : String) : (probe.health peer).url = peer := by
  unfold Probe.health
  split <;> rfl

theorem keys_healths (probes : List (String × Probe)) :
    (healths probes).map Prod.fst = probes.map Prod.fst := by
  rw [healths, List.map_map]
  rfl

namespace PeerDiscovery

def new (peers : List String) : PeerDiscovery := ⟨peers, .empty, nofun⟩

def rankPeers (d : PeerDiscovery) (round : Round d.peers) : List String × PeerDiscovery :=
  let results := round.probes.map fun probe => probe.2.health probe.1
  ((results.mergeSort fun a b => compareHealth a b ≤ 0).map PeerHealth.url,
    { d with
      healthMap := d.healthMap.setAll (healths round.completed)
      known := by
        intro url member
        rcases OrderedMap.mem_keys_setAll_iff.mp member with here | earlier
        · rw [keys_healths] at here
          rw [← round.ofPeers]
          exact (round.perm.map Prod.fst).mem_iff.mp here
        · exact d.known url earlier })

/-- The best peer so far with its latency, where none stands for the infinity at the start. -/
def closer (best : Option String × Option Int) (entry : String × PeerHealth) :
    Option String × Option Int :=
  if entry.2.alive && best.2.all (entry.2.latencyMs < ·) then
    (some entry.1, some entry.2.latencyMs)
  else best

def getBestPeer (d : PeerDiscovery) : Option String :=
  (d.healthMap.entries.foldl closer (d.peers.head?, none)).1

/-- The health that the map has for the peer. -/
def Reports (d : PeerDiscovery) (peer : String) (health : PeerHealth) : Prop :=
  (peer, health) ∈ d.healthMap.entries

/-- An alive peer comes before a dead one, and of two alike the quicker one comes first. -/
def RanksBefore (d : PeerDiscovery) (a b : String) : Prop :=
  ∀ x y, d.Reports a x → d.Reports b y →
    (y.alive = true → x.alive = true) ∧ (x.alive = y.alive → x.latencyMs ≤ y.latencyMs)

end PeerDiscovery

theorem compareHealth_le_iff {a b : PeerHealth} :
    compareHealth a b ≤ 0 ↔
      (b.alive = true → a.alive = true) ∧ (a.alive = b.alive → a.latencyMs ≤ b.latencyMs) := by
  have quicker : a.latencyMs - b.latencyMs ≤ 0 ↔ a.latencyMs ≤ b.latencyMs := by omega
  unfold compareHealth
  cases a.alive <;> cases b.alive <;> simp [quicker]

theorem compareHealth_trans {a b c : PeerHealth} (first : compareHealth a b ≤ 0)
    (second : compareHealth b c ≤ 0) : compareHealth a c ≤ 0 := by
  rw [compareHealth_le_iff] at first second ⊢
  refine ⟨fun alive => first.1 (second.1 alive), fun alike => ?_⟩
  have between : a.alive = b.alive := by
    cases alive : b.alive with
    | true => exact first.1 alive
    | false =>
      cases last : c.alive with
      | true => exact absurd (second.1 last) (by rw [alive]; exact Bool.noConfusion)
      | false => rw [alike, last]
  exact Int.le_trans (first.2 between) (second.2 (between.symm.trans alike))

theorem compareHealth_total (a b : PeerHealth) : compareHealth a b ≤ 0 ∨ compareHealth b a ≤ 0 := by
  have total := Int.le_total a.latencyMs b.latencyMs
  rw [compareHealth_le_iff, compareHealth_le_iff]
  cases a.alive <;> cases b.alive <;> simp [total]

namespace PeerDiscovery

variable {d : PeerDiscovery} {round : Round d.peers} {peer : String} {health : PeerHealth}

theorem foldl_closer (entries : List (String × PeerHealth)) (start : Option String) :
    (∀ entry ∈ entries, entry.2.alive = false) ∧
        entries.foldl closer (start, none) = (start, none) ∨
      ∃ best, Least (fun entry => entry.2.latencyMs) entries (fun entry => entry.2.alive) best ∧
        entries.foldl closer (start, none) = (some best.1, some best.2.latencyMs) := by
  induction entries using List.reverseRecOn with
  | nil => exact .inl ⟨nofun, rfl⟩
  | append_singleton entries entry ih =>
    rw [List.foldl_append, List.foldl_cons, List.foldl_nil]
    have last : entry ∈ entries ++ [entry] := List.mem_append_right _ List.mem_cons_self
    rcases ih with ⟨dead, scanned⟩ | ⟨best, least, scanned⟩
    · rw [scanned]
      cases alive : entry.2.alive with
      | false =>
        refine .inl ⟨List.forall_mem_append.mpr ⟨dead, List.forall_mem_singleton.mpr alive⟩, ?_⟩
        simp [closer, alive]
      | true =>
        refine .inr ⟨entry, ⟨last, alive, ?_⟩, by simp [closer, alive]⟩
        intro item member held
        rcases List.mem_append.mp member with earlier | here
        · rw [dead item earlier] at held
          cases held
        · rw [List.mem_singleton.mp here]
    · rw [scanned]
      by_cases closest : entry.2.alive = true ∧ entry.2.latencyMs < best.2.latencyMs
      · refine .inr ⟨entry, ⟨last, closest.1, ?_⟩, by simp [closer, closest]⟩
        intro item member held
        rcases List.mem_append.mp member with earlier | here
        · exact Int.le_trans (Int.le_of_lt closest.2) (least.le item earlier held)
        · rw [List.mem_singleton.mp here]
      · refine .inr ⟨best, ⟨List.mem_append_left _ least.mem, least.held, ?_⟩, ?_⟩
        · intro item member held
          rcases List.mem_append.mp member with earlier | here
          · exact least.le item earlier held
          · obtain rfl := List.mem_singleton.mp here
            exact Int.not_lt.mp fun less => closest ⟨held, less⟩
        · unfold closer
          rw [if_neg]
          simpa using closest

/-- With no alive peer the best one is the first of all, and otherwise an alive one with the least
latency. -/
theorem getBestPeer_cases (d : PeerDiscovery) :
    (∀ peer health, d.Reports peer health → health.alive = false) ∧
        d.getBestPeer = d.peers.head? ∨
      ∃ best, Least (fun entry => entry.2.latencyMs) d.healthMap.entries
          (fun entry => entry.2.alive) best ∧ d.getBestPeer = some best.1 := by
  unfold getBestPeer
  rcases foldl_closer d.healthMap.entries d.peers.head? with
    ⟨dead, scanned⟩ | ⟨best, least, scanned⟩
  · exact .inl ⟨fun peer health reported => dead (peer, health) reported, by rw [scanned]⟩
  · exact .inr ⟨best, least, by rw [scanned]⟩

theorem Reports.unique {health' : PeerHealth} (reported : d.Reports peer health)
    (again : d.Reports peer health') : health = health' := by
  have same := List.inj_on_of_nodup_map d.healthMap.nodup reported again rfl
  exact (Prod.mk.inj same).2

/-- After a round the map has the outcome of each check of the round, and nothing else. -/
theorem rankPeers_reports (distinct : d.peers.Nodup) (round : Round d.peers) :
    (d.rankPeers round).2.Reports peer health ↔
      ∃ probe, (peer, probe) ∈ round.probes ∧ health = probe.health peer := by
  have keys : (healths round.completed).map Prod.fst = round.completed.map Prod.fst :=
    keys_healths round.completed
  have all : (round.completed.map Prod.fst).Perm d.peers :=
    (round.perm.map Prod.fst).trans (.of_eq round.ofPeers)
  have nodup : ((healths round.completed).map Prod.fst).Nodup := by
    rw [keys]
    exact all.nodup_iff.mpr distinct
  unfold Reports rankPeers
  rw [OrderedMap.mem_setAll_iff nodup, keys]
  have overwritten : (peer, health) ∈ d.healthMap.entries → peer ∈ round.completed.map Prod.fst :=
    fun old => all.mem_iff.mpr (d.known peer (OrderedMap.mem_keys_iff.mpr ⟨health, old⟩))
  have fresh : (peer, health) ∈ healths round.completed ↔
      ∃ probe, (peer, probe) ∈ round.probes ∧ health = probe.health peer := by
    simp only [healths, List.mem_map, Prod.mk.injEq, Prod.exists, round.perm.mem_iff]
    constructor
    · rintro ⟨_, probe, member, rfl, rfl⟩
      exact ⟨probe, member, rfl⟩
    · rintro ⟨probe, member, rfl⟩
      exact ⟨peer, probe, member, rfl, rfl⟩
  rw [← fresh]
  tauto

/-- The health checks of a round by their outcome. -/
theorem reports_of_result {result : PeerHealth} (distinct : d.peers.Nodup) (round : Round d.peers)
    (member : result ∈ round.probes.map fun probe => probe.2.health probe.1) :
    (d.rankPeers round).2.Reports result.url result := by
  obtain ⟨⟨peer, probe⟩, checked, rfl⟩ := List.mem_map.mp member
  have named := probe.health_url peer
  refine (rankPeers_reports distinct round).mpr ⟨probe, ?_, ?_⟩
  · rwa [named]
  · rw [named]

/-- The results of a round, ranked. -/
def ranked (round : Round d.peers) : List PeerHealth :=
  (round.probes.map fun probe => probe.2.health probe.1).mergeSort fun a b => compareHealth a b ≤ 0

theorem ranked_pairwise (round : Round d.peers) :
    (ranked round).Pairwise fun a b => compareHealth a b ≤ 0 := by
  have trans (a b c : PeerHealth) (first : decide (compareHealth a b ≤ 0) = true)
      (second : decide (compareHealth b c ≤ 0) = true) :
      decide (compareHealth a c ≤ 0) = true := by
    rw [decide_eq_true_eq] at first second ⊢
    exact compareHealth_trans first second
  have total (a b : PeerHealth) :
      (decide (compareHealth a b ≤ 0) || decide (compareHealth b a ≤ 0)) = true := by
    rw [Bool.or_eq_true, decide_eq_true_eq, decide_eq_true_eq]
    exact compareHealth_total a b
  exact (List.pairwise_mergeSort trans total _).imp fun before => of_decide_eq_true before

theorem ranked_reports (distinct : d.peers.Nodup) (round : Round d.peers) {result : PeerHealth}
    (member : result ∈ ranked round) : (d.rankPeers round).2.Reports result.url result :=
  reports_of_result distinct round (List.mem_mergeSort.mp member)

theorem rankPeers_perm (round : Round d.peers) : (d.rankPeers round).1.Perm d.peers := by
  have sorted := (List.mergeSort_perm (round.probes.map fun probe => probe.2.health probe.1)
    fun a b => compareHealth a b ≤ 0).map PeerHealth.url
  have urls : (round.probes.map fun probe => probe.2.health probe.1).map PeerHealth.url =
      round.probes.map Prod.fst := by
    rw [List.map_map]
    exact List.map_congr_left fun probe _ => probe.2.health_url probe.1
  exact sorted.trans (.of_eq (urls.trans round.ofPeers))

theorem rankPeers_pairwise (distinct : d.peers.Nodup) (round : Round d.peers) :
    (d.rankPeers round).1.Pairwise (d.rankPeers round).2.RanksBefore := by
  refine List.pairwise_map.mpr ((ranked_pairwise round).imp_of_mem ?_)
  intro a b first second before x y reported_a reported_b
  obtain rfl := (ranked_reports distinct round first).unique reported_a
  obtain rfl := (ranked_reports distinct round second).unique reported_b
  exact compareHealth_le_iff.mp before

/-- The best peer is alive and as quick as the peer that is ranked first. -/
theorem best_like_first (distinct : d.peers.Nodup) (round : Round d.peers)
    (reported : (d.rankPeers round).2.Reports peer health) (alive : health.alive = true) :
    ∃ best first x y, (d.rankPeers round).2.getBestPeer = some best ∧
      (d.rankPeers round).1.head? = some first ∧ (d.rankPeers round).2.Reports best x ∧
        (d.rankPeers round).2.Reports first y ∧ x.alive = true ∧ x.latencyMs = y.latencyMs := by
  rcases getBestPeer_cases (d.rankPeers round).2 with ⟨dead, _⟩ | ⟨⟨best, x⟩, least, found⟩
  · rw [dead peer health reported] at alive
    cases alive
  obtain ⟨probe, checked, same⟩ := (rankPeers_reports distinct round).mp least.mem
  have among : x ∈ ranked round :=
    List.mem_mergeSort.mpr (List.mem_map.mpr ⟨(best, probe), checked, same.symm⟩)
  cases order : ranked round with
  | nil =>
    rw [order] at among
    cases among
  | cons y others =>
    have reported_y : (d.rankPeers round).2.Reports y.url y :=
      ranked_reports distinct round (order ▸ List.mem_cons_self)
    have head : (d.rankPeers round).1.head? = some y.url := by
      change ((ranked round).map PeerHealth.url).head? = some y.url
      rw [order, List.map_cons, List.head?_cons]
    refine ⟨best, y.url, x, y, found, head, least.mem, reported_y, least.held, ?_⟩
    -- the first one ranked is no later than the best one, which is the quickest of the alive
    have before : x = y ∨ compareHealth y x ≤ 0 := by
      have sorted := ranked_pairwise round
      rw [order] at sorted among
      exact (List.mem_cons.mp among).imp id ((List.pairwise_cons.mp sorted).1 x)
    rcases before with rfl | before
    · rfl
    · obtain ⟨alike, quicker⟩ := compareHealth_le_iff.mp before
      have alive_y : y.alive = true := alike least.held
      have fastest : x.latencyMs ≤ y.latencyMs := least.le (y.url, y) reported_y alive_y
      exact Int.le_antisymm fastest (quicker (alive_y.trans least.held.symm))

/-- After a round of health checks the ranking holds the peers, the alive ones before the dead
ones and each group by latency, and the best peer is one of the best of the ranking. -/
theorem ranking_and_best_agree {d : PeerDiscovery} (distinct : d.peers.Nodup)
    (round : Round d.peers) :
    (∀ peer health, (d.rankPeers round).2.Reports peer health ↔
      ∃ probe, (peer, probe) ∈ round.probes ∧ health = probe.health peer) ∧
    (d.rankPeers round).1.Perm d.peers ∧
    (d.rankPeers round).1.Pairwise (d.rankPeers round).2.RanksBefore ∧
    ((∃ peer health, (d.rankPeers round).2.Reports peer health ∧ health.alive = true) →
      ∃ best first x y, (d.rankPeers round).2.getBestPeer = some best ∧
        (d.rankPeers round).1.head? = some first ∧ (d.rankPeers round).2.Reports best x ∧
          (d.rankPeers round).2.Reports first y ∧ x.alive = true ∧ x.latencyMs = y.latencyMs) := by
  refine ⟨fun peer health => rankPeers_reports distinct round, rankPeers_perm round,
    rankPeers_pairwise distinct round, ?_⟩
  rintro ⟨peer, health, reported, alive⟩
  exact best_like_first distinct round reported alive

/-- A slow peer, one that refuses and one that times out, which ends last. -/
def threeProbes : List (String × Probe) :=
  [("https://a", .failed), ("https://b", .answered 120 true (.object [])),
    ("https://c", .answered 40 false (.object []))]

def threeRound : Round ["https://a", "https://b", "https://c"] where
  probes := threeProbes
  completed := threeProbes.reverse
  ofPeers := rfl
  perm := List.reverse_perm threeProbes

def ofThree : PeerDiscovery := new ["https://a", "https://b", "https://c"]

theorem threeRound_agrees : (ofThree.rankPeers threeRound).1.Perm ofThree.peers ∧
    ∃ best x, (ofThree.rankPeers threeRound).2.getBestPeer = some best ∧
      (ofThree.rankPeers threeRound).2.Reports best x ∧ x.alive = true := by
  obtain ⟨reports, perm, _, agree⟩ := ranking_and_best_agree (d := ofThree) (by decide) threeRound
  have alive : (ofThree.rankPeers threeRound).2.Reports "https://b" ⟨"https://b", 120, true⟩ :=
    (reports _ _).mpr ⟨.answered 120 true (.object []), .tail _ (.head _), rfl⟩
  obtain ⟨best, _, x, _, found, _, reported, _, alive, _⟩ := agree ⟨_, _, alive, rfl⟩
  exact ⟨perm, best, x, found, reported, alive⟩

end PeerDiscovery

end Solnet.Sdk
