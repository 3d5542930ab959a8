import Mathlib.Data.List.Sort
import Solnet.Daemon.MethodMetrics
import Solnet.Daemon.Outage
import Solnet.Daemon.SlotReads

/-! The performance report of the running daemon. Each method in it has been asked for as often
as the report says, and answered from a cache no more often. The rates, which are floats, are
left out; a row has the integers that they come from. -/
namespace Solnet.Daemon
open Runs Fallible Extrema

structure MethodReport where
  method : String
  totalRequests : Nat
  cacheHits : Nat
  totalLatencyUs : Nat
  minLatencyUs : Nat
  maxLatencyUs : Nat
  deriving DecidableEq, Repr

structure PerformanceReport where
  l1Hot : Nat
  l2Warm : Nat
  l3Cold : Nat
  total : Nat
  methods : List MethodReport
  deriving DecidableEq, Repr

def MethodMetrics.report (method : String) (metrics : MethodMetrics) : MethodReport :=
  ⟨method, metrics.totalRequests, metrics.cacheHits, metrics.totalLatencyUs,
    metrics.minLatencyUs, metrics.maxLatencyUs⟩

namespace LatencyEngine

/-- The metrics in the order in which the map gives them. -/
def metricsEntries (s : LatencyEngine) : List (String × MethodMetrics) :=
  s.latencyMetrics.entries.map fun entry => (entry.1, entry.2)

def getPerformanceReport (s : LatencyEngine) (iterated : List (String × MethodMetrics)) :
    PerformanceReport :=
  let size tier := (s.caches tier).keys.length
  { l1Hot := size .l1
    l2Warm := size .l2
    l3Cold := size .l3
    total := size .l1 + size .l2 + size .l3
    methods := (iterated.map fun (method, metrics) => metrics.report method).mergeSort
      fun a b => b.totalRequests ≤ a.totalRequests }

theorem mem_metricsEntries_iff {s : LatencyEngine} {method : String} {metrics : MethodMetrics} :
    (method, metrics) ∈ s.metricsEntries ↔ s.latencyMetrics.lookup method = some metrics := by
  rw [metricsEntries, List.mem_map, ← Option.mem_def, AList.mem_lookup_iff]
  constructor
  · rintro ⟨⟨_, _⟩, here, same⟩
    obtain ⟨rfl, rfl⟩ := Prod.mk.inj same
    exact here
  · intro here
    exact ⟨⟨method, metrics⟩, here, rfl⟩

theorem metricsEntries_names (s : LatencyEngine) :
    s.metricsEntries.map Prod.fst = s.latencyMetrics.keys := by
  rw [metricsEntries, List.map_map]
  rfl

/-- The rows are the entries, sorted. -/
theorem methods_perm (s : LatencyEngine) (iterated : List (String × MethodMetrics)) :
    (s.getPerformanceReport iterated).methods.Perm
      (iterated.map fun (method, metrics) => metrics.report method) :=
  List.mergeSort_perm _ _

theorem methods_sorted (s : LatencyEngine) (iterated : List (String × MethodMetrics)) :
    (s.getPerformanceReport iterated).methods.Pairwise
      fun a b => b.totalRequests ≤ a.totalRequests := by
  have transitive (a b c : MethodReport) (first : decide (b.totalRequests ≤ a.totalRequests))
      (second : decide (c.totalRequests ≤ b.totalRequests)) :
      decide (c.totalRequests ≤ a.totalRequests) = true := by
    rw [decide_eq_true_eq] at first second ⊢
    exact second.trans first
  have total (a b : MethodReport) : (decide (b.totalRequests ≤ a.totalRequests) ||
      decide (a.totalRequests ≤ b.totalRequests)) = true := by
    rw [Bool.or_eq_true, decide_eq_true_eq, decide_eq_true_eq]
    exact le_total _ _
  refine (List.pairwise_mergeSort transitive total _).imp ?_
  intro a b sorted
  exact of_decide_eq_true sorted

end LatencyEngine

/-- The latency of the answer was recorded: it is the node's own, or what the upstream node sent
could not be read. -/
def ProcessAnswer.measured (env : Env) (answer : ProcessAnswer) : Bool :=
  match answer.origin, env.upstreamReply with
  | .cacheHit, _ | .slotIntercept, _ | .upstream, _ => true
  | .mesh, _ | .refused, .sendError => false
  | .refused, .responded _ _ => answer.effects.any Effect.isUpstreamPost

/-- The method of a request, and its latency if that was recorded. -/
def ProcessEvent.asked (lib : Serde) (event : ProcessEvent) : Option (String × Nat × Origin) :=
  match event.call, event.answer with
  | .request env req, some answer =>
    match parseBody lib req.body with
    | .ok (_, rpcReq) =>
      if answer.measured env then some (requestMethod rpcReq, env.latencyUs, answer.origin)
      else none
    | .error _ => none
  | _, _ => none

/-- The latencies recorded for the method, and where their answers came from. -/
def latenciesFor (lib : Serde) (method : String) (events : List ProcessEvent) :
    List (Nat × Origin) :=
  ((events.filterMap (ProcessEvent.asked lib)).filter fun asked => asked.1 = method).map Prod.snd

/-- The metrics that the answers add up to. -/
def MethodMetrics.ofAnswers (answers : List (Nat × Origin)) : MethodMetrics :=
  { totalRequests := answers.length
    cacheHits := answers.countP fun answer => answer.2 = .cacheHit
    totalLatencyUs := (answers.map Prod.fst).sum
    minLatencyUs := lowest (answers.map Prod.fst)
    maxLatencyUs := highest (answers.map Prod.fst) }

/-! What one request does to the metrics. -/

variable {lib : Serde} {env : Env} {s : SharedState} {req : Request} {h : Handled}
  {bodyStr method : String} {params rpcReq : Value} {effects : List Effect}

/-- The metrics after one more request. -/
def MethodMetrics.sampled (metrics : MethodMetrics) (latencyUs : Nat) (origin : Origin) :
    MethodMetrics :=
  { totalRequests := metrics.totalRequests + 1
    cacheHits := metrics.cacheHits + if origin = .cacheHit then 1 else 0
    totalLatencyUs := metrics.totalLatencyUs + latencyUs
    minLatencyUs := lower metrics.minLatencyUs latencyUs
    maxLatencyUs := max metrics.maxLatencyUs latencyUs }

namespace LatencyEngine

variable {s s' : LatencyEngine} {name recorded : String} {latencyUs now : Nat} {origin : Origin}

/-- The metrics of the method, and of no other, have one more request. -/
def Samples (s : LatencyEngine) (method : String) (latencyUs : Nat) (origin : Origin)
    (s' : LatencyEngine) : Prop :=
  ∀ name, s'.latencyMetrics.lookup name =
    if name = method then some ((s.metricsOf method).sampled latencyUs origin)
    else s.latencyMetrics.lookup name

theorem recordLatency_samples (ok : s.recordLatency method latencyUs = .ok s')
    (other : origin ≠ .cacheHit) : s.Samples method latencyUs origin s' := by
  simp only [recordLatency, bind_ok_iff, checkedAdd, addWithin_ok_iff, pure, Except.pure,
    Except.ok.injEq] at ok
  obtain ⟨_, ⟨_, rfl⟩, _, ⟨_, rfl⟩, rfl⟩ := ok
  intro name
  rw [Table.lookup_insert, MethodMetrics.sampled, if_neg other]
  rfl

/-- A lookup that misses leaves the metrics as they are; a hit is counted. -/
theorem getCached_metrics {found : Option Value}
    (ok : s.getCached lib method params now = .ok (s', found)) :
    s'.latencyMetrics = match found with
      | none => s.latencyMetrics
      | some _ => s.latencyMetrics.insert method { s.metricsOf method with
          cacheHits := (s.metricsOf method).cacheHits + 1 } := by
  simp only [getCached] at ok
  split at ok
  · obtain ⟨rfl, rfl⟩ := Prod.mk.inj (Except.ok.inj ok)
    rfl
  · split at ok
    · obtain ⟨rfl, rfl⟩ := Prod.mk.inj (Except.ok.inj ok)
      rfl
    · split at ok
      · simp only [bind_ok_iff, checkedAdd, addWithin_ok_iff, pure, Except.pure, Except.ok.injEq,
          Prod.mk.injEq] at ok
        obtain ⟨_, _, _, ⟨_, rfl⟩, rfl, rfl⟩ := ok
        rfl
      · obtain ⟨rfl, rfl⟩ := Prod.mk.inj (Except.ok.inj ok)
        rfl

/-- A hit and the latency of its answer are one request. -/
theorem hit_samples {engine : LatencyEngine} {value : Value}
    (lookup : s.getCached lib method params now = .ok (engine, some value))
    (ok : engine.recordLatency method latencyUs = .ok s') :
    s.Samples method latencyUs .cacheHit s' := by
  have counted := getCached_metrics lookup
  have own : engine.metricsOf method = { s.metricsOf method with
      cacheHits := (s.metricsOf method).cacheHits + 1 } := by
    rw [metricsOf, counted, Table.lookup_insert, if_pos rfl]
    rfl
  have sampled : engine.Samples method latencyUs .upstream s' := recordLatency_samples ok (by simp)
  intro name
  rw [sampled name, counted, Table.lookup_insert]
  split
  · rw [MethodMetrics.sampled, own]
    rfl
  · rfl

end LatencyEngine

/-- Nothing is recorded, or the latency for the method is. -/
inductive Measures (env : Env) (s : LatencyEngine) (method : String) (h : Handled) : Prop where
  | idle (unmeasured : h.answer.measured env = false)
      (same : h.state.latencyEngine.latencyMetrics = s.latencyMetrics)
  | records {engine : LatencyEngine} (measured : h.answer.measured env = true)
      (samples : s.Samples method env.latencyUs h.origin engine)
      (same : h.state.latencyEngine.latencyMetrics = engine.latencyMetrics)

theorem interceptGetSlot_measures
    (ok : interceptGetSlot lib env s method params rpcReq effects = .ok h) :
    Measures env s.latencyEngine method h := by
  simp only [interceptGetSlot, bind_ok_iff, pure, Except.pure, Except.ok.injEq] at ok
  obtain ⟨engine, recorded, rewarded, reward, rfl⟩ := ok
  refine .records rfl (LatencyEngine.recordLatency_samples recorded (by simp)) ?_
  rw [recordRequest_engine reward]
  exact LatencyEngine.setCache_metrics engine _

theorem postUpstream_measures {upstreamRpc : String}
    (posted : effects.any Effect.isUpstreamPost = true)
    (ok : postUpstream lib env s upstreamRpc method params effects = .ok h) :
    Measures env s.latencyEngine method h := by
  cases postUpstream_steps ok with
  | unsent reply failed => exact .idle (by simp [Handled.answer, ProcessAnswer.measured, reply]) rfl
  | unread reply recorded succeeded =>
    have samples : s.latencyEngine.Samples method env.latencyUs .refused _ :=
      LatencyEngine.recordLatency_samples recorded (by simp)
    exact .records (by simp [Handled.answer, ProcessAnswer.measured, reply, posted]) samples rfl
  | unparsed reply recorded succeeded reward read =>
    have samples : s.latencyEngine.Samples method env.latencyUs .refused _ :=
      LatencyEngine.recordLatency_samples recorded (by simp)
    refine .records (by simp [Handled.answer, ProcessAnswer.measured, reply, posted]) samples ?_
    rw [recordRequest_engine reward]
  | replied reply recorded succeeded reward read =>
    refine .records rfl (LatencyEngine.recordLatency_samples recorded (by simp)) ?_
    rw [recordRequest_engine reward]
    exact LatencyEngine.setCache_metrics _ _

theorem handleUncached_measures (ok : handleUncached lib env s req bodyStr rpcReq = .ok h) :
    Measures env s.latencyEngine (requestMethod rpcReq) h := by
  cases handleUncached_steps ok with
  | delivered found delivered => exact .idle rfl rfl
  | @stays executor effects h stays meshed processed =>
    have unposted : effects.any Effect.isUpstreamPost = false := by
      rw [List.any_eq_false]
      intro effect member
      obtain ⟨endpoint, rfl⟩ := meshed effect member
      simp [Effect.isUpstreamPost]
    unfold processRequest at processed
    split at processed
    · have measures := interceptGetSlot_measures processed
      exact measures
    · cases forwardUpstream_steps processed with
      | refused tripped =>
        refine .idle ?_ rfl
        cases reply : env.upstreamReply <;>
          simp [Handled.answer, ProcessAnswer.measured, reply, unposted]
      | @blocked balancer selected submission violation closed selection verification =>
        refine .idle ?_ rfl
        have silent : (submission.toList.map fun submission =>
            Effect.brahmanPost submission env.brahmanReply).any Effect.isUpstreamPost = false := by
          cases submission <;> rfl
        cases reply : env.upstreamReply <;>
          simp [Handled.answer, ProcessAnswer.measured, reply, unposted, silent]
      | posts closed selection verification posted =>
        have measures := postUpstream_measures
          (by simp [forwardPosts, Effect.isUpstreamPost]) posted
        exact measures

theorem Measures.congr {engine : LatencyEngine} (measures : Measures env engine method h)
    (same : engine.latencyMetrics = s.latencyEngine.latencyMetrics) :
    Measures env s.latencyEngine method h := by
  cases measures with
  | idle unmeasured kept => exact .idle unmeasured (kept.trans same)
  | records measured samples kept =>
    refine .records measured ?_ kept
    intro name
    rw [samples name, LatencyEngine.metricsOf, LatencyEngine.metricsOf, same]

theorem refused_unmeasured {answer : ProcessAnswer} (origin : answer.origin = .refused)
    (silent : answer.effects = []) : answer.measured env = false := by
  unfold ProcessAnswer.measured
  rw [origin, silent]
  cases env.upstreamReply <;> rfl

/-- A request is measured once, under its own method, or not at all. -/
theorem rpcHandler_metrics (ok : rpcHandler lib env s req = .ok h) :
    match (ProcessEvent.mk (.request env req) (some h.answer)).asked lib with
    | none => h.state.latencyEngine.latencyMetrics = s.latencyEngine.latencyMetrics
    | some (method, latencyUs, origin) =>
      s.latencyEngine.Samples method latencyUs origin h.state.latencyEngine := by
  have course {bodyStr : String} {rpcReq : Value}
      (parsed : parseBody lib req.body = .ok (bodyStr, rpcReq))
      (measures : Measures env s.latencyEngine (requestMethod rpcReq) h) :
      match (ProcessEvent.mk (.request env req) (some h.answer)).asked lib with
      | none => h.state.latencyEngine.latencyMetrics = s.latencyEngine.latencyMetrics
      | some (method, latencyUs, origin) =>
        s.latencyEngine.Samples method latencyUs origin h.state.latencyEngine := by
    cases measures with
    | idle unmeasured same =>
      simp only [ProcessEvent.asked, parsed, unmeasured, Bool.false_eq_true, if_false]
      exact same
    | records measured samples same =>
      simp only [ProcessEvent.asked, parsed, measured, if_true]
      intro name
      rw [same]
      exact samples name
  have unasked {response : Response} (unread : parseBody lib req.body = .error response) :
      (ProcessEvent.mk (.request env req) (some h.answer)).asked lib = none := by
    simp only [ProcessEvent.asked, unread]
  cases rpcHandler_steps ok with
  | screened screening =>
    cases parsed : parseBody lib req.body with
    | error response =>
      rw [unasked parsed]
    | ok read => exact course parsed (.idle (refused_unmeasured rfl rfl) rfl)
  | unread screening unread => rw [unasked unread]
  | @cached battery prevention bodyStr rpcReq value engine h screening parsed lookup serves =>
    refine course parsed ?_
    simp only [serveCached, bind_ok_iff, pure, Except.pure, Except.ok.injEq] at serves
    obtain ⟨recordedEngine, recorded, rewarded, reward, rfl⟩ := serves
    refine .records rfl (LatencyEngine.hit_samples lookup recorded) ?_
    rw [recordRequest_engine reward]
  | uncached screening parsed lookup handles =>
    refine course parsed (Measures.congr (handleUncached_measures handles) ?_)
    exact LatencyEngine.getCached_metrics lookup

/-! Runs. -/

theorem MethodMetrics.ofAnswers_concat (answers : List (Nat × Origin)) (latencyUs : Nat)
    (origin : Origin) : ofAnswers (answers ++ [(latencyUs, origin)]) =
      (ofAnswers answers).sampled latencyUs origin := by
  simp only [ofAnswers, sampled, List.map_append, List.map_cons, List.map_nil, lowest_concat,
    highest_concat, List.length_append, List.length_singleton, List.countP_append,
    List.countP_singleton, List.sum_append, List.sum_singleton, decide_eq_true_eq]

theorem latenciesFor_concat (method : String) (events : List ProcessEvent)
    (event : ProcessEvent) : latenciesFor lib method (events ++ [event]) =
      match event.asked lib with
      | none => latenciesFor lib method events
      | some (name, latencyUs, origin) =>
        latenciesFor lib method events ++ if method = name then [(latencyUs, origin)] else [] := by
  unfold latenciesFor
  rw [List.filterMap_append, List.filter_append, List.map_append]
  cases asked : event.asked lib with
  | none => simp [asked]
  | some answer =>
    obtain ⟨name, latencyUs, origin⟩ := answer
    by_cases own : name = method
    · simp [asked, own]
    · simp [asked, own, Ne.symm own]

namespace Process

variable {config : Config} {walletTracker : Option WalletRewardTracker} {batteryMode : Bool}
  {p p' : Process} {done events : List ProcessEvent} {event : ProcessEvent}

/-- The metrics are those of the answers, for each method that has any. -/
def Metered (lib : Serde) (events : List ProcessEvent) (p : Process) : Prop :=
  ∀ method, p.shared.latencyEngine.latencyMetrics.lookup method =
    if latenciesFor lib method events = [] then none
    else some (.ofAnswers (latenciesFor lib method events))

theorem Metered.metricsOf (metered : p.Metered lib done) (method : String) :
    p.shared.latencyEngine.metricsOf method = .ofAnswers (latenciesFor lib method done) := by
  rw [LatencyEngine.metricsOf, metered method]
  split
  · rename_i unasked
    rw [unasked]
    rfl
  · rfl

theorem Metered.idle (metered : p.Metered lib done) (unasked : event.asked lib = none)
    (same : p'.shared.latencyEngine.latencyMetrics = p.shared.latencyEngine.latencyMetrics) :
    p'.Metered lib (done ++ [event]) := by
  intro method
  rw [same, metered method, latenciesFor_concat, unasked]

theorem Metered.samples {name : String} {latencyUs : Nat} {origin : Origin}
    (metered : p.Metered lib done) (asked : event.asked lib = some (name, latencyUs, origin))
    (samples : p.shared.latencyEngine.Samples name latencyUs origin p'.shared.latencyEngine) :
    p'.Metered lib (done ++ [event]) := by
  intro method
  rw [samples method, latenciesFor_concat, asked]
  dsimp only
  split
  · rename_i own
    subst own
    rw [if_neg (by simp), metered.metricsOf, MethodMetrics.ofAnswers_concat]
  · rw [List.append_nil]
    exact metered method

theorem step_metered (metered : p.Metered lib done) (step : p.Performs lib event p') :
    p'.Metered lib (done ++ [event]) := by
  cases step.took with
  | @request env req h handled =>
    have metrics := rpcHandler_metrics handled
    have asks : (ProcessEvent.mk (.request env req) (some h.answer)).asked lib =
      (ProcessEvent.mk (.request { env with currentSlot := p.slotCache.currentSlot } req)
        (some h.answer)).asked lib := rfl
    cases asked : (ProcessEvent.mk (.request { env with
        currentSlot := p.slotCache.currentSlot } req) (some h.answer)).asked lib with
    | none =>
      rw [asked] at metrics
      exact metered.idle (asks.trans asked) metrics
    | some answer =>
      rw [asked] at metrics
      exact metered.samples (asks.trans asked) metrics
  | cleanup cleaned => exact metered.idle rfl rfl
  | evictExpired evicted => exact metered.idle rfl (LatencyEngine.evictTiers_metrics evicted)
  | slotReply => exact metered.idle rfl rfl

theorem run_metered (run : Run (Performs lib) (start config walletTracker batteryMode) events p) :
    p.Metered lib events := by
  have empty : (start config walletTracker batteryMode).Metered lib [] := fun _ => rfl
  exact run.history (fun done p event p' metered step => step_metered metered step) empty

/-- The rows of the report are those of the methods asked for, once each and the most frequent
first, whatever order the map is read in. No row has more hits than requests. -/
theorem performance_report_exact (lib : Serde) (config : Config)
    (walletTracker : Option WalletRewardTracker) (batteryMode : Bool)
    (events : List ProcessEvent) (p : Process)
    (run : Run (Performs lib) (start config walletTracker batteryMode) events p)
    (iterated : List (String × MethodMetrics))
    (order : iterated.Perm p.shared.latencyEngine.metricsEntries) :
    let rows := (p.shared.latencyEngine.getPerformanceReport iterated).methods
    (rows.map MethodReport.method).Nodup ∧
      rows.Pairwise (fun a b => b.totalRequests ≤ a.totalRequests) ∧
      (∀ row ∈ rows, row.cacheHits ≤ row.totalRequests) ∧
      ∀ row, row ∈ rows ↔ ∃ method, latenciesFor lib method events ≠ [] ∧
        row = (MethodMetrics.ofAnswers (latenciesFor lib method events)).report method := by
  have metered := run_metered run
  intro rows
  have perm : rows.Perm (iterated.map fun (method, metrics) => metrics.report method) :=
    LatencyEngine.methods_perm _ iterated
  have entry (method : String) (metrics : MethodMetrics) :
      (method, metrics) ∈ iterated ↔ latenciesFor lib method events ≠ [] ∧
        metrics = .ofAnswers (latenciesFor lib method events) := by
    rw [order.mem_iff, LatencyEngine.mem_metricsEntries_iff, metered method]
    split
    · rename_i unasked
      simp [unasked]
    · rename_i asked
      rw [Option.some.injEq, eq_comm]
      exact (and_iff_right asked).symm
  have member (row : MethodReport) : row ∈ rows ↔ ∃ method, latenciesFor lib method events ≠ [] ∧
      row = (MethodMetrics.ofAnswers (latenciesFor lib method events)).report method := by
    rw [perm.mem_iff, List.mem_map]
    constructor
    · rintro ⟨⟨method, metrics⟩, here, rfl⟩
      obtain ⟨asked, rfl⟩ := (entry method metrics).mp here
      exact ⟨method, asked, rfl⟩
    · rintro ⟨method, asked, rfl⟩
      exact ⟨(method, _), (entry method _).mpr ⟨asked, rfl⟩, rfl⟩
  refine ⟨?_, LatencyEngine.methods_sorted _ iterated, ?_, member⟩
  · have names : (rows.map MethodReport.method).Perm
        p.shared.latencyEngine.latencyMetrics.keys := by
      have read := order.map Prod.fst
      rw [LatencyEngine.metricsEntries_names] at read
      refine (perm.map MethodReport.method).trans ?_
      rw [List.map_map]
      exact read
    exact names.nodup_iff.mpr p.shared.latencyEngine.latencyMetrics.keys_nodup
  · intro row here
    obtain ⟨method, _, rfl⟩ := (member row).mp here
    exact List.countP_le_length

/-- The second of the three answers is the cached one. -/
theorem latenciesFor_slotCalls : latenciesFor slotSerde "getSlot"
    ((start devnetConfig none false).observe slotSerde slotCalls) =
      [(1, .slotIntercept), (1, .cacheHit), (1, .slotIntercept)] := by
  decide

theorem performance_report_exact_reads : ∃ p,
    Run (Performs slotSerde) (start devnetConfig none false)
      ((start devnetConfig none false).observe slotSerde slotCalls) p ∧
    let rows := (p.shared.latencyEngine.getPerformanceReport
      p.shared.latencyEngine.metricsEntries).methods
    (rows.map MethodReport.method).Nodup ∧
      (∀ row ∈ rows, row.cacheHits ≤ row.totalRequests) ∧
      ⟨"getSlot", 3, 1, 3, 1, 1⟩ ∈ rows := by
  obtain ⟨⟨p, run⟩, _⟩ := observe_run slotSerde (start devnetConfig none false) slotCalls
  obtain ⟨once, _, hits, rows⟩ := performance_report_exact slotSerde devnetConfig none false _ p run
    _ (List.Perm.refl _)
  refine ⟨p, run, once, hits, (rows _).mpr ⟨"getSlot", ?_, ?_⟩⟩
  · rw [latenciesFor_slotCalls]
    exact List.cons_ne_nil _ _
  · rw [latenciesFor_slotCalls]
    rfl

end Process

end Solnet.Daemon
