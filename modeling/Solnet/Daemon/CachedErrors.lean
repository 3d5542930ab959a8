import Solnet.Daemon.Replies
import Solnet.Daemon.ResponseCache

/-! Where a cached reply comes from: the slot that the node knows, or an answer of the
upstream node with its status. The handler caches the answer whatever the status is. -/
namespace Solnet.Daemon
open Fallible Runs

inductive Source where
  | slotIntercept (reply : Value)
  | upstream (status : Nat) (reply : Value)

namespace Source

def reply : Source → Value
  | .slotIntercept reply => reply
  | .upstream _ reply => reply

/-- A success status, and no error in the reply. -/
def Good : Source → Prop
  | .slotIntercept _ => True
  | .upstream status reply => 200 ≤ status ∧ status < 300 ∧ reply.get "error" = none

end Source

def upstreamSource (lib : Serde) (env : Env) : Option Source :=
  match env.upstreamReply with
  | .responded status (some responseBytes) =>
    (lib.fromSlice responseBytes).map (.upstream status)
  | _ => none

/-- What stored the entry under a tier and a key. -/
abbrev Sources := CacheTier → String → Option Source

/-- The source of the reply that a handling computed. -/
def Handled.source (lib : Serde) (env : Env) (rpcReq : Value) (h : Handled) : Option Source :=
  match h.origin with
  | .slotIntercept => some (.slotIntercept (slotReply lib env.currentSlot rpcReq))
  | .upstream => upstreamSource lib env
  | _ => none

def Sources.store (lib : Serde) (sources : Sources) (rpcReq : Value) (source : Source) : Sources :=
  fun tier key =>
    if CacheTtl.getCacheTier (requestMethod rpcReq) = some tier ∧
        key = buildCacheKey lib (requestMethod rpcReq) (requestParams rpcReq) then some source
    else sources tier key

def Sources.note (lib : Serde) (s : SharedState) (arrival : Arrival) (sources : Sources) :
    Sources :=
  match parseBody lib arrival.request.body, rpcHandler lib arrival.env s arrival.request with
  | .ok (_, rpcReq), .ok h =>
    match h.source lib arrival.env rpcReq with
    | some source => sources.store lib rpcReq source
    | none => sources
  | _, _ => sources

/-- A request that no cache answers and no mesh node takes gets past the breaker and the
verification, and its reply is kept. -/
structure Caches (lib : Serde) (s : SharedState) (arrival : Arrival) (rpcReq : Value)
    (tier : CacheTier) : Prop where
  admitted : ∃ bodyStr, Admitted lib arrival.env s arrival.request bodyStr rpcReq
  missed : s.latencyEngine.live lib (requestMethod rpcReq) (requestParams rpcReq)
    arrival.env.cacheInstant = none
  stays : meshTarget s (requestMethod rpcReq) = none ∨ arrival.env.meshReply = none
  other : requestMethod rpcReq ≠ "getSlot"
  closed : s.circuitBreaker.isOpen arrival.env.breakerSecs = false
  verified : ∃ submission passed, verifyWithBrahman lib (requestMethod rpcReq)
    (requestParams rpcReq) arrival.env.brahmanReply = .ok (submission, .ok passed)
  tiered : CacheTtl.getCacheTier (requestMethod rpcReq) = some tier

/-- An answer that is to be cached is a good one. -/
def CachesGood (lib : Serde) (s : SharedState) (arrival : Arrival) : Prop :=
  ∀ rpcReq tier source, Caches lib s arrival rpcReq tier →
    upstreamSource lib arrival.env = some source → source.Good

abbrev Sourced := SharedState × Sources

/-- Every cached reply is that of its source. -/
def Known (x : Sourced) : Prop :=
  x.1.latencyEngine.Stores fun tier key value =>
    ∃ source, x.2 tier key = some source ∧ source.reply = value

/-- No cached reply comes from an error. -/
def Clean (x : Sourced) : Prop :=
  x.1.latencyEngine.Stores fun tier key _ => ∀ source, x.2 tier key = some source → source.Good

/-- A reply served from a cache is what a good source stored under the request's key. -/
def ServesGood (lib : Serde) (x : Sourced) (arrival : Arrival) : Prop :=
  ∀ h, rpcHandler lib arrival.env x.1 arrival.request = .ok h → h.origin = .cacheHit →
    ∃ bodyStr rpcReq tier source, parseBody lib arrival.request.body = .ok (bodyStr, rpcReq) ∧
      CacheTtl.getCacheTier (requestMethod rpcReq) = some tier ∧
      x.2 tier (buildCacheKey lib (requestMethod rpcReq) (requestParams rpcReq)) = some source ∧
      source.Good ∧ h.response = .of 200 (.json source.reply)

def sourcesFrom (s : SharedState) : Sourced :=
  ({ s with latencyEngine := .new }, fun _ _ => none)

variable {lib : Serde} {env : Env} {s : SharedState} {arrival : Arrival} {h : Handled}
  {bodyStr method : String} {params rpcReq json : Value} {effects : List Effect} {status : Nat}
  {tier : CacheTier} {source : Source} {x y : Sourced}

/-! When an answer of the upstream node is stored. -/

theorem upstreamSource_ok (from_upstream : upstreamSource lib env = some source) :
    ∃ status bytes json, env.upstreamReply = .responded status (some bytes) ∧
      lib.fromSlice bytes = some json ∧ source = .upstream status json := by
  unfold upstreamSource at from_upstream
  split at from_upstream
  · rename_i status bytes reply
    obtain ⟨json, read, same⟩ := Option.map_eq_some_iff.mp from_upstream
    exact ⟨status, bytes, json, reply, read, same.symm⟩
  · cases from_upstream

theorem UpstreamJson.sourced (read : UpstreamJson lib env json) :
    ∃ status, upstreamSource lib env = some (.upstream status json) := by
  obtain ⟨status, bytes, reply, parsed⟩ := read
  exact ⟨status, by simp only [upstreamSource, reply, parsed, Option.map_some]⟩

theorem postUpstream_stores {upstreamRpc : String}
    (from_upstream : upstreamSource lib env = some source)
    (ok : postUpstream lib env s upstreamRpc method params effects = .ok h) :
    h.origin = .upstream ∧ ∃ engine : LatencyEngine,
      h.state.latencyEngine = engine.setCache lib method params source.reply env.storeInstant := by
  obtain ⟨status, bytes, json, reply, read, rfl⟩ := upstreamSource_ok from_upstream
  simp only [postUpstream, reply, read, bind_ok_iff, pure, Except.pure, Except.ok.injEq] at ok
  obtain ⟨engine, _, balancer, _, rewarded, _, rfl⟩ := ok
  exact ⟨rfl, rewarded.latencyEngine, rfl⟩

theorem rpcHandler_processes {req : Request} (handled : rpcHandler lib env s req = .ok h)
    (admitted : Admitted lib env s req bodyStr rpcReq)
    (missed : s.latencyEngine.live lib (requestMethod rpcReq) (requestParams rpcReq)
      env.cacheInstant = none)
    (stays : meshTarget s (requestMethod rpcReq) = none ∨ env.meshReply = none) :
    ∃ s' effects, s'.circuitBreaker = s.circuitBreaker ∧
      processRequest lib env s' bodyStr (requestMethod rpcReq) (requestParams rpcReq) rpcReq
        effects = .ok h := by
  cases rpcHandler_steps handled with
  | screened screening =>
    obtain ⟨_, _, passed⟩ := admitted.screened
    cases screening.symm.trans passed
  | unread screening unread => cases unread.symm.trans admitted.parsed
  | cached screening parsed lookup serves =>
    obtain ⟨rfl, rfl⟩ := Prod.mk.inj (Except.ok.inj (parsed.symm.trans admitted.parsed))
    obtain ⟨answer, _⟩ := LatencyEngine.getCached_ok lookup
    rw [missed] at answer
    cases answer
  | uncached screening parsed lookup handles =>
    obtain ⟨rfl, rfl⟩ := Prod.mk.inj (Except.ok.inj (parsed.symm.trans admitted.parsed))
    cases handleUncached_steps handles with
    | delivered found delivered =>
      rcases stays with absent | undelivered
      · cases absent.symm.trans found
      · cases undelivered.symm.trans delivered
    | stays stays meshed processed =>
      refine ⟨_, _, ?_, processed⟩
      rfl

theorem caches_stores (handled : rpcHandler lib arrival.env s arrival.request = .ok h)
    (caches : Caches lib s arrival rpcReq tier)
    (from_upstream : upstreamSource lib arrival.env = some source) :
    h.origin = .upstream ∧ ∃ engine : LatencyEngine, h.state.latencyEngine =
      engine.setCache lib (requestMethod rpcReq) (requestParams rpcReq) source.reply
        arrival.env.storeInstant := by
  obtain ⟨bodyStr, admitted⟩ := caches.admitted
  obtain ⟨s', effects, breaker, processed⟩ :=
    rpcHandler_processes handled admitted caches.missed caches.stays
  rw [processRequest, if_neg caches.other] at processed
  cases forwardUpstream_steps processed with
  | refused tripped =>
    rw [show ({ s' with attackPrevention := _ } : SharedState).circuitBreaker = _ from breaker,
      caches.closed] at tripped
    cases tripped
  | blocked closed selection verification =>
    obtain ⟨_, _, passed⟩ := caches.verified
    cases passed.symm.trans verification
  | posts closed selection verification posted => exact postUpstream_stores from_upstream posted

theorem upstream_caches (handled : rpcHandler lib arrival.env s arrival.request = .ok h)
    (admitted : Admitted lib arrival.env s arrival.request bodyStr rpcReq)
    (missed : s.latencyEngine.live lib (requestMethod rpcReq) (requestParams rpcReq)
      arrival.env.cacheInstant = none)
    (stays : meshTarget s (requestMethod rpcReq) = none ∨ arrival.env.meshReply = none)
    (origin : h.origin = .upstream)
    (tiered : CacheTtl.getCacheTier (requestMethod rpcReq) = some tier) :
    Caches lib s arrival rpcReq tier := by
  obtain ⟨s', effects, breaker, processed⟩ := rpcHandler_processes handled admitted missed stays
  unfold processRequest at processed
  split at processed
  · obtain ⟨slot, _⟩ := interceptGetSlot_ok processed
    cases origin.symm.trans slot
  · rename_i other
    cases forwardUpstream_steps processed with
    | refused tripped => cases origin
    | blocked closed selection verification => cases origin
    | posts closed selection verification posted =>
      exact ⟨⟨bodyStr, admitted⟩, missed, stays, other, breaker ▸ closed, ⟨_, _, verification⟩,
        tiered⟩

/-! Steps. -/

theorem note_kept (sources : Sources)
    (handled : rpcHandler lib arrival.env s arrival.request = .ok h)
    (uncomputed : ∀ rpcReq, h.source lib arrival.env rpcReq = none) :
    Sources.note lib s arrival sources = sources := by
  unfold Sources.note
  rw [handled]
  split
  · rename_i computed
    obtain rfl := Except.ok.inj computed
    simp only [uncomputed]
  · rfl

theorem note_stored (sources : Sources)
    (handled : rpcHandler lib arrival.env s arrival.request = .ok h)
    (parsed : parseBody lib arrival.request.body = .ok (bodyStr, rpcReq))
    (computed : h.source lib arrival.env rpcReq = some source) :
    Sources.note lib s arrival sources = sources.store lib rpcReq source := by
  simp only [Sources.note, handled, parsed, computed]

theorem source_none (origin : h.origin ≠ .slotIntercept ∧ h.origin ≠ .upstream) :
    h.source lib env rpcReq = none := by
  unfold Handled.source
  split
  · rename_i slot
    exact absurd slot origin.1
  · rename_i upstream
    exact absurd upstream origin.2
  · rfl

/-- What a handling does to the caches: it computes nothing and adds nothing, or it adds the
reply of the source that it computed. -/
inductive Sourcing (lib : Serde) (s : SharedState) (arrival : Arrival) (h : Handled) : Prop where
  | kept (uncomputed : ∀ rpcReq, h.source lib arrival.env rpcReq = none)
      (keeps : s.latencyEngine.Keeps h.state.latencyEngine)
  | stored (bodyStr : String) (rpcReq : Value) (source : Source)
      (parsed : parseBody lib arrival.request.body = .ok (bodyStr, rpcReq))
      (computed : h.source lib arrival.env rpcReq = some source)
      (good : source.Good ∨ ∀ tier, CacheTtl.getCacheTier (requestMethod rpcReq) = some tier →
        Caches lib s arrival rpcReq tier ∧ upstreamSource lib arrival.env = some source)
      (adds : s.latencyEngine.Adds lib (requestMethod rpcReq) (requestParams rpcReq) source.reply
        h.state.latencyEngine)

theorem rpcHandler_sourcing (handled : rpcHandler lib arrival.env s arrival.request = .ok h) :
    Sourcing lib s arrival h := by
  rcases rpcHandler_ok handled with ⟨origin, _, keeps, _⟩ | ⟨bodyStr, rpcReq, admitted, served, _⟩
  · exact .kept (fun _ => source_none (by simp [origin])) keeps
  · cases served with
    | cached entry found origin response keeps =>
      exact .kept (fun _ => source_none (by simp [origin])) keeps
    | uncached missed answer =>
      cases answer with
      | refused stays origin keeps =>
        exact .kept (fun _ => source_none (by simp [origin])) keeps
      | forwarded node found status bytes delivered origin response posts keeps =>
        exact .kept (fun _ => source_none (by simp [origin])) keeps
      | slotIntercept stays slot origin response adds =>
        refine .stored bodyStr rpcReq
          (.slotIntercept (slotReply lib arrival.env.currentSlot rpcReq)) admitted.parsed ?_
          (.inl trivial) adds
        simp only [Handled.source, origin]
      | upstream stays json read origin response adds =>
        obtain ⟨status, from_upstream⟩ := read.sourced
        refine .stored bodyStr rpcReq (.upstream status json) admitted.parsed ?_ (.inr ?_) adds
        · simp only [Handled.source, origin, from_upstream]
        · exact fun tier tiered => ⟨upstream_caches handled admitted missed stays origin tiered,
            from_upstream⟩

theorem store_own (sources : Sources)
    (tiered : CacheTtl.getCacheTier (requestMethod rpcReq) = some tier) :
    sources.store lib rpcReq source tier
      (buildCacheKey lib (requestMethod rpcReq) (requestParams rpcReq)) = some source :=
  if_pos ⟨tiered, rfl⟩

theorem store_other (sources : Sources) {key : String}
    (other : ¬ (CacheTtl.getCacheTier (requestMethod rpcReq) = some tier ∧
      key = buildCacheKey lib (requestMethod rpcReq) (requestParams rpcReq))) :
    sources.store lib rpcReq source tier key = sources tier key :=
  if_neg other

/-- Where a reply is stored with its source, what holds of each source and its reply still
holds. -/
theorem stores_sourced (Q : Option Source → Value → Prop) {engine engine' : LatencyEngine}
    {value : Value} (sources : Sources)
    (adds : engine.Adds lib (requestMethod rpcReq) (requestParams rpcReq) value engine')
    (old : engine.Stores fun tier key value => Q (sources tier key) value)
    (new : ∀ tier, CacheTtl.getCacheTier (requestMethod rpcReq) = some tier →
      Q (some source) value) :
    engine'.Stores fun tier key value => Q (sources.store lib rpcReq source tier key) value := by
  refine adds _ (fun tier key entry found => ?_) fun tier tiered => ?_
  · by_cases own : CacheTtl.getCacheTier (requestMethod rpcReq) = some tier ∧
        key = buildCacheKey lib (requestMethod rpcReq) (requestParams rpcReq)
    · exact .inl own
    · dsimp only
      rw [store_other sources own]
      exact .inr (old tier key entry found)
  · rw [store_own sources tiered]
    exact new tier tiered

theorem known_step (x : Sourced) (arrival : Arrival) (y : Sourced) (known : Known x)
    (step : Runs.Traced (HandledTo lib) (Sources.note lib) x arrival y) : Known y := by
  obtain ⟨s, sources⟩ := x
  obtain ⟨s', sources'⟩ := y
  obtain ⟨⟨h, handled, rfl⟩, rfl⟩ := step
  unfold Known at known ⊢
  dsimp only at known ⊢
  cases rpcHandler_sourcing handled with
  | kept uncomputed keeps =>
    rw [note_kept sources handled uncomputed]
    exact keeps _ known
  | stored bodyStr rpcReq source parsed computed good adds =>
    rw [note_stored sources handled parsed computed]
    exact stores_sourced (fun found value => ∃ source, found = some source ∧ source.reply = value)
      sources adds known fun _ _ => ⟨source, rfl, rfl⟩

theorem setCache_stores (engine : LatencyEngine) (value : Value) (now : Nat)
    (tiered : CacheTtl.getCacheTier method = some tier) :
    ∃ entry, ((engine.setCache lib method params value now).caches tier).lookup
      (buildCacheKey lib method params) = some entry := by
  cases lives : CacheTtl.getTtl method with
  | none => cases (LatencyEngine.getCacheTier_of_no_ttl lives).symm.trans tiered
  | some ttl =>
    exact ⟨⟨value, now, ttl, 0⟩, (LatencyEngine.lookup_setCache lives tiered tier _).trans
      (if_pos ⟨rfl, rfl⟩)⟩

theorem clean_step_iff (x : Sourced) (arrival : Arrival) (y : Sourced) (clean : Clean x)
    (step : Runs.Traced (HandledTo lib) (Sources.note lib) x arrival y) :
    Clean y ↔ CachesGood lib x.1 arrival := by
  obtain ⟨s, sources⟩ := x
  obtain ⟨s', sources'⟩ := y
  obtain ⟨⟨h, handled, rfl⟩, rfl⟩ := step
  constructor
  · intro clean' rpcReq tier source caches from_upstream
    obtain ⟨origin, engine, stored⟩ := caches_stores handled caches from_upstream
    obtain ⟨bodyStr, admitted⟩ := caches.admitted
    have computed : h.source lib arrival.env rpcReq = some source := by
      simp only [Handled.source, origin, from_upstream]
    obtain ⟨entry, found⟩ := setCache_stores engine source.reply arrival.env.storeInstant
      caches.tiered
    rw [← stored] at found
    apply clean' tier _ entry found source
    rw [note_stored sources handled admitted.parsed computed]
    exact store_own sources caches.tiered
  · intro good
    unfold Clean at clean ⊢
    dsimp only at clean ⊢
    cases rpcHandler_sourcing handled with
    | kept uncomputed keeps =>
      rw [note_kept sources handled uncomputed]
      exact keeps _ clean
    | stored bodyStr rpcReq source parsed computed origins adds =>
      rw [note_stored sources handled parsed computed]
      refine stores_sourced (fun found _ => ∀ source, found = some source → source.Good)
        sources adds clean fun tier tiered source' same => ?_
      obtain rfl := Option.some.inj same
      rcases origins with known | upstream
      · exact known
      · obtain ⟨caches, from_upstream⟩ := upstream tier tiered
        exact good rpcReq tier source caches from_upstream

theorem servesGood_of_clean (x : Sourced) (arrival : Arrival) (known : Known x) (clean : Clean x) :
    ServesGood lib x arrival := by
  intro h handled hit
  rcases rpcHandler_ok handled with ⟨origin, _⟩ | ⟨bodyStr, rpcReq, admitted, served, _⟩
  · cases hit.symm.trans origin
  · cases served with
    | cached entry found origin response keeps =>
      obtain ⟨tier, tiered, stored⟩ := LatencyEngine.live_stored found
      obtain ⟨source, noted, same⟩ := known tier _ entry stored
      exact ⟨bodyStr, rpcReq, tier, source, admitted.parsed, tiered, noted,
        clean tier _ entry stored source noted, same ▸ response⟩
    | uncached missed answer =>
      cases answer with
      | refused stays origin keeps => cases hit.symm.trans origin
      | forwarded node found status bytes delivered origin response posts keeps =>
        cases hit.symm.trans origin
      | slotIntercept stays slot origin response adds => cases hit.symm.trans origin
      | upstream stays json read origin response adds => cases hit.symm.trans origin

theorem start_empty (s : SharedState) : Known (sourcesFrom s) ∧ Clean (sourcesFrom s) := by
  constructor
  · intro tier key entry found
    cases found
  · intro tier key entry found
    cases found

/-- The caches hold no reply that comes from an error, all along a run, exactly when each
answer that the run caches is a success without an error. Then every reply served from a
cache is the reply of a good source, stored under the key of the request. -/
theorem errors_stay_out_iff_answers_good (lib : Serde) (s : SharedState) (arrivals : List Arrival)
    (x : Sourced)
    (run : Run (Runs.Traced (HandledTo lib) (Sources.note lib)) (sourcesFrom s) arrivals x) :
    (Always (Runs.Traced (HandledTo lib) (Sources.note lib)) Clean (sourcesFrom s) arrivals ↔
      Run (Guarded (Runs.Traced (HandledTo lib) (Sources.note lib)) fun x => CachesGood lib x.1)
        (sourcesFrom s) arrivals x) ∧
    (Run (Guarded (Runs.Traced (HandledTo lib) (Sources.note lib)) fun x => CachesGood lib x.1)
        (sourcesFrom s) arrivals x →
      EachStep (Runs.Traced (HandledTo lib) (Sources.note lib)) (ServesGood lib) (sourcesFrom s)
        arrivals) := by
  have det : Deterministic (Runs.Traced (HandledTo lib) (Sources.note lib)) :=
    handledTo_deterministic.traced
  obtain ⟨known, clean⟩ := start_empty s
  have stays_clean : Always (Runs.Traced (HandledTo lib) (Sources.note lib)) Clean (sourcesFrom s)
      arrivals ↔ _ := always_iff_guarded det known_step
    (fun x arrival y _ clean step => clean_step_iff x arrival y clean step) run known clean
  refine ⟨stays_clean, fun guarded pre arrival post y u split part step => ?_⟩
  have here : Known y := part.invariant known_step known
  exact servesGood_of_clean y arrival here
    (stays_clean.mpr guarded pre y ⟨arrival :: post, split.symm⟩ part)

/-! A balance that the upstream node is too busy to answer. -/

def busyReplyText : String :=
  "\x7b\"error\":\x7b\"code\":429\x7d\x7d"

def busyReply : Value := .object [("error", .object [("code", .number (.int 429))])]

def busyBalance : Arrival where
  request := firstBalance.request
  env := envAt 0 (.unreachable "") (.responded 429 (some busyReplyText.toUTF8))

structure ReadsBusy (lib : Serde) : Prop where
  first : lib.fromStr (balanceBody "1") = some (balanceCall 1)
  second : lib.fromStr (balanceBody "2") = some (balanceCall 2)
  reply : lib.fromStr busyReplyText = some busyReply

def busySerde : Serde where
  fromSlice bytes := (String.fromUTF8? bytes).bind fun text =>
    if text = busyReplyText then some busyReply else balanceSerde.fromStr text
  toString := balanceSerde.toString
  sha256Hex := balanceSerde.sha256Hex

theorem busySerde_reads : ReadsBusy busySerde where
  first := by
    have other : balanceBody "1" ≠ busyReplyText := by decide
    simp only [Serde.fromStr, busySerde, fromUTF8?_toUTF8, Option.bind_some, if_neg other]
    exact balanceSerde_reads.first
  second := by
    have other : balanceBody "2" ≠ busyReplyText := by decide
    simp only [Serde.fromStr, busySerde, fromUTF8?_toUTF8, Option.bind_some, if_neg other]
    exact balanceSerde_reads.second
  reply := by
    simp only [Serde.fromStr, busySerde, fromUTF8?_toUTF8, Option.bind_some, if_true]

theorem busy_replayed (reads : ReadsBusy lib) :
    ∃ h₁, rpcHandler lib busyBalance.env (devnetState .general) busyBalance.request = .ok h₁ ∧
      h₁.origin = .upstream ∧ ∃ h₂,
        rpcHandler lib secondBalance.env h₁.state secondBalance.request = .ok h₂ ∧
        h₂.origin = .cacheHit ∧ h₂.ownReply = some busyReply := by
  obtain ⟨executor, handled⟩ := firstBalance_posts none
    (.responded 429 (some busyReplyText.toUTF8)) reads.first
  rw [postUpstream_untracked rfl rfl firstBalance_recorded rfl reads.reply] at handled
  have parsed' := secondBalance_parsed reads.second
  have touched' : AttackPrevention.touch (((devnetState .general).attackPrevention.ipRequests.insert
      "unknown" ⟨1, 0, 0⟩).lookup (extractIp secondBalance.request)) secondBalance.env.rateSecs =
        .ok ⟨2, 0, 0⟩ := rfl
  refine ⟨_, handled, rfl, ?_⟩
  change ∃ h₂ : Handled, _ ∧ h₂.origin = .cacheHit ∧
    h₂.ownReply = some (CacheEntry.value ⟨busyReply, 0, 2_000_000_000, 0⟩)
  have few : (⟨2, 0, 0⟩ : IpRecord).count ≤ 100 := by decide
  have room : (1 : Nat) + 1 < 2 ^ 64 := by decide
  exact rpcHandler_hit (screenClient_allowed rfl rfl touched' few) parsed' rfl rfl
    (AList.lookup_insert _) (by decide) (by decide) rfl ⟨by decide, room, room⟩

theorem busy_balance_replayed :
    (∃ lib, ReadsBusy lib) ∧ ∀ lib, ReadsBusy lib →
      ¬ ∀ (s : SharedState) (arrivals : List Arrival),
        EachStep (Runs.Traced (HandledTo lib) (Sources.note lib)) (ServesGood lib) (sourcesFrom s)
          arrivals := by
  refine ⟨⟨busySerde, busySerde_reads⟩, fun lib reads serves => ?_⟩
  obtain ⟨h₁, handled₁, origin, h₂, handled₂, hit, _⟩ := busy_replayed reads
  have parsed₁ : parseBody lib busyBalance.request.body = .ok (balanceBody "1", balanceCall 1) :=
    firstBalance_parsed reads.first
  have parsed₂ := secondBalance_parsed reads.second
  have from_upstream : upstreamSource lib busyBalance.env = some (.upstream 429 busyReply) := by
    have read : lib.fromSlice busyReplyText.toUTF8 = some busyReply := reads.reply
    simp only [upstreamSource, busyBalance, envAt, read, Option.map_some]
  have computed : h₁.source lib busyBalance.env (balanceCall 1) =
      some (.upstream 429 busyReply) := by
    simp only [Handled.source, origin, from_upstream]
  have start : sourcesFrom (devnetState .general) = (devnetState .general, fun _ _ => none) := rfl
  have first : Run (Runs.Traced (HandledTo lib) (Sources.note lib))
      (sourcesFrom (devnetState .general)) [busyBalance]
      (h₁.state, Sources.note lib (devnetState .general) busyBalance fun _ _ => none) := by
    rw [start]
    exact .cons (traced_of ⟨h₁, handled₁, rfl⟩ _) (.nil _)
  have second : Runs.Traced (HandledTo lib) (Sources.note lib) (h₁.state, _) secondBalance
      (h₂.state, _) :=
    traced_of ⟨h₂, handled₂, rfl⟩
      (Sources.note lib (devnetState .general) busyBalance fun _ _ => none)
  have served := serves (devnetState .general) [busyBalance, secondBalance] [busyBalance]
    secondBalance [] _ _ rfl first second
  obtain ⟨bodyStr, rpcReq, tier, source, parsed, tiered, noted, good, _⟩ := served h₂ handled₂ hit
  obtain ⟨_, rfl⟩ := Prod.mk.inj (Except.ok.inj (parsed₂.symm.trans parsed))
  dsimp only at noted
  rw [note_stored _ handled₁ parsed₁ computed] at noted
  obtain rfl : CacheTier.l2 = tier := Option.some.inj tiered
  obtain rfl := Option.some.inj ((store_own _ rfl).symm.trans noted)
  exact absurd good.2.1 (by decide)

/-- A balance is asked for twice, and the second reply is the one cached of the first. -/
theorem first_balance_clean :
    let step := Runs.Traced (HandledTo balanceSerde) (Sources.note balanceSerde)
    let start := sourcesFrom (devnetState .general)
    let arrivals := [firstBalance, secondBalance]
    ∃ x y h, Run step start [firstBalance] x ∧ step x secondBalance y ∧
      rpcHandler balanceSerde secondBalance.env x.1 secondBalance.request = .ok h ∧
      h.origin = .cacheHit ∧ Always step Clean start arrivals ∧
      EachStep step (ServesGood balanceSerde) start arrivals := by
  intro step start arrivals
  obtain ⟨h₁, handled₁, balance⟩ := firstBalance_handled balanceSerde_reads
  obtain ⟨h₂, handled₂, hit, _⟩ := secondBalance_handled balanceSerde_reads balance
  have answered : HandledTo balanceSerde h₁.state secondBalance h₂.state := ⟨h₂, handled₂, rfl⟩
  let sources := Sources.note balanceSerde start.1 firstBalance fun _ _ => none
  let x : Sourced := (h₁.state, sources)
  let y : Sourced := (h₂.state, Sources.note balanceSerde h₁.state secondBalance sources)
  have first : step start firstBalance x := traced_of ⟨h₁, handled₁, rfl⟩ fun _ _ => none
  have second : step x secondBalance y := traced_of answered sources
  have good₁ : CachesGood balanceSerde start.1 firstBalance := by
    intro rpcReq tier source _ from_upstream
    obtain ⟨status, bytes, json, reply, read, rfl⟩ := upstreamSource_ok from_upstream
    obtain ⟨rfl, same⟩ := UpstreamReply.responded.inj reply
    obtain rfl := Option.some.inj same
    obtain rfl := Option.some.inj (balanceSerde_reads.reply.symm.trans read)
    exact ⟨by decide, by decide, rfl⟩
  have good₂ : CachesGood balanceSerde x.1 secondBalance := by
    intro rpcReq tier source _ from_upstream
    obtain ⟨status, bytes, json, reply, _⟩ := upstreamSource_ok from_upstream
    have unanswered : secondBalance.env.upstreamReply = .sendError := rfl
    cases unanswered.symm.trans reply
  have run : Run step start arrivals y := .cons first (.cons second (.nil y))
  have guarded : Run (Guarded step fun x => CachesGood balanceSerde x.1) start arrivals y :=
    .cons ⟨first, good₁⟩ (.cons ⟨second, good₂⟩ (.nil y))
  obtain ⟨clean_iff, serves⟩ :=
    errors_stay_out_iff_answers_good balanceSerde (devnetState .general) arrivals y run
  exact ⟨x, y, h₂, .cons first (.nil x), second, handled₂, hit, clean_iff.mpr guarded,
    serves guarded⟩

end Solnet.Daemon
