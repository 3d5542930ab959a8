import Solnet.Daemon.CacheRuns

/-! The slots that clients are told. A daemon answers `getSlot` from the slot it fetched last or
from its hot cache, so a slot may be old, but for half a second at most, and the slots told for
equal params do not go back. -/
namespace Solnet.Daemon
open Runs Fallible

/-- The slot in a reply. -/
def Value.slot (reply : Value) : Option Nat := (reply.index "result").asU64

/-- The slot that the task fetches. -/
def ProcessCall.fetchedSlot : ProcessCall → Option Nat
  | .slotReply reply => reply.bind Value.slot
  | _ => none

/-- The slot that the node tells for a request with params of this text. -/
def ProcessEvent.slotRead (lib : Serde) (event : ProcessEvent) : Option (String × Nat) :=
  match event.call, event.answer with
  | .request _ req, some answer =>
    match parseBody lib req.body, answer.response.body with
    | .ok (_, rpcReq), .json reply =>
      if requestMethod rpcReq = "getSlot" ∧
          (answer.origin = .cacheHit ∨ answer.origin = .slotIntercept) then
        reply.slot.map fun slot => (lib.toString (requestParams rpcReq), slot)
      else none
    | _, _ => none
  | _, _ => none

/-- The slot fetched last. -/
def latestSlot (events : List ProcessEvent) : Nat :=
  ((events.map ProcessEvent.call).filterMap ProcessCall.fetchedSlot).getLast?.getD 0

variable {lib : Serde} {env : Env} {s : SharedState} {req : Request} {h : Handled}
  {bodyStr : String} {rpcReq : Value}

/-! The replies. -/

theorem slot_slotReply {slot : Nat} (fits : slot < 2 ^ 64) :
    (slotReply lib slot rpcReq).slot = some slot := by
  unfold Value.slot slotReply
  rw [Value.index_insert _ _ (by decide), withProof, Value.index_insert _ _ (by decide)]
  have member : (slotResponse slot rpcReq).index "result" = .number (.int slot) := rfl
  have within : (0 : Int) ≤ slot ∧ (slot : Int) < 2 ^ 64 := by omega
  rw [member, Value.asU64, if_pos within, Int.toNat_natCast]

theorem slotRead_none {answer : ProcessAnswer} (hit : answer.origin ≠ .cacheHit)
    (intercepted : answer.origin ≠ .slotIntercept) :
    ProcessEvent.slotRead lib ⟨.request env req, some answer⟩ = none := by
  simp only [ProcessEvent.slotRead, hit, intercepted, or_self, and_false, if_false]
  split <;> rfl

theorem slotRead_other {answer : ProcessAnswer}
    (parsed : parseBody lib req.body = .ok (bodyStr, rpcReq))
    (other : requestMethod rpcReq ≠ "getSlot") :
    ProcessEvent.slotRead lib ⟨.request env req, some answer⟩ = none := by
  unfold ProcessEvent.slotRead
  simp only [parsed]
  cases answer.response.body with
  | json reply => exact if_neg fun own => other own.1
  | empty => rfl
  | text content => rfl
  | bytes content => rfl

theorem slotRead_some {answer : ProcessAnswer} {reply : Value}
    (parsed : parseBody lib req.body = .ok (bodyStr, rpcReq))
    (own : requestMethod rpcReq = "getSlot")
    (origin : answer.origin = .cacheHit ∨ answer.origin = .slotIntercept)
    (response : answer.response = .of 200 (.json reply)) :
    ProcessEvent.slotRead lib ⟨.request env req, some answer⟩ =
      reply.slot.map fun slot => (lib.toString (requestParams rpcReq), slot) := by
  simp only [ProcessEvent.slotRead, parsed, own, origin, response, Response.of, and_self, if_true]

theorem upstream_not_slot (handled : rpcHandler lib env s req = .ok h)
    (parsed : parseBody lib req.body = .ok (bodyStr, rpcReq)) (origin : h.origin = .upstream) :
    requestMethod rpcReq ≠ "getSlot" := by
  cases rpcHandler_steps handled with
  | screened screening => cases origin
  | unread screening unread => cases origin
  | cached screening parsed' lookup serves =>
    have hit := (serveCached_ok serves).1
    rw [origin] at hit
    cases hit
  | uncached screening parsed' lookup handles =>
    obtain ⟨_, rfl⟩ := Prod.mk.inj (Except.ok.inj (parsed.symm.trans parsed'))
    cases handleUncached_steps handles with
    | delivered found delivered => cases origin
    | stays stays meshed processed =>
      unfold processRequest at processed
      split at processed
      · have intercepted := (interceptGetSlot_ok processed).1
        rw [origin] at intercepted
        cases intercepted
      · assumption

theorem asU64_lt {value : Value} {n : Nat} (read : value.asU64 = some n) : n < 2 ^ 64 := by
  unfold Value.asU64 at read
  split at read
  · split at read
    · obtain rfl := Option.some.inj read
      omega
    · cases read
  · cases read

namespace Process

/-- Every slot in the hot cache is one told last or a later one, and none is ahead of the slot
fetched last. -/
structure SlotsHold (last : String → Nat) (p : Process) : Prop where
  fits : p.slotCache.currentSlot < 2 ^ 64
  told : ∀ text, last text ≤ p.slotCache.currentSlot
  cached : p.shared.latencyEngine.Stores fun tier key value => ∀ text, tier = .l1 →
    key = "getSlot" ++ ":" ++ text →
      ∃ slot, value.slot = some slot ∧ last text ≤ slot ∧ slot ≤ p.slotCache.currentSlot

variable {p p' : Process} {events : List ProcessEvent} {event : ProcessEvent}
  {last : String → Nat} {text : String} {slot : Nat}

theorem SlotsHold.keeps {engine : LatencyEngine} (holds : p.SlotsHold last)
    (same : p'.slotCache = p.slotCache) (engine' : p'.shared.latencyEngine = engine)
    (keeps : p.shared.latencyEngine.Keeps engine) : p'.SlotsHold last := by
  subst engine'
  refine ⟨same ▸ holds.fits, same ▸ holds.told, ?_⟩
  rw [same]
  exact keeps _ holds.cached

/-- A later slot is told for one text, and what is cached under it is not older. -/
theorem SlotsHold.tells (holds : p.SlotsHold last) (ahead : slot ≤ p.slotCache.currentSlot)
    (here : ∀ entry, (p.shared.latencyEngine.caches .l1).lookup ("getSlot" ++ ":" ++ text) =
      some entry → ∃ cached, entry.value.slot = some cached ∧ slot ≤ cached ∧
        cached ≤ p.slotCache.currentSlot) :
    p.SlotsHold (Function.update last text slot) := by
  refine ⟨holds.fits, fun other => ?_, ?_⟩
  · by_cases own : other = text
    · rw [own, Function.update_self]
      exact ahead
    · rw [Function.update_of_ne own]
      exact holds.told other
  · rintro tier key entry stored other rfl rfl
    by_cases own : other = text
    · subst own
      rw [Function.update_self]
      exact here entry stored
    · rw [Function.update_of_ne own]
      exact holds.cached .l1 _ entry stored other rfl rfl

theorem slot_key {method : String} {params : Value} {tier : CacheTier}
    (tiered : CacheTtl.getCacheTier method = some tier)
    (keyed : "getSlot" ++ ":" ++ text = buildCacheKey lib method params) :
    method = "getSlot" ∧ text = lib.toString params := by
  have texts := congrArg String.toList keyed
  simp only [buildCacheKey, String.toList_append] at texts
  rw [show ":".toList = [':'] from rfl, List.append_assoc, List.append_assoc] at texts
  obtain ⟨methods, printed⟩ := LatencyEngine.split_at_first (LatencyEngine.no_colon rfl)
    (LatencyEngine.no_colon tiered) texts
  exact ⟨(String.toList_inj.mp methods).symm, String.toList_inj.mp printed⟩

/-- The current slot is told, and stored. -/
theorem SlotsHold.stores {params : Value} (holds : p.SlotsHold last)
    (same : p'.slotCache = p.slotCache)
    (adds : p.shared.latencyEngine.Adds lib "getSlot" params
      (slotReply lib p.slotCache.currentSlot rpcReq) p'.shared.latencyEngine) :
    p'.SlotsHold (Function.update last (lib.toString params) p.slotCache.currentSlot) := by
  refine ⟨same ▸ holds.fits, fun other => ?_, ?_⟩
  · rw [same]
    by_cases own : other = lib.toString params
    · rw [own, Function.update_self]
    · rw [Function.update_of_ne own]
      exact holds.told other
  · rw [same]
    refine adds _ ?_ ?_
    · intro tier key entry stored
      by_cases own : CacheTtl.getCacheTier "getSlot" = some tier ∧
          key = buildCacheKey lib "getSlot" params
      · exact .inl own
      · refine .inr ?_
        rintro other rfl rfl
        have foreign : other ≠ lib.toString params := fun same => own ⟨rfl, by rw [same]; rfl⟩
        rw [Function.update_of_ne foreign]
        exact holds.cached .l1 _ entry stored other rfl rfl
    · rintro tier tiered other rfl keyed
      obtain ⟨_, rfl⟩ := slot_key tiered keyed.symm
      rw [Function.update_self]
      exact ⟨_, slot_slotReply holds.fits, Nat.le_refl _, Nat.le_refl _⟩

/-- A reply of another method goes under another key. -/
theorem SlotsHold.storesOther {method : String} {params value : Value} (holds : p.SlotsHold last)
    (same : p'.slotCache = p.slotCache) (other : method ≠ "getSlot")
    (adds : p.shared.latencyEngine.Adds lib method params value p'.shared.latencyEngine) :
    p'.SlotsHold last := by
  refine ⟨same ▸ holds.fits, same ▸ holds.told, ?_⟩
  rw [same]
  refine adds _ ?_ ?_
  · intro tier key entry stored
    exact .inr (holds.cached tier key entry stored)
  · rintro tier tiered text rfl keyed
    exact absurd (slot_key tiered keyed.symm).1 other

/-- What a step tells, if it tells a slot. -/
def SlotsHold.After (lib : Serde) (last : String → Nat) (event : ProcessEvent) (p' : Process) :
    Prop :=
  event.slotRead lib = none ∧ p'.SlotsHold last ∨
    ∃ text slot, event.slotRead lib = some (text, slot) ∧ last text ≤ slot ∧
      p'.SlotsHold (Function.update last text slot)

theorem SlotsHold.request (holds : p.SlotsHold last)
    (handled : rpcHandler lib { env with currentSlot := p.slotCache.currentSlot } p.shared req =
      .ok h) :
    SlotsHold.After lib last ⟨.request env req, some h.answer⟩ { p with shared := h.state } := by
  have silent (hit : h.origin ≠ .cacheHit) (intercepted : h.origin ≠ .slotIntercept)
      (keeps : p.shared.latencyEngine.Keeps h.state.latencyEngine) :
      SlotsHold.After lib last ⟨.request env req, some h.answer⟩ { p with shared := h.state } :=
    .inl ⟨slotRead_none hit intercepted, holds.keeps rfl rfl keeps⟩
  rcases rpcHandler_ok handled with ⟨origin, _, keeps, _⟩ | ⟨bodyStr, rpcReq, admitted, served, _⟩
  · exact silent (by simp [origin]) (by simp [origin]) keeps
  · cases served with
    | cached entry found origin response keeps =>
      by_cases own : requestMethod rpcReq = "getSlot"
      · rw [own] at found
        obtain ⟨tier, tiered, stored⟩ := LatencyEngine.live_stored found
        obtain rfl : CacheTier.l1 = tier := Option.some.inj tiered
        obtain ⟨slot, read, newer, ahead⟩ := holds.cached .l1 _ entry stored _ rfl rfl
        refine .inr ⟨lib.toString (requestParams rpcReq), slot, ?_, newer, ?_⟩
        · rw [slotRead_some admitted.parsed own (.inl origin) response, read]
          rfl
        · have told : p.SlotsHold _ := holds.tells ahead fun entry' stored' => by
            obtain rfl := Option.some.inj (stored.symm.trans stored')
            exact ⟨slot, read, Nat.le_refl slot, ahead⟩
          exact told.keeps rfl rfl keeps
      · exact .inl ⟨slotRead_other admitted.parsed own, holds.keeps rfl rfl keeps⟩
    | uncached missed answer =>
      cases answer with
      | refused stays origin keeps => exact silent (by simp [origin]) (by simp [origin]) keeps
      | forwarded node found status bytes delivered origin response posts keeps =>
        exact silent (by simp [origin]) (by simp [origin]) keeps
      | slotIntercept stays own origin response adds =>
        refine .inr ⟨lib.toString (requestParams rpcReq), p.slotCache.currentSlot, ?_,
          holds.told _, ?_⟩
        · rw [slotRead_some admitted.parsed own (.inr origin) response,
            slot_slotReply holds.fits]
          rfl
        · rw [own] at adds
          exact holds.stores rfl adds
      | upstream stays json read origin response adds =>
        have other := upstream_not_slot handled admitted.parsed origin
        exact .inl ⟨slotRead_other admitted.parsed other, holds.storesOther rfl other adds⟩

theorem evictExpired_keeps {engine : LatencyEngine} {s : LatencyEngine} {now : Nat}
    (evicted : s.evictExpired now = .ok engine) : s.Keeps engine := by
  intro P stores tier key entry' here
  have retains := LatencyEngine.evictTiers_retains evicted
  obtain ⟨entry, stored, same⟩ := retains.old tier key entry' here
  rw [same]
  exact stores tier key entry stored

theorem SlotsHold.step (holds : p.SlotsHold last) (step : p.Performs lib event p')
    (ascends : ∀ slot, event.call.fetchedSlot = some slot → p.slotCache.currentSlot ≤ slot) :
    SlotsHold.After lib last event p' := by
  cases step.took with
  | request handled => exact holds.request handled
  | cleanup cleaned => exact .inl ⟨rfl, holds.keeps rfl rfl fun _ stores => stores⟩
  | evictExpired evicted => exact .inl ⟨rfl, holds.keeps rfl rfl (evictExpired_keeps evicted)⟩
  | @slotReply reply =>
    refine .inl ⟨rfl, ?_⟩
    cases fetched : ProcessCall.fetchedSlot (.slotReply reply) with
    | none =>
      rw [SlotCache.refresh, show (reply.bind fun json => (json.index "result").asU64) = none from
        fetched]
      exact holds
    | some slot =>
      have ahead := ascends slot fetched
      obtain ⟨json, _, read⟩ := Option.bind_eq_some_iff.mp fetched
      rw [SlotCache.refresh, show (reply.bind fun json => (json.index "result").asU64) = some slot
        from fetched]
      refine ⟨asU64_lt read, fun text => (holds.told text).trans ahead, ?_⟩
      rintro tier key entry stored text rfl rfl
      obtain ⟨cached, same, newer, behind⟩ := holds.cached .l1 _ entry stored text rfl rfl
      exact ⟨cached, same, newer, behind.trans ahead⟩

/-- The node's slot is the one fetched last. -/
theorem Performs.currentSlot (step : p.Performs lib event p') :
    p'.slotCache.currentSlot = event.call.fetchedSlot.getD p.slotCache.currentSlot := by
  cases step.took with
  | request handled => rfl
  | cleanup cleaned => rfl
  | evictExpired evicted => rfl
  | @slotReply reply =>
    change (p.slotCache.refresh reply).currentSlot =
      (reply.bind fun json => (json.index "result").asU64).getD p.slotCache.currentSlot
    unfold SlotCache.refresh
    cases reply.bind fun json => (json.index "result").asU64 with
    | none => rfl
    | some slot => rfl

theorem Performs.ascends (step : p.Performs lib event p')
    (ascends : (p.slotCache.currentSlot ::
      ((event :: events).map ProcessEvent.call).filterMap ProcessCall.fetchedSlot).Pairwise
        (· ≤ ·)) :
    (∀ slot, event.call.fetchedSlot = some slot → p.slotCache.currentSlot ≤ slot) ∧
      (p'.slotCache.currentSlot ::
        (events.map ProcessEvent.call).filterMap ProcessCall.fetchedSlot).Pairwise (· ≤ ·) := by
  rw [step.currentSlot]
  rw [List.map_cons, List.filterMap_cons] at ascends
  cases fetched : event.call.fetchedSlot with
  | none =>
    rw [fetched] at ascends
    exact ⟨nofun, ascends⟩
  | some slot =>
    rw [fetched] at ascends
    obtain ⟨first, rest⟩ := List.pairwise_cons.mp ascends
    refine ⟨?_, rest⟩
    intro other same
    obtain rfl := Option.some.inj same
    exact first slot List.mem_cons_self

/-- The slots told from here on are not older than those told last, and not older than one
another, text by text. -/
theorem SlotsHold.run (run : Run (Performs lib) p events p') (holds : p.SlotsHold last)
    (ascends : (p.slotCache.currentSlot ::
      (events.map ProcessEvent.call).filterMap ProcessCall.fetchedSlot).Pairwise (· ≤ ·)) :
    (∀ read ∈ events.filterMap (ProcessEvent.slotRead lib), last read.1 ≤ read.2) ∧
      (events.filterMap (ProcessEvent.slotRead lib)).Pairwise
        fun first second => first.1 = second.1 → first.2 ≤ second.2 := by
  induction run generalizing last with
  | nil p => exact ⟨nofun, .nil⟩
  | @cons p p₁ p' event events step _ ih =>
    obtain ⟨now, later⟩ := step.ascends ascends
    rcases holds.step step now with ⟨untold, after⟩ | ⟨text, slot, told, newer, after⟩
    · rw [List.filterMap_cons_none untold]
      exact ih after later
    · obtain ⟨newest, sorted⟩ := ih after later
      rw [List.filterMap_cons_some told, List.pairwise_cons, List.forall_mem_cons]
      refine ⟨⟨newer, fun read member => ?_⟩, fun read member same => ?_, sorted⟩
      · have above := newest read member
        by_cases own : read.1 = text
        · rw [own, Function.update_self] at above
          rw [own]
          exact newer.trans above
        · rwa [Function.update_of_ne own] at above
      · have above := newest read member
        change text = read.1 at same
        rwa [← same, Function.update_self] at above

/-- The slots that the daemon tells for equal params do not go back as long as the slots that it
fetches do not. -/
theorem slots_ascend (lib : Serde) (config : Config) (walletTracker : Option WalletRewardTracker)
    (batteryMode : Bool) (calls : List ProcessCall)
    (ascends : (calls.filterMap ProcessCall.fetchedSlot).Pairwise (· ≤ ·)) :
    (((start config walletTracker batteryMode).observe lib calls).filterMap
      (ProcessEvent.slotRead lib)).Pairwise
        fun first second => first.1 = second.1 → first.2 ≤ second.2 := by
  obtain ⟨⟨p, run⟩, sub⟩ := observe_run lib (start config walletTracker batteryMode) calls
  have fresh : (start config walletTracker batteryMode).SlotsHold fun _ => 0 :=
    ⟨Nat.two_pow_pos 64, fun _ => Nat.le_refl 0, nofun⟩
  have observed := ascends.sublist (sub.sublist.filterMap ProcessCall.fetchedSlot)
  exact (fresh.run run (List.pairwise_cons.mpr ⟨fun _ _ => Nat.zero_le _, observed⟩)).2

/-! A client that asks for the slot again and again. -/

def slotBody : String := "\x7b\"jsonrpc\":\"2.0\",\"id\":1,\"method\":\"getSlot\"\x7d"

def slotSerde : Serde where
  fromSlice bytes := (String.fromUTF8? bytes).bind fun text =>
    if text = slotBody then
      some (.object [("id", .number (.int 1)), ("jsonrpc", .string "2.0"),
        ("method", .string "getSlot")])
    else none
  toString
    | .null => "null"
    | _ => "\x7b\"id\":1,\"jsonrpc\":\"2.0\",\"result\":7\x7d"
  sha256Hex _ := "577ee580530f853c56c1967f52e6879ce60ec5746ca3a742ef036f6240d7dd3a"

def slotAt (instant : Nat) : ProcessCall :=
  .request (envAt instant (.unreachable "") .sendError) ⟨none, some "10.0.0.1", slotBody.toUTF8⟩

def slotFetched (slot : Int) : ProcessCall :=
  .slotReply (some (.object [("result", .number (.int slot))]))

def slotCalls : List ProcessCall :=
  [slotFetched 7, slotAt 1, slotFetched 9, slotAt 2, slotAt 600_000_000]

/-- The second reply is the cached one. -/
theorem slots_ascend_reads :
    ((start devnetConfig none false).observe slotSerde slotCalls).filterMap
      (ProcessEvent.slotRead slotSerde) = [("null", 7), ("null", 7), ("null", 9)] ∧
    (((start devnetConfig none false).observe slotSerde slotCalls).filterMap
      (ProcessEvent.slotRead slotSerde)).Pairwise
        fun first second => first.1 = second.1 → first.2 ≤ second.2 :=
  ⟨by decide, slots_ascend slotSerde devnetConfig none false slotCalls (by decide)⟩

/-! How old a slot can be. -/

/-- The slot was told for the text when it was the one fetched last, and cached then. -/
def ToldAt (lib : Serde) (done : List ProcessEvent) (text : String) (slot storedAt : Nat) : Prop :=
  ∃ before env req answer after, done = before ++ ⟨.request env req, some answer⟩ :: after ∧
    ProcessEvent.slotRead lib ⟨.request env req, some answer⟩ = some (text, slot) ∧
    slot = latestSlot before ∧ env.storeInstant = storedAt

/-- Every slot told was fetched last at that moment or when it was cached, which is then less than
half a second ago. -/
def SlotsFresh (lib : Serde) (events : List ProcessEvent) : Prop :=
  ∀ before env req answer after text slot,
    events = before ++ ⟨.request env req, some answer⟩ :: after →
    ProcessEvent.slotRead lib ⟨.request env req, some answer⟩ = some (text, slot) →
    slot = latestSlot before ∨ ∃ storedAt, ToldAt lib before text slot storedAt ∧
      env.cacheInstant - storedAt < 500_000_000

/-- The slot task's slot is the one fetched last, and each slot in the hot cache was told when it
was put there. -/
structure Sourced (lib : Serde) (done : List ProcessEvent) (p : Process) : Prop where
  current : p.slotCache.currentSlot = latestSlot done
  fits : p.slotCache.currentSlot < 2 ^ 64
  cached : ∀ text entry, (p.shared.latencyEngine.caches .l1).lookup ("getSlot" ++ ":" ++ text) =
    some entry → entry.ttl = 500_000_000 ∧
      ∃ slot, entry.value.slot = some slot ∧ ToldAt lib done text slot entry.cachedAt

variable {done : List ProcessEvent} {storedAt : Nat}

theorem ToldAt.append (told : ToldAt lib done text slot storedAt) (more : List ProcessEvent) :
    ToldAt lib (done ++ more) text slot storedAt := by
  obtain ⟨before, env, req, answer, after, rfl, rest⟩ := told
  exact ⟨before, env, req, answer, after ++ more, by simp, rest⟩

theorem latestSlot_append (done : List ProcessEvent) (event : ProcessEvent) :
    latestSlot (done ++ [event]) = event.call.fetchedSlot.getD (latestSlot done) := by
  unfold latestSlot
  rw [List.map_append, List.filterMap_append]
  cases fetched : event.call.fetchedSlot with
  | none => simp [fetched]
  | some slot => simp [fetched]

theorem fits_step (step : p.Performs lib event p') (fits : p.slotCache.currentSlot < 2 ^ 64) :
    p'.slotCache.currentSlot < 2 ^ 64 := by
  rw [step.currentSlot]
  cases fetched : event.call.fetchedSlot with
  | none => exact fits
  | some slot =>
    cases called : event.call with
    | slotReply reply =>
      rw [called] at fetched
      obtain ⟨json, _, read⟩ := Option.bind_eq_some_iff.mp fetched
      exact asU64_lt read
    | _ =>
      rw [called] at fetched
      cases fetched

/-- A request that stores a slot tells it. -/
theorem stored_slot {value : Value} (fits : p.slotCache.currentSlot < 2 ^ 64)
    (handled : rpcHandler lib { env with currentSlot := p.slotCache.currentSlot } p.shared req =
      .ok h)
    (parsed : parseBody lib req.body = .ok (bodyStr, rpcReq))
    (own : requestMethod rpcReq = "getSlot") (stored : h.answer.stored lib env = some value) :
    value.slot = some p.slotCache.currentSlot ∧
      ProcessEvent.slotRead lib ⟨.request env req, some h.answer⟩ =
        some (lib.toString (requestParams rpcReq), p.slotCache.currentSlot) := by
  have idle (silent : h.origin = .refused ∨ h.origin = .mesh ∨ h.origin = .cacheHit) : False := by
    have none : h.answer.stored lib env = none := by
      rcases silent with origin | origin | origin <;>
        simp only [ProcessAnswer.stored, Handled.answer, origin]
    rw [none] at stored
    cases stored
  rcases rpcHandler_ok handled with ⟨origin, _⟩ | ⟨bodyStr', rpcReq', admitted, served, _⟩
  · exact (idle (.inl origin)).elim
  · obtain ⟨rfl, rfl⟩ := Prod.mk.inj (Except.ok.inj (parsed.symm.trans admitted.parsed))
    cases served with
    | cached entry found origin response keeps => exact (idle (.inr (.inr origin))).elim
    | uncached missed answer =>
      cases answer with
      | refused stays origin keeps => exact (idle (.inl origin)).elim
      | forwarded node found status bytes delivered origin response posts keeps =>
        exact (idle (.inr (.inl origin))).elim
      | upstream stays json read origin response adds =>
        exact absurd own (upstream_not_slot handled parsed origin)
      | slotIntercept stays slot origin response adds =>
        have told : (slotReply lib p.slotCache.currentSlot rpcReq).slot = _ := slot_slotReply fits
        simp only [ProcessAnswer.stored, Handled.answer, origin, response, Response.of] at stored
        obtain rfl := Option.some.inj stored
        refine ⟨told, ?_⟩
        rw [slotRead_some parsed own (.inr origin) response, told]
        rfl

/-- What a request that misses the caches leaves under a key of the slot. -/
theorem missed_slot {engine : LatencyEngine} {entry : CacheEntry}
    (fits : p.slotCache.currentSlot < 2 ^ 64)
    (handled : rpcHandler lib { env with currentSlot := p.slotCache.currentSlot } p.shared req =
      .ok h)
    (parsed : parseBody lib req.body = .ok (bodyStr, rpcReq))
    (found : ((engine.storing lib (requestMethod rpcReq) (requestParams rpcReq)
      (h.answer.stored lib env) env.storeInstant).caches .l1).lookup ("getSlot" ++ ":" ++ text) =
        some entry) :
    (engine.caches .l1).lookup ("getSlot" ++ ":" ++ text) = some entry ∨
      entry.ttl = 500_000_000 ∧ entry.cachedAt = env.storeInstant ∧
        entry.value.slot = some p.slotCache.currentSlot ∧
        ProcessEvent.slotRead lib ⟨.request env req, some h.answer⟩ =
          some (text, p.slotCache.currentSlot) := by
  cases stored : h.answer.stored lib env with
  | none =>
    rw [stored] at found
    exact .inl found
  | some value =>
    rw [stored, LatencyEngine.storing] at found
    cases lives : CacheTtl.getTtl (requestMethod rpcReq) with
    | none =>
      simp only [LatencyEngine.setCache, lives] at found
      exact .inl found
    | some ttl =>
      cases tiered : CacheTtl.getCacheTier (requestMethod rpcReq) with
      | none =>
        rw [LatencyEngine.setCache_untiered tiered] at found
        exact .inl found
      | some tier =>
        rw [LatencyEngine.lookup_setCache lives tiered] at found
        split at found
        · rename_i here
          obtain ⟨_, keyed⟩ := here
          obtain ⟨own, same⟩ := slot_key tiered keyed
          obtain rfl := Option.some.inj found
          obtain ⟨slot, told⟩ := stored_slot fits handled parsed own stored
          rw [own] at lives
          rw [same]
          exact .inr ⟨(Option.some.inj lives).symm, rfl, slot, told⟩
        · exact .inl found

theorem Sourced.step (sourced : Sourced lib done p) (step : p.Performs lib event p') :
    Sourced lib (done ++ [event]) p' := by
  refine ⟨?_, fits_step step sourced.fits, ?_⟩
  · rw [step.currentSlot, latestSlot_append, sourced.current]
  · have kept {engine : LatencyEngine} {now : Nat}
        (retains : LatencyEngine.Retains now p.shared.latencyEngine engine) (text : String)
        (entry : CacheEntry)
        (found : (engine.caches .l1).lookup ("getSlot" ++ ":" ++ text) = some entry) :
        entry.ttl = 500_000_000 ∧ ∃ slot, entry.value.slot = some slot ∧
          ToldAt lib (done ++ [event]) text slot entry.cachedAt := by
      obtain ⟨old, stored, same⟩ := retains.old .l1 _ entry found
      rw [same]
      obtain ⟨lives, slot, read, told⟩ := sourced.cached text old stored
      exact ⟨lives, slot, read, told.append [event]⟩
    cases step.took with
    | @request env req h handled =>
      intro text entry found
      cases rpcHandler_caches handled with
      | turnedAway origin effects same =>
        have found : (h.state.latencyEngine.caches .l1).lookup _ = _ := found
        rw [same] at found
        exact kept (LatencyEngine.retains_refl 0 _) text entry found
      | hit parsed lookup origin response same =>
        have found : (h.state.latencyEngine.caches .l1).lookup _ = _ := found
        rw [same] at found
        exact kept (LatencyEngine.getCached_retains lookup) text entry found
      | missed parsed lookup origin stores =>
        have found : (h.state.latencyEngine.caches .l1).lookup _ = _ := found
        rw [stores] at found
        rcases missed_slot sourced.fits handled parsed found with old | ⟨lives, at_, slot, told⟩
        · exact kept (LatencyEngine.getCached_retains lookup) text entry old
        · exact ⟨lives, _, slot, done, env, req, h.answer, [], rfl, told, sourced.current,
            at_.symm⟩
    | cleanup cleaned => exact kept (LatencyEngine.retains_refl 0 _)
    | evictExpired evicted => exact kept (LatencyEngine.evictTiers_retains evicted)
    | slotReply => exact kept (LatencyEngine.retains_refl 0 _)

theorem run_sourced {config : Config} {walletTracker : Option WalletRewardTracker}
    {batteryMode : Bool}
    (run : Run (Performs lib) (start config walletTracker batteryMode) events p) :
    Sourced lib events p := by
  have keeps (done : List ProcessEvent) (p : Process) (event : ProcessEvent) (p' : Process)
      (sourced : Sourced lib done p) (step : p.Performs lib event p') :
      Sourced lib (done ++ [event]) p' := sourced.step step
  have empty : Sourced lib [] (start config walletTracker batteryMode) :=
    ⟨rfl, Nat.two_pow_pos 64, nofun⟩
  exact run.history keeps empty

/-- What a slot told comes from. -/
theorem Sourced.read (sourced : Sourced lib done p)
    (handled : rpcHandler lib { env with currentSlot := p.slotCache.currentSlot } p.shared req =
      .ok h)
    (told : ProcessEvent.slotRead lib ⟨.request env req, some h.answer⟩ = some (text, slot)) :
    slot = latestSlot done ∨ ∃ storedAt, ToldAt lib done text slot storedAt ∧
      env.cacheInstant - storedAt < 500_000_000 := by
  have silent (hit : h.origin ≠ .cacheHit) (intercepted : h.origin ≠ .slotIntercept) : False := by
    rw [slotRead_none hit intercepted] at told
    cases told
  rcases rpcHandler_ok handled with ⟨origin, _⟩ | ⟨bodyStr, rpcReq, admitted, served, _⟩
  · exact (silent (by simp [origin]) (by simp [origin])).elim
  · by_cases own : requestMethod rpcReq = "getSlot"
    · cases served with
      | cached entry found origin response keeps =>
        rw [slotRead_some admitted.parsed own (.inl origin) response] at told
        obtain ⟨cached, read, same⟩ := Option.map_eq_some_iff.mp told
        obtain ⟨rfl, rfl⟩ := Prod.mk.inj same
        have young := LatencyEngine.live_young found
        rw [own] at found
        obtain ⟨tier, tiered, stored⟩ := LatencyEngine.live_stored found
        obtain rfl : CacheTier.l1 = tier := Option.some.inj tiered
        obtain ⟨lives, slot, read', source⟩ := sourced.cached _ entry stored
        obtain rfl := Option.some.inj (read.symm.trans read')
        rw [lives] at young
        exact .inr ⟨entry.cachedAt, source, young⟩
      | uncached missed answer =>
        cases answer with
        | slotIntercept stays _ origin response adds =>
          rw [slotRead_some admitted.parsed own (.inr origin) response,
            slot_slotReply sourced.fits] at told
          obtain ⟨_, rfl⟩ := Prod.mk.inj (Option.some.inj told)
          exact .inl sourced.current
        | refused stays origin keeps => exact (silent (by simp [origin]) (by simp [origin])).elim
        | forwarded node found status bytes delivered origin response posts keeps =>
          exact (silent (by simp [origin]) (by simp [origin])).elim
        | upstream stays json read origin response adds =>
          exact (silent (by simp [origin]) (by simp [origin])).elim
    · rw [slotRead_other admitted.parsed own] at told
      cases told

/-- No slot is told that was not the latest one less than half a second before, as the daemon
fetches them. -/
theorem slot_reads_fresh (lib : Serde) (config : Config)
    (walletTracker : Option WalletRewardTracker) (batteryMode : Bool)
    (calls : List ProcessCall) :
    SlotsFresh lib ((start config walletTracker batteryMode).observe lib calls) := by
  intro before env req answer after text slot observed told
  obtain ⟨⟨p', run⟩, _⟩ := observe_run lib (start config walletTracker batteryMode) calls
  rw [observed] at run
  obtain ⟨p, first, rest⟩ := run_append_iff.mp run
  obtain ⟨_, step, _⟩ := run_cons_iff.mp rest
  cases step.took with
  | request handled => exact (run_sourced first).read handled told

end Process

end Solnet.Daemon
