import Solnet.Daemon.Handling

/-! What the verifier sees of a body that is posted upstream. The method and the params
it gets are those of the parsed value, an array has neither, and the post is the raw
body. -/
namespace Solnet.Daemon

def callOf (value : Value) : Option Submission :=
  match value.get "method" with
  | some (.string method) => some ⟨method, requestParams value⟩
  | _ => none

/-- The calls of a body: each element of a batch array, or the body itself. -/
def calls (rpcReq : Value) : List Submission :=
  match rpcReq with
  | .array items => items.filterMap callOf
  | value => (callOf value).toList

/-- Every call that is not read-only was submitted as itself, and not found invalid. -/
def CallsChecked (rpcReq : Value) (effects : List Effect) : Prop :=
  ∀ call ∈ calls rpcReq, call.method ∉ skipMethods →
    ∃ reply, .brahmanPost call reply ∈ effects ∧ reply.verdict ≠ some "INVALID"

/-- A batch makes no calls beyond read-only ones, and the one that the verifier is asked
about for every array. -/
def NoHiddenCalls (rpcReq : Value) : Prop :=
  ∀ items, rpcReq = .array items →
    ∀ call ∈ calls rpcReq, call.method ∈ skipMethods ∨ call = ⟨"unknown", .null⟩

variable {lib : Serde} {env : Env} {s : SharedState} {req : Request} {h : Handled}
  {bodyStr : String} {rpcReq : Value}

/-- What a posted body went through: the one submission made, if any, is that of the
parsed value. -/
theorem posted_verified {endpoint body : String} (ok : rpcHandler lib env s req = .ok h)
    (parsed : parseBody lib req.body = .ok (bodyStr, rpcReq))
    (posted : .upstreamPost endpoint body ∈ h.effects) :
    body = bodyStr ∧ ∃ submission : Option Submission,
      ((requestMethod rpcReq ∈ skipMethods ∧ submission = none) ∨
        (requestMethod rpcReq ∉ skipMethods ∧
          submission = some ⟨requestMethod rpcReq, requestParams rpcReq⟩ ∧
          env.brahmanReply.verdict ≠ some "INVALID")) ∧
      ∀ call reply, .brahmanPost call reply ∈ h.effects ↔
        submission = some call ∧ reply = env.brahmanReply := by
  rcases rpcHandler_ok ok with ⟨_, _, _, posts⟩ | ⟨bodyStr', rpcReq', admitted, _, posts⟩
  · rw [posts] at posted
    cases posted
  · obtain ⟨rfl, rfl⟩ := Prod.mk.inj (Except.ok.inj (parsed.symm.trans admitted.parsed))
    rcases posts with nothing |
      ⟨earlier, submission, upstreamRpc, passed, unverified, unposted, verification, posts⟩
    · exact absurd posted (nothing endpoint body)
    · rw [posts] at posted
      simp only [forwardPosts, List.mem_append, List.mem_map, Option.mem_toList, List.mem_singleton,
        reduceCtorEq, and_false, exists_false, false_or, Effect.upstreamPost.injEq] at posted
      refine ⟨(posted.resolve_left (unposted endpoint body)).2, submission,
        verifyWithBrahman_ok verification, fun call reply => ?_⟩
      rw [posts]
      simp only [forwardPosts, List.mem_append, List.mem_map, Option.mem_toList,
        List.mem_singleton, reduceCtorEq, or_false, Effect.brahmanPost.injEq]
      constructor
      · rintro (early | ⟨_, made, rfl, rfl⟩)
        · exact absurd early (unverified call reply)
        · exact ⟨made, rfl⟩
      · rintro ⟨made, rfl⟩
        exact .inr ⟨call, made, rfl, rfl⟩

theorem call_of_single (single : ∀ items, rpcReq ≠ .array items) {call : Submission}
    (made : call ∈ calls rpcReq) :
    call = ⟨requestMethod rpcReq, requestParams rpcReq⟩ := by
  have own : callOf rpcReq = some call := by
    cases rpcReq with
    | array items => exact absurd rfl (single items)
    | _ => simpa only [calls, Option.mem_toList] using made
  unfold callOf at own
  split at own
  · rename_i method named
    obtain rfl := Option.some.inj own
    simp only [requestMethod, named, Option.bind_some, Value.asStr, Option.getD_some]
  · cases own

/-- The calls of a body posted upstream were all checked exactly when an array hides no
call: of an array the verifier is asked about the method `unknown`, without params. -/
theorem calls_checked_iff_no_hidden_calls (lib : Serde) (env : Env) (s : SharedState)
    (req : Request) (h : Handled) (bodyStr : String) (rpcReq : Value) (endpoint body : String)
    (ok : rpcHandler lib env s req = .ok h)
    (parsed : parseBody lib req.body = .ok (bodyStr, rpcReq))
    (posted : .upstreamPost endpoint body ∈ h.effects) :
    body = bodyStr ∧ (CallsChecked rpcReq h.effects ↔ NoHiddenCalls rpcReq) := by
  obtain ⟨same, submission, verification, submitted⟩ := posted_verified ok parsed posted
  refine ⟨same, ?_⟩
  constructor
  · rintro checked items rfl call made
    by_cases skipped : call.method ∈ skipMethods
    · exact .inl skipped
    · obtain ⟨reply, sent, _⟩ := checked call made skipped
      rcases verification with ⟨_, rfl⟩ | ⟨_, rfl, _⟩
      · cases ((submitted call reply).mp sent).1
      · exact .inr (Option.some.inj ((submitted call reply).mp sent).1).symm
  · intro hidesNothing call made state
    by_cases batch : ∃ items, rpcReq = .array items
    · obtain ⟨items, rfl⟩ := batch
      obtain rfl := (hidesNothing items rfl call made).resolve_left state
      rcases verification with ⟨skipped, _⟩ | ⟨_, rfl, valid⟩
      · exact absurd skipped state
      · exact ⟨env.brahmanReply, (submitted _ _).mpr ⟨rfl, rfl⟩, valid⟩
    · obtain rfl := call_of_single (not_exists.mp batch) made
      rcases verification with ⟨skipped, _⟩ | ⟨_, rfl, valid⟩
      · exact absurd skipped state
      · exact ⟨env.brahmanReply, (submitted _ _).mpr ⟨rfl, rfl⟩, valid⟩

/-! A transaction sent on its own, and the same one in a batch. -/

def sendText : String :=
  "\x7b\"jsonrpc\":\"2.0\",\"id\":1,\"method\":\"sendTransaction\",\"params\":[\"AQID\"]\x7d"

def sendCall : Value :=
  .object [("id", .number (.int 1)), ("jsonrpc", .string "2.0"),
    ("method", .string "sendTransaction"), ("params", .array [.string "AQID"])]

def batchText : String := "[" ++ sendText ++ "]"

structure ReadsSend (lib : Serde) : Prop where
  single : lib.fromStr sendText = some sendCall
  batch : lib.fromStr batchText = some (.array [sendCall])

/-- Parsing and printing on just what these requests need of them. -/
def sendSerde : Serde where
  fromSlice bytes := (String.fromUTF8? bytes).bind fun text =>
    if text = sendText then some sendCall
    else if text = batchText then some (.array [sendCall])
    else none
  toString
    | .null => "null"
    | _ => "[\"AQID\"]"
  sha256Hex _ := ""

theorem sendSerde_reads : ReadsSend sendSerde where
  single := by
    simp only [Serde.fromStr, sendSerde, fromUTF8?_toUTF8, Option.bind_some, if_true]
  batch := by
    have other : batchText ≠ sendText := by decide
    simp only [Serde.fromStr, sendSerde, fromUTF8?_toUTF8, Option.bind_some, if_neg other, if_true]

/-- The verifier lets the request pass, and the upstream node does not answer. -/
def passingEnv : Env :=
  envAt 0 (.replied (.object [("verdict", .string "VALID")])) .sendError

theorem passing_posts (shard : ShardType) {text : String} {submission : Option Submission}
    (parsed : parseBody lib text.toUTF8 = .ok (text, rpcReq))
    (uncached : CacheTtl.getCacheTier (requestMethod rpcReq) = none)
    (handles : meshTarget (devnetState shard) (requestMethod rpcReq) = none)
    (other : requestMethod rpcReq ≠ "getSlot")
    (verified : verifyWithBrahman lib (requestMethod rpcReq) (requestParams rpcReq)
      passingEnv.brahmanReply = .ok (submission, .ok true)) :
    ∃ h, rpcHandler lib passingEnv (devnetState shard) ⟨none, none, text.toUTF8⟩ = .ok h ∧
      .upstreamPost "https://api.devnet.solana.com" text ∈ h.effects := by
  have touched : AttackPrevention.touch ((devnetState shard).attackPrevention.ipRequests.lookup
      (extractIp ⟨none, none, text.toUTF8⟩)) passingEnv.rateSecs = .ok ⟨1, 0, 0⟩ := rfl
  have screened : screenClient passingEnv (devnetState shard) ⟨none, none, text.toUTF8⟩ =
      .ok (_, _, none) := screenClient_allowed rfl rfl touched (by decide)
  have missed : (devnetState shard).latencyEngine.getCached lib (requestMethod rpcReq)
      (requestParams rpcReq) passingEnv.cacheInstant = .ok (.new, none) := by
    simp only [LatencyEngine.getCached, uncached]
    rfl
  obtain ⟨executor, _, handled⟩ := rpcHandler_posts screened parsed missed (Nat.succ_pos 99) handles
    other rfl rfl verified
  refine ⟨_, handled, ?_⟩
  simp [forwardPosts]

theorem single_send_checked :
    ∃ h, rpcHandler sendSerde passingEnv (devnetState .deFi) ⟨none, none, sendText.toUTF8⟩ = .ok h ∧
      CallsChecked sendCall h.effects := by
  have parsed : parseBody sendSerde sendText.toUTF8 = .ok (sendText, sendCall) :=
    parseBody_clean (by decide +kernel) sendSerde_reads.single
  obtain ⟨h, handled, posted⟩ := passing_posts .deFi parsed rfl rfl (by decide) rfl
  exact ⟨h, handled, (calls_checked_iff_no_hidden_calls sendSerde passingEnv (devnetState .deFi) _ h
    sendText sendCall _ _ handled parsed posted).2.mpr fun items batch => nomatch batch⟩

theorem batched_send_unchecked :
    (∃ lib, ReadsSend lib) ∧ ∀ lib, ReadsSend lib →
      ¬ ∀ (env : Env) (s : SharedState) (req : Request) (h : Handled) (bodyStr : String)
        (rpcReq : Value) (endpoint body : String), rpcHandler lib env s req = .ok h →
        parseBody lib req.body = .ok (bodyStr, rpcReq) →
        .upstreamPost endpoint body ∈ h.effects → CallsChecked rpcReq h.effects := by
  refine ⟨⟨sendSerde, sendSerde_reads⟩, fun lib reads checked => ?_⟩
  have parsed : parseBody lib batchText.toUTF8 = .ok (batchText, .array [sendCall]) :=
    parseBody_clean (by decide +kernel) reads.batch
  obtain ⟨h, handled, posted⟩ := passing_posts .general parsed rfl rfl (by decide) rfl
  obtain ⟨_, submission, verification, submitted⟩ := posted_verified handled parsed posted
  have made : (⟨"sendTransaction", .array [.string "AQID"]⟩ : Submission) ∈
      calls (.array [sendCall]) := List.mem_singleton.mpr rfl
  obtain ⟨reply, sent, _⟩ := checked _ _ _ h _ _ _ _ handled parsed posted _ made (by decide)
  rcases verification with ⟨_, rfl⟩ | ⟨_, rfl, _⟩
  · cases ((submitted _ _).mp sent).1
  · have asked := congrArg Submission.method (Option.some.inj ((submitted _ _).mp sent).1)
    exact absurd asked (by decide)

end Solnet.Daemon
