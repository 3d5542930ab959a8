import Mathlib.Data.List.ReduceOption
import Solnet.Sdk.Overlaps

/-! What the calls of a connection post and where to, however they overlap. -/
namespace Solnet.Sdk
open Runs Solnet.Daemon

/-- The endpoint of the post is the connection's or a peer, and privacy mode is kept. -/
def SdkPost.FromSdk (hostOf : String → Option String) (endpoint : String) (privacy : Bool)
    (peers : List String) (post : SdkPost) : Prop :=
  ∃ e, (e = endpoint ∨ e ∈ peers) ∧ post.host.isSome ∧ post.host = hostOf e ∧
    post.url = (if privacy then e ++ "/onion" else e) ∧
    (privacy = true → ∃ request, post.body = .onion request)

/-- The post goes in plain text to the endpoint that the connection was made with. -/
def SdkPost.FromBase (endpoint : String) (post : SdkPost) : Prop :=
  post.url = endpoint ∧ post.host = none ∧ ∃ text, post.body = .plain text

namespace SdkWorld

/-- At most one post is the SDK's, and after it come at most `n` times the one post of the base
connection. -/
def Posts (hostOf : String → Option String) (endpoint : String) (privacy : Bool)
    (peers : List String) (n : Nat) (posts : List SdkPost) : Prop :=
  ∃ own sent base, posts = own ++ List.replicate sent base ∧ own.length ≤ 1 ∧ sent ≤ n ∧
    (∀ post ∈ own, post.FromSdk hostOf endpoint privacy peers) ∧ base.FromBase endpoint

/-- What a call has posted by where it is. -/
def Posted (hostOf : String → Option String) (endpoint : String) (privacy : Bool)
    (peers : List String) (call : SdkCall) : Prop :=
  match call.point with
  | .initializes | .proceeds => call.posts = []
  | .awaits => ∃ own, call.posts = [own] ∧ own.FromSdk hostOf endpoint privacy peers
  | .awaitsBase post retries => ∃ own sent, call.posts = own ++ List.replicate sent post ∧
      own.length ≤ 1 ∧ sent + retries ≤ 5 ∧
      (∀ post ∈ own, post.FromSdk hostOf endpoint privacy peers) ∧ post.FromBase endpoint
  | .ended _ => Posts hostOf endpoint privacy peers 5 call.posts

structure Keeps (hostOf : String → Option String) (endpoint : String) (privacy : Bool)
    (peers : List String) (w : SdkWorld) : Prop where
  base : w.connection.rpcEndpoint = endpoint
  samePeers : w.connection.peerDiscovery.peers = peers
  samePrivacy : w.connection.privacy = privacy
  inUse : ∀ e ∈ w.connection.solnetEndpoint, e = endpoint ∨ e ∈ peers
  checks : ∀ ranking ∈ w.rankings, ∀ health, some health ∈ ranking.checks → health.url ∈ peers
  posted : ∀ call ∈ w.calls, Posted hostOf endpoint privacy peers call

variable {hostOf : String → Option String} {w w' : SdkWorld} {event : SdkEvent}
  {events : List SdkEvent} {i : Nat} {call : SdkCall}
  {endpoint : String} {privacy : Bool} {peers : List String}

theorem posts_nil (hostOf : String → Option String) (endpoint : String) (privacy : Bool)
    (peers : List String) (n : Nat) : Posts hostOf endpoint privacy peers n [] :=
  ⟨[], 0, ⟨endpoint, none, .plain ""⟩, rfl, Nat.zero_le 1, Nat.zero_le n, nofun, rfl, rfl, "", rfl⟩

/-- The posts of a call that falls back. -/
def Attempted (hostOf : String → Option String) (endpoint : String) (privacy : Bool)
    (peers : List String) (own : List SdkPost) : Prop :=
  own.length ≤ 1 ∧ ∀ post ∈ own, post.FromSdk hostOf endpoint privacy peers

theorem Attempted.posts {own : List SdkPost}
    (attempted : Attempted hostOf endpoint privacy peers own) :
    Posts hostOf endpoint privacy peers 5 own := by
  obtain ⟨one, fromSdk⟩ := attempted
  obtain ⟨_, _, base, _, _, _, _, fromBase⟩ := posts_nil hostOf endpoint privacy peers 0
  exact ⟨own, 0, base, (List.append_nil own).symm, one, Nat.zero_le 5, fromSdk, fromBase⟩

theorem getBestPeer_mem {d : PeerDiscovery} {peer : String}
    (best : peer ∈ d.getBestPeer) : peer ∈ d.peers := by
  rcases d.getBestPeer_cases with ⟨_, first⟩ | ⟨entry, least, closest⟩
  · rw [first] at best
    exact List.mem_of_mem_head? best
  · rw [closest] at best
    obtain rfl := Option.some.inj best
    exact d.known entry.1 (OrderedMap.mem_keys_iff.mpr ⟨entry.2, least.mem⟩)

theorem Keeps.setEndpoint_best (keeps : w.Keeps hostOf endpoint privacy peers) :
    (w.setEndpoint w.best).Keeps hostOf endpoint privacy peers := by
  refine ⟨keeps.base, keeps.samePeers, keeps.samePrivacy, ?_, keeps.checks, keeps.posted⟩
  intro e best
  have member := getBestPeer_mem best
  exact .inr (keeps.samePeers ▸ member)

theorem Keeps.rankPeers (keeps : w.Keeps hostOf endpoint privacy peers) (owner : RankingOwner) :
    (w.rankPeers owner).Keeps hostOf endpoint privacy peers := by
  refine ⟨keeps.base, keeps.samePeers, keeps.samePrivacy, keeps.inUse, ?_, keeps.posted⟩
  intro ranking member health here
  rcases List.mem_append.mp member with earlier | new
  · exact keeps.checks ranking earlier health here
  · rw [List.mem_singleton.mp new] at here
    obtain ⟨_, _, none⟩ := List.mem_map.mp here
    cases none

theorem Keeps.setCall (keeps : w.Keeps hostOf endpoint privacy peers) (i : Nat)
    (posted : Posted hostOf endpoint privacy peers call) :
    (w.setCall i call).Keeps hostOf endpoint privacy peers := by
  refine ⟨keeps.base, keeps.samePeers, keeps.samePrivacy, keeps.inUse, keeps.checks, ?_⟩
  intro other member
  rcases List.mem_or_eq_of_mem_set member with earlier | rfl
  · exact keeps.posted other earlier
  · exact posted

theorem Keeps.addCall (keeps : w.Keeps hostOf endpoint privacy peers)
    (posted : Posted hostOf endpoint privacy peers call) :
    (w.addCall call).Keeps hostOf endpoint privacy peers := by
  refine ⟨keeps.base, keeps.samePeers, keeps.samePrivacy, keeps.inUse, keeps.checks, ?_⟩
  exact List.forall_mem_append.mpr ⟨keeps.posted, List.forall_mem_singleton.mpr posted⟩

theorem Keeps.basePosted (keeps : w.Keeps hostOf endpoint privacy peers) (uuid : String)
    (attempted : Attempted hostOf endpoint privacy peers call.posts) :
    Posted hostOf endpoint privacy peers (w.basePosted uuid call) :=
  ⟨call.posts, 1, rfl, attempted.1, Nat.le_refl 5, attempted.2, keeps.base, rfl, _, rfl⟩

theorem Keeps.catches (keeps : w.Keeps hostOf endpoint privacy peers) (i : Nat) (uuid : String)
    (attempted : Attempted hostOf endpoint privacy peers call.posts) :
    (w.catches i uuid call).Keeps hostOf endpoint privacy peers := by
  unfold SdkWorld.catches
  split
  · exact keeps.setEndpoint_best.setCall i (keeps.basePosted uuid attempted)
  · exact keeps.setCall i attempted.posts

theorem Keeps.begin (keeps : w.Keeps hostOf endpoint privacy peers) (method params : String) :
    (w.begin method params).Keeps hostOf endpoint privacy peers := by
  have unposted (point : CallPoint) (waits : point = .initializes ∨ point = .proceeds) :
      Posted hostOf endpoint privacy peers ⟨method, params, point, []⟩ := by
    rcases waits with rfl | rfl
    · exact rfl
    · exact rfl
  unfold SdkWorld.begin
  split
  · exact keeps.addCall (posts_nil hostOf endpoint privacy peers 5)
  · split
    · exact keeps.addCall (unposted .proceeds (.inr rfl))
    · exact (keeps.addCall (unposted .initializes (.inl rfl))).rankPeers _

theorem attemptPost_fromSdk {post : SdkPost} {now : Nat} {method params : String}
    (keeps : w.Keeps hostOf endpoint privacy peers)
    (posted : w.connection.attemptPost method params hostOf now = some post) :
    post.FromSdk hostOf endpoint privacy peers := by
  simp only [SolnetConnection.attemptPost, Option.bind_eq_bind, Option.bind_eq_some_iff, pure,
    Option.some.injEq] at posted
  obtain ⟨e, used, body, built, host, hosted, rfl⟩ := posted
  refine ⟨e, keeps.inUse e used, rfl, hosted.symm, ?_, ?_⟩
  · rw [keeps.samePrivacy]
  · intro onion
    rw [keeps.samePrivacy, onion, requestBody, if_pos rfl] at built
    cases encoded : btoa (requestText now method params) with
    | error e =>
      rw [encoded] at built
      cases built
    | ok layer =>
      rw [encoded] at built
      exact ⟨⟨layer, exitId⟩, (Option.some.inj built).symm⟩

theorem Keeps.baseReply {post : SdkPost} {retries : Nat}
    (keeps : w.Keeps hostOf endpoint privacy peers) (i : Nat) (reply : FetchReply)
    (posted : Posted hostOf endpoint privacy peers call)
    (point : call.point = .awaitsBase post retries) :
    (w.baseReply i call post retries reply).Keeps hostOf endpoint privacy peers := by
  unfold Posted at posted
  rw [point] at posted
  obtain ⟨own, sent, posts, one, few, fromSdk, fromBase⟩ := posted
  unfold SdkWorld.baseReply
  split
  · rename_i retries _
    refine keeps.setCall i ⟨own, sent + 1, ?_, one, by omega, fromSdk, fromBase⟩
    rw [posts, List.append_assoc, ← List.replicate_succ']
  · exact keeps.setCall i ⟨own, sent, post, posts, one, by omega, fromSdk, fromBase⟩

theorem step_keeps (keeps : w.Keeps hostOf endpoint privacy peers)
    (step : w.Step hostOf event w') : w'.Keeps hostOf endpoint privacy peers := by
  cases step.took with
  | requests method params uuid =>
    exact keeps.addCall (keeps.basePosted uuid ⟨Nat.zero_le 1, nofun⟩)
  | calls method params => exact keeps.begin method params
  | @checked r k probe ranking found inside unended =>
    refine ⟨keeps.base, keeps.samePeers, keeps.samePrivacy, keeps.inUse, ?_, keeps.posted⟩
    intro other member health here
    rcases List.mem_or_eq_of_mem_set member with earlier | rfl
    · exact keeps.checks other earlier health here
    · rcases List.mem_or_eq_of_mem_set here with before | new
      · exact keeps.checks ranking (List.mem_of_getElem? found) health before
      · obtain rfl := Option.some.inj new
        rw [Probe.health_url, ← keeps.samePeers]
        exact List.getElem_mem inside
  | @swept r ranking found owner all =>
    have dropped : SdkWorld.Keeps hostOf endpoint privacy peers
        { w with rankings := w.rankings.eraseIdx r } :=
      ⟨keeps.base, keeps.samePeers, keeps.samePrivacy, keeps.inUse,
        fun other member => keeps.checks other (List.mem_of_mem_eraseIdx member), keeps.posted⟩
    unfold sweep
    split
    · exact dropped.setEndpoint_best
    · exact dropped
  | @initialized r i ranking call found owner all here point =>
    have posted := keeps.posted call (List.mem_of_getElem? here)
    unfold Posted at posted
    rw [point] at posted
    have ready : Posted hostOf endpoint privacy peers { call with point := .proceeds } := posted
    have set := keeps.setCall i ready
    refine ⟨keeps.base, keeps.samePeers, keeps.samePrivacy, ?_, ?_, set.posted⟩
    · intro e used
      rcases Option.or_eq_some_iff.mp used with first | ⟨_, unchanged⟩
      · have listed := List.mem_of_mem_head? first
        obtain ⟨health, sorted, rfl⟩ := List.mem_map.mp listed
        have checked := List.reduceOption_mem_iff.mp ((List.mergeSort_perm _ _).mem_iff.mp sorted)
        exact .inr (keeps.checks ranking (List.mem_of_getElem? found) health checked)
      · exact keeps.inUse e unchanged
    · intro other member
      exact keeps.checks other (List.mem_of_mem_eraseIdx member)
  | @proceeds i now uuid call here point =>
    have posted := keeps.posted call (List.mem_of_getElem? here)
    unfold Posted at posted
    rw [point] at posted
    unfold attempt
    split
    · refine keeps.catches i uuid ?_
      rw [posted]
      exact ⟨Nat.zero_le 1, nofun⟩
    · rename_i post sent
      refine keeps.setCall i ⟨post, ?_, attemptPost_fromSdk keeps sent⟩
      rw [posted, List.nil_append]
  | @replies i reply uuid call here point =>
    have posted := keeps.posted call (List.mem_of_getElem? here)
    unfold Posted at posted
    rw [point] at posted
    obtain ⟨own, posts, fromSdk⟩ := posted
    have attempted : Attempted hostOf endpoint privacy peers call.posts := by
      rw [posts]
      exact ⟨Nat.le_refl 1, List.forall_mem_singleton.mpr fromSdk⟩
    unfold SdkWorld.reply
    split
    · exact keeps.setCall i attempted.posts
    · exact keeps.catches i uuid attempted
  | @baseReplies i retries reply uuid call post here point =>
    exact keeps.baseReply i reply (keeps.posted call (List.mem_of_getElem? here)) point
  | ticks live => exact keeps.rankPeers .timer
  | destroys =>
    exact ⟨keeps.base, keeps.samePeers, keeps.samePrivacy, keeps.inUse, keeps.checks,
      keeps.posted⟩

theorem Posted.posts (posted : Posted hostOf endpoint privacy peers call) :
    Posts hostOf endpoint privacy peers 5 call.posts := by
  unfold Posted at posted
  split at posted
  · rw [posted]
    exact posts_nil hostOf endpoint privacy peers 5
  · rw [posted]
    exact posts_nil hostOf endpoint privacy peers 5
  · obtain ⟨own, posts, fromSdk⟩ := posted
    rw [posts]
    exact Attempted.posts ⟨Nat.le_refl 1, List.forall_mem_singleton.mpr fromSdk⟩
  · rename_i post retries _
    obtain ⟨own, sent, posts, one, few, fromSdk, fromBase⟩ := posted
    exact ⟨own, sent, post, posts, one, by omega, fromSdk, fromBase⟩
  · exact posted

/-- In every run each call posts at most once for the SDK, to the endpoint or a peer that the
connection was made with, and in privacy mode as an onion request. What else it posts is one
plain request of the base connection, at most five times and to that endpoint only. -/
theorem posts_configured (hostOf : String → Option String) (endpoint : String) (privacy : Bool)
    (peers : List String) (events : List SdkEvent) (w : SdkWorld)
    (run : Run (Step hostOf) (.new endpoint privacy peers) events w) :
    ∀ call ∈ w.calls, Posts hostOf endpoint privacy peers 5 call.posts := by
  have start : (new endpoint privacy peers).Keeps hostOf endpoint privacy peers :=
    ⟨rfl, rfl, rfl, fun e same => .inl (Option.some.inj same).symm, nofun, nofun⟩
  have keeps := run.invariant (fun _ _ _ keeps step => step_keeps keeps step) start
  exact fun call member => (keeps.posted call member).posts

/-- The public request of a connection in privacy mode, which is limited five times. -/
def limited : List SdkEvent :=
  .requests "getSlot" "[]" "id" ::
    List.replicate 5 (.replies 0 (.responded 429 .empty) "")

theorem posts_configured_limited : ∃ w call, Run (Step some) (.new "https://a" true []) limited w ∧
    w.calls = [call] ∧ call.posts.length = 5 ∧ Posts some "https://a" true [] 5 call.posts := by
  obtain ⟨w, followed, posts⟩ : ∃ w, (new "https://a" true []).follow some limited = some w ∧
      w.calls.map (fun call => call.posts.length) = [5] :=
    Option.map_eq_some_iff.mp (by decide)
  obtain ⟨call, only, five⟩ := List.map_eq_singleton_iff.mp posts
  have run := follow_run followed
  have posted := posts_configured some "https://a" true [] limited w run call
    (only ▸ List.mem_singleton_self call)
  exact ⟨w, call, run, only, five, posted⟩

end SdkWorld

end Solnet.Sdk
