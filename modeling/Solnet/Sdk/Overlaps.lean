import Mathlib.Data.List.ReduceOption
import Solnet.Lib.Runs
import Solnet.Sdk.Failover

/-! What one connection of the SDK does as its calls overlap: calls of its own method, requests
that the methods of the base class make, and health checks. What a call does between two waits is
one step, and so is the end of a health check. -/
namespace Solnet.Sdk
open Runs Solnet.Daemon

/-- What awaits a ranking: a call, or the timer of the health checks. -/
inductive RankingOwner where
  | request (i : Nat)
  | timer

def RankingOwner.isRequest : RankingOwner → Bool
  | request _ => true
  | timer => false

/-- A ranking in progress, with what each peer's health check gave once it has ended. -/
structure Ranking where
  owner : RankingOwner
  checks : List (Option PeerHealth)

/-- Where a call is. The base connection has its post sent again while there are retries left. -/
inductive CallPoint where
  | initializes
  | proceeds
  | awaits
  | awaitsBase (post : SdkPost) (retries : Nat)
  | ended (result : RpcResult)

structure SdkCall where
  method : String
  params : String
  point : CallPoint
  posts : List SdkPost

/-- The public methods are those of the base class and make its requests. Where a post to the
base connection may follow, there is a unique id for it. -/
inductive SdkEvent where
  | requests (method params uuid : String)
  | calls (method params : String)
  | checked (r k : Nat) (probe : Probe)
  | ranked (r : Nat)
  | proceeds (i now : Nat) (uuid : String)
  | replies (i : Nat) (reply : FetchReply) (uuid : String)
  | ticks (interval : Nat)
  | destroys

/-- The intervals that still tick, how many were ever set, and the one that is remembered. -/
structure SdkWorld where
  connection : SolnetConnection
  calls : List SdkCall
  rankings : List Ranking
  intervals : List Nat
  created : Nat
  healthCheckInterval : Option Nat

def PeerDiscovery.setHealth (d : PeerDiscovery) (k : Nat) (inside : k < d.peers.length)
    (probe : Probe) : PeerDiscovery :=
  { d with
    healthMap := d.healthMap.set d.peers[k] (probe.health d.peers[k])
    known := by
      intro url member
      have member : url ∈
          (d.healthMap.setAll [(d.peers[k], probe.health d.peers[k])]).keys := member
      rcases OrderedMap.mem_keys_setAll_iff.mp member with here | earlier
      · rw [List.mem_singleton.mp here]
        exact List.getElem_mem inside
      · exact d.known url earlier }

namespace SdkWorld

def new (endpoint : String) (privacy : Bool) (peers : List String) : SdkWorld :=
  ⟨⟨⟨endpoint⟩, some endpoint, privacy, false, .new peers⟩, [], [], [], 0, none⟩

def setCall (w : SdkWorld) (i : Nat) (call : SdkCall) : SdkWorld :=
  { w with calls := w.calls.set i call }

def addCall (w : SdkWorld) (call : SdkCall) : SdkWorld := { w with calls := w.calls ++ [call] }

def setEndpoint (w : SdkWorld) (endpoint : Option String) : SdkWorld :=
  { w with connection := { w.connection with solnetEndpoint := endpoint } }

def best (w : SdkWorld) : Option String := w.connection.peerDiscovery.getBestPeer

def rankPeers (w : SdkWorld) (owner : RankingOwner) : SdkWorld :=
  { w with rankings :=
      w.rankings ++ [⟨owner, w.connection.peerDiscovery.peers.map fun _ => none⟩] }

/-- The call at its first post of the base connection. -/
def basePosted (w : SdkWorld) (uuid : String) (call : SdkCall) : SdkCall :=
  let post := w.connection.post uuid call.method call.params
  { call with point := .awaitsBase post 4, posts := call.posts ++ [post] }

/-- The `catch` of a call. -/
def catches (w : SdkWorld) (i : Nat) (uuid : String) (call : SdkCall) : SdkWorld :=
  if w.best ≠ w.connection.solnetEndpoint then
    (w.setEndpoint w.best).setCall i (w.basePosted uuid call)
  else w.setCall i { call with point := .ended .typeError }

/-- A call of `_rpcRequest` up to its first wait. -/
def begin (w : SdkWorld) (method params : String) : SdkWorld :=
  match validateRpcMethod method with
  | .error e => w.addCall ⟨method, params, .ended (.threw e), []⟩
  | .ok _ =>
    if w.connection.initialized then w.addCall ⟨method, params, .proceeds, []⟩
    else (w.addCall ⟨method, params, .initializes, []⟩).rankPeers (.request w.calls.length)

/-- A call once the connection is initialized, up to its post. -/
def attempt (hostOf : String → Option String) (w : SdkWorld) (i now : Nat) (uuid : String)
    (call : SdkCall) : SdkWorld :=
  match w.connection.attemptPost call.method call.params hostOf now with
  | none => w.catches i uuid call
  | some post => w.setCall i { call with point := .awaits, posts := call.posts ++ [post] }

def reply (w : SdkWorld) (i : Nat) (call : SdkCall) (reply : FetchReply) (uuid : String) :
    SdkWorld :=
  match reply.value with
  | some value => w.setCall i { call with point := .ended (.answered value) }
  | none => w.catches i uuid call

def baseReply (w : SdkWorld) (i : Nat) (call : SdkCall) (post : SdkPost) :
    Nat → FetchReply → SdkWorld
  | retries + 1, .responded 429 _ =>
    w.setCall i { call with point := .awaitsBase post retries, posts := call.posts ++ [post] }
  | _, reply => w.setCall i { call with point := .ended (.base reply.settles) }

/-- The rest of `ensureInitialized`. -/
def finishInit (w : SdkWorld) (i : Nat) (call : SdkCall) (results : List PeerHealth) : SdkWorld :=
  let ranked := (results.mergeSort fun a b => compareHealth a b ≤ 0).map PeerHealth.url
  { w.setCall i { call with point := .proceeds } with
    connection := { w.connection with
      solnetEndpoint := ranked.head?.or w.connection.solnetEndpoint
      initialized := true }
    intervals := w.intervals ++ [w.created]
    created := w.created + 1
    healthCheckInterval := some w.created }

/-- The rest of a health check round: the callback is called for each dead peer. -/
def sweep (w : SdkWorld) : SdkWorld :=
  if w.connection.peerDiscovery.healthMap.entries.any fun entry => !entry.2.alive then
    w.setEndpoint w.best
  else w

def advance (hostOf : String → Option String) (w : SdkWorld) : SdkEvent → Option SdkWorld
  | .requests method params uuid =>
    some (w.addCall (w.basePosted uuid ⟨method, params, .proceeds, []⟩))
  | .calls method params => some (w.begin method params)
  | .checked r k probe =>
    match w.rankings[r]? with
    | none => none
    | some ranking =>
      if inside : k < w.connection.peerDiscovery.peers.length then
        if ranking.checks[k]? = some none then
          some { w with
            connection := { w.connection with
              peerDiscovery := w.connection.peerDiscovery.setHealth k inside probe }
            rankings := w.rankings.set r { ranking with
              checks := ranking.checks.set k
                (some (probe.health w.connection.peerDiscovery.peers[k])) } }
        else none
      else none
  | .ranked r =>
    match w.rankings[r]? with
    | none => none
    | some ranking =>
      if ranking.checks.all Option.isSome then
        let w : SdkWorld := { w with rankings := w.rankings.eraseIdx r }
        match ranking.owner with
        | .timer => some w.sweep
        | .request i =>
          match w.calls[i]? with
          | some ⟨method, params, .initializes, posts⟩ =>
            some (w.finishInit i ⟨method, params, .initializes, posts⟩ ranking.checks.reduceOption)
          | _ => none
      else none
  | .proceeds i now uuid =>
    match w.calls[i]? with
    | some ⟨method, params, .proceeds, posts⟩ =>
      some (w.attempt hostOf i now uuid ⟨method, params, .proceeds, posts⟩)
    | _ => none
  | .replies i reply uuid =>
    match w.calls[i]? with
    | some ⟨method, params, .awaits, posts⟩ =>
      some (w.reply i ⟨method, params, .awaits, posts⟩ reply uuid)
    | some ⟨method, params, .awaitsBase post retries, posts⟩ =>
      some (w.baseReply i ⟨method, params, .awaitsBase post retries, posts⟩ post retries reply)
    | _ => none
  | .ticks interval => if interval ∈ w.intervals then some (w.rankPeers .timer) else none
  | .destroys => some { w with
      intervals := match w.healthCheckInterval with
        | none => w.intervals
        | some interval => w.intervals.erase interval }

def Step (hostOf : String → Option String) (w : SdkWorld) (event : SdkEvent) (w' : SdkWorld) :
    Prop :=
  w.advance hostOf event = some w'

/-- Where the events lead. -/
def follow (hostOf : String → Option String) (w : SdkWorld) (events : List SdkEvent) :
    Option SdkWorld :=
  events.foldlM (fun w event => w.advance hostOf event) w

/-- What a step can do. -/
inductive Took (hostOf : String → Option String) (w : SdkWorld) : SdkEvent → SdkWorld → Prop where
  | requests (method params uuid : String) : Took hostOf w (.requests method params uuid)
      (w.addCall (w.basePosted uuid ⟨method, params, .proceeds, []⟩))
  | calls (method params : String) : Took hostOf w (.calls method params) (w.begin method params)
  | checked {r k : Nat} {probe : Probe} {ranking : Ranking} (found : w.rankings[r]? = some ranking)
      (inside : k < w.connection.peerDiscovery.peers.length)
      (unended : ranking.checks[k]? = some none) : Took hostOf w (.checked r k probe) { w with
        connection := { w.connection with
          peerDiscovery := w.connection.peerDiscovery.setHealth k inside probe }
        rankings := w.rankings.set r { ranking with
          checks := ranking.checks.set k
            (some (probe.health w.connection.peerDiscovery.peers[k])) } }
  | swept {r : Nat} {ranking : Ranking} (found : w.rankings[r]? = some ranking)
      (owner : ranking.owner = .timer) (all : ranking.checks.all Option.isSome = true) :
      Took hostOf w (.ranked r) { w with rankings := w.rankings.eraseIdx r }.sweep
  | initialized {r i : Nat} {ranking : Ranking} {call : SdkCall}
      (found : w.rankings[r]? = some ranking) (owner : ranking.owner = .request i)
      (all : ranking.checks.all Option.isSome = true) (here : w.calls[i]? = some call)
      (point : call.point = .initializes) : Took hostOf w (.ranked r)
        ({ w with rankings := w.rankings.eraseIdx r }.finishInit i call ranking.checks.reduceOption)
  | proceeds {i now : Nat} {uuid : String} {call : SdkCall} (here : w.calls[i]? = some call)
      (point : call.point = .proceeds) :
      Took hostOf w (.proceeds i now uuid) (w.attempt hostOf i now uuid call)
  | replies {i : Nat} {reply : FetchReply} {uuid : String} {call : SdkCall}
      (here : w.calls[i]? = some call) (point : call.point = .awaits) :
      Took hostOf w (.replies i reply uuid) (w.reply i call reply uuid)
  | baseReplies {i retries : Nat} {reply : FetchReply} {uuid : String} {call : SdkCall}
      {post : SdkPost} (here : w.calls[i]? = some call)
      (point : call.point = .awaitsBase post retries) :
      Took hostOf w (.replies i reply uuid) (w.baseReply i call post retries reply)
  | ticks {interval : Nat} (live : interval ∈ w.intervals) :
      Took hostOf w (.ticks interval) (w.rankPeers .timer)
  | destroys (intervals : List Nat) : Took hostOf w .destroys { w with intervals }

variable {hostOf : String → Option String} {w w' : SdkWorld} {event : SdkEvent}
  {events : List SdkEvent} {i n : Nat}

theorem Step.took (step : w.Step hostOf event w') : w.Took hostOf event w' := by
  unfold Step at step
  cases event with
  | requests method params uuid =>
    obtain rfl := Option.some.inj step
    exact .requests method params uuid
  | calls method params =>
    obtain rfl := Option.some.inj step
    exact .calls method params
  | checked r k probe =>
    unfold advance at step
    dsimp only at step
    split at step
    · cases step
    · rename_i ranking found
      split at step
      · rename_i inside
        split at step
        · rename_i unended
          obtain rfl := Option.some.inj step
          exact .checked found inside unended
        · cases step
      · cases step
  | ranked r =>
    unfold advance at step
    dsimp only at step
    split at step
    · cases step
    · rename_i ranking found
      split at step
      · rename_i all
        split at step
        · rename_i owner
          obtain rfl := Option.some.inj step
          exact .swept found owner all
        · rename_i i owner
          split at step
          · rename_i here
            obtain rfl := Option.some.inj step
            exact .initialized found owner all here rfl
          · cases step
      · cases step
  | proceeds i now uuid =>
    unfold advance at step
    dsimp only at step
    split at step
    · rename_i here
      obtain rfl := Option.some.inj step
      exact .proceeds here rfl
    · cases step
  | replies i reply uuid =>
    unfold advance at step
    dsimp only at step
    split at step
    · rename_i here
      obtain rfl := Option.some.inj step
      exact .replies here rfl
    · rename_i here
      obtain rfl := Option.some.inj step
      exact .baseReplies here rfl
    · cases step
  | ticks interval =>
    unfold advance at step
    dsimp only at step
    split at step
    · rename_i live
      obtain rfl := Option.some.inj step
      exact .ticks live
    · cases step
  | destroys =>
    obtain rfl := Option.some.inj step
    exact .destroys _

theorem follow_run (followed : w.follow hostOf events = some w') :
    Run (Step hostOf) w events w' := by
  induction events generalizing w with
  | nil =>
    obtain rfl := Option.some.inj followed
    exact .nil w
  | cons event events ih =>
    obtain ⟨next, advanced, rest⟩ := Option.bind_eq_some_iff.mp followed
    exact .cons advanced (ih rest)

/-! A call that nothing overlaps. -/

variable {web : Web} {method params : String} {round : (peers : List String) → Round peers}
  {post : SdkPost} {posts : List SdkPost}

theorem setCall_inside {call call' : SdkCall} (here : w.calls[i]? = some call') :
    (w.setCall i call).calls[i]? = some call :=
  List.getElem?_set_self (List.getElem?_eq_some_iff.mp here).1

theorem setCall_setCall (w : SdkWorld) (i : Nat) (first second : SdkCall) :
    (w.setCall i first).setCall i second = w.setCall i second := by
  simp only [setCall, List.set_set]

/-- The posts of the base connection, of which the first is sent. -/
theorem base_alone (web : Web) (retries n : Nat)
    (here : w.calls[i]? = some ⟨method, params, .awaitsBase post retries, posts ++ [post]⟩) :
    let sent := Connection.callServer web post retries n
    ∃ events, Run (Step web.hostOf) w events
      (w.setCall i ⟨method, params, .ended (.base sent.2.settles), posts ++ sent.1⟩) := by
  induction retries generalizing w posts n with
  | zero =>
    refine ⟨[.replies i (web.fetch n post) web.uuid], .cons ?_ (.nil _)⟩
    simp only [Step, advance, here]
    rfl
  | succ retries ih =>
    have replies : w.Step web.hostOf (.replies i (web.fetch n post) web.uuid)
        (w.baseReply i ⟨method, params, .awaitsBase post (retries + 1), posts ++ [post]⟩ post
          (retries + 1) (web.fetch n post)) := by
      simp only [Step, advance, here]
    rw [Connection.callServer]
    split
    · rename_i text limited
      rw [limited] at replies
      let again : SdkCall := ⟨method, params, .awaitsBase post retries, posts ++ [post] ++ [post]⟩
      have there : (w.setCall i again).calls[i]? = some again := setCall_inside here
      obtain ⟨events, run⟩ := ih (n + 1) there
      rw [setCall_setCall, List.append_assoc] at run
      exact ⟨_ :: events, .cons replies run⟩
    · rename_i other
      have ends : w.baseReply i ⟨method, params, .awaitsBase post (retries + 1), posts ++ [post]⟩
          post (retries + 1) (web.fetch n post) =
          w.setCall i ⟨method, params, .ended (.base (web.fetch n post).settles),
            posts ++ [post]⟩ := by
        unfold baseReply
        split
        · rename_i limited
          exact absurd limited (other _)
        · rfl
      rw [ends] at replies
      exact ⟨_, .cons replies (.nil _)⟩

/-- The call is over, and with it the connection is as when the call is computed alone. -/
def Ends (w : SdkWorld) (i : Nat) (method params : String) (called : Called) : Prop :=
  w.connection = called.connection ∧
    w.calls[i]? = some ⟨method, params, .ended called.result, called.posts⟩

theorem catches_alone (web : Web) {point : CallPoint}
    (here : w.calls[i]? = some ⟨method, params, point, posts⟩) :
    ∃ events w', Run (Step web.hostOf) (w.catches i web.uuid ⟨method, params, point, posts⟩)
        events w' ∧ w'.Ends i method params (w.connection.caught web method params posts) := by
  unfold catches SolnetConnection.caught
  by_cases other : w.connection.peerDiscovery.getBestPeer ≠ w.connection.solnetEndpoint
  · rw [if_pos (show w.best ≠ _ from other)]
    dsimp only
    rw [if_pos other]
    let call := w.basePosted web.uuid ⟨method, params, point, posts⟩
    have there : ((w.setEndpoint w.best).setCall i call).calls[i]? = some call :=
      setCall_inside (w := w.setEndpoint w.best) here
    obtain ⟨events, run⟩ := base_alone web 4 posts.length there
    exact ⟨events, _, run, rfl, setCall_inside there⟩
  · rw [if_neg (show ¬ w.best ≠ _ from other)]
    dsimp only
    rw [if_neg other]
    exact ⟨[], _, .nil _, rfl, setCall_inside here⟩

theorem tried_alone (web : Web) (here : w.calls[i]? = some ⟨method, params, .proceeds, []⟩) :
    ∃ events w', Run (Step web.hostOf) w events w' ∧
      w'.Ends i method params (w.connection.tried web method params) := by
  have proceeds : w.Step web.hostOf (.proceeds i web.now web.uuid)
      (w.attempt web.hostOf i web.now web.uuid ⟨method, params, .proceeds, []⟩) := by
    simp only [Step, advance, here]
  unfold SolnetConnection.tried SolnetConnection.attempt
  unfold attempt at proceeds
  dsimp only at proceeds
  cases posted : w.connection.attemptPost method params web.hostOf web.now with
  | none =>
    rw [posted] at proceeds
    obtain ⟨events, w', run, ends⟩ := catches_alone web here
    exact ⟨_ :: events, w', .cons proceeds run, ends⟩
  | some post =>
    rw [posted] at proceeds
    let v := w.setCall i ⟨method, params, .awaits, [post]⟩
    have there : v.calls[i]? = some ⟨method, params, .awaits, [post]⟩ := setCall_inside here
    have replies : v.Step web.hostOf (.replies i (web.fetch 0 post) web.uuid)
        (v.reply i ⟨method, params, .awaits, [post]⟩ (web.fetch 0 post) web.uuid) := by
      simp only [Step, advance, there]
    unfold SdkWorld.reply at replies
    dsimp only
    cases answer : (web.fetch 0 post).value with
    | some value =>
      rw [answer] at replies
      exact ⟨_, _, .cons proceeds (.cons replies (.nil _)), rfl, setCall_inside there⟩
    | none =>
      rw [answer] at replies
      obtain ⟨events, w', run, ends⟩ := catches_alone web there
      exact ⟨_, w', .cons proceeds (.cons replies run), ends⟩

/-- A call on an initialized connection that nothing overlaps ends as one that is computed
alone, with the same posts. -/
theorem request_alone (web : Web) (method params : String)
    (round : (peers : List String) → Round peers) (w : SdkWorld)
    (initialized : w.connection.initialized = true) :
    ∃ events w', Run (Step web.hostOf) w (.calls method params :: events) w' ∧
      w'.Ends w.calls.length method params
        (w.connection.rpcRequest web method params round) := by
  have starts : w.Step web.hostOf (.calls method params) (w.begin method params) := rfl
  have last (call : SdkCall) : (w.addCall call).calls[w.calls.length]? = some call := by
    simp [addCall]
  cases valid : validateRpcMethod method with
  | error e =>
    rw [begin, valid] at starts
    rw [SolnetConnection.rpcRequest_refused valid]
    exact ⟨[], _, .cons starts (.nil _), rfl, last _⟩
  | ok _ =>
    rw [begin, valid] at starts
    dsimp only at starts
    rw [if_pos initialized] at starts
    rw [SolnetConnection.rpcRequest_valid valid,
      SolnetConnection.ensureInitialized_eq initialized]
    obtain ⟨events, w', run, ends⟩ := tried_alone web (last _)
    exact ⟨_, w', .cons starts run, ends⟩

/-- A connection that was made with the quicker one of two peers, and has it in use. -/
def twoPeers : SdkWorld :=
  let d := PeerDiscovery.new ["https://a", "https://b"]
  let answers (latencyMs : Int) : Probe := .answered latencyMs true (.object [])
  let d := (d.setHealth 0 (by decide) (answers 10)).setHealth 1 (by decide) (answers 20)
  ⟨⟨⟨"https://a"⟩, some "https://a", false, true, d⟩, [], [], [0], 1, some 0⟩

/-- The endpoint in use is the best peer and down, and the call ends with a `TypeError`. -/
theorem request_alone_down : ∃ events w',
    Run (Step SolnetConnection.down.hostOf) twoPeers (.calls "getSlot" "[]" :: events) w' ∧
      ∃ call, w'.calls[0]? = some call ∧ call.point = .ended .typeError := by
  obtain ⟨events, w', run, _, here⟩ := request_alone SolnetConnection.down "getSlot" "[]"
    SolnetConnection.allHealthy twoPeers rfl
  refine ⟨events, w', run, _, here, ?_⟩
  obtain ⟨posts, fails⟩ := SolnetConnection.tried_down twoPeers.connection
  have best : twoPeers.connection.peerDiscovery.getBestPeer =
    twoPeers.connection.solnetEndpoint := by decide
  rw [SolnetConnection.rpcRequest_valid getSlot_valid, SolnetConnection.ensureInitialized_eq rfl,
    fails, SolnetConnection.caught, if_neg (not_not_intro best)]

end SdkWorld

end Solnet.Sdk
