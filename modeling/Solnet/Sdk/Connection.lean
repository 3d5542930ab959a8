import Solnet.Daemon.Json
import Solnet.Sdk.PrivacyMode

/-! The connection of web3.js that the SDK extends. Its constructor gives each connection a
request of its own, which posts to the endpoint that the connection was made with. Its waits
and headers are left out. -/
namespace Solnet.Sdk
open Solnet.Daemon

inductive RequestBody where
  | plain (text : String)
  | onion (request : OnionRequest)

/-- A post with its `Host` header, if it sets one. -/
structure SdkPost where
  url : String
  host : Option String
  body : RequestBody

/-- The text of a response is JSON, or it is empty, or it is neither or cannot be read. -/
inductive ReplyText where
  | json (data : Value)
  | empty
  | unreadable

inductive FetchReply where
  | rejected
  | responded (status : Nat) (text : ReplyText)

/-- What the SDK runs on: the host of a URL, unless it is none, the reading of the clock, the
unique id of a base request, and for each post of a request the answer to it. -/
structure Web where
  hostOf : String → Option String
  now : Nat
  uuid : String
  fetch : Nat → SdkPost → FetchReply

/-- What a request of the base connection settles to. A response without text is undefined. -/
inductive BaseResult where
  | resolved (response : Option Value)
  | rejected

/-- The `ok` of a response. -/
def succeeds (status : Nat) : Prop := 200 ≤ status ∧ status < 300

instance (status : Nat) : Decidable (succeeds status) := inferInstanceAs (Decidable (_ ∧ _))

def FetchReply.settles : FetchReply → BaseResult
  | rejected | responded _ .unreadable => .rejected
  | responded status .empty => if succeeds status then .resolved none else .rejected
  | responded status (.json data) => if succeeds status then .resolved (some data) else .rejected

/-- `JSON.stringify` of the request that jayson generates. No method has a character to escape. -/
def baseRequestText (uuid method params : String) : String :=
  "\x7b\"method\":\"" ++ method ++ "\",\"jsonrpc\":\"2.0\",\"params\":" ++ params ++ ",\"id\":\"" ++
    uuid ++ "\"\x7d"

structure Connection where
  rpcEndpoint : String

namespace Connection

def post (c : Connection) (uuid method params : String) : SdkPost :=
  ⟨c.rpcEndpoint, none, .plain (baseRequestText uuid method params)⟩

/-- The post is sent again after each reply with status 429, while there are retries left. -/
def callServer (web : Web) (post : SdkPost) : Nat → Nat → List SdkPost × FetchReply
  | 0, n => ([post], web.fetch n post)
  | retries + 1, n =>
    match web.fetch n post with
    | .responded 429 _ =>
      let (posts, reply) := callServer web post retries (n + 1)
      (post :: posts, reply)
    | reply => ([post], reply)

/-- The request that the constructor makes, whose first post has the number `n`. -/
def rpcRequest (web : Web) (method params : String) (n : Nat) (c : Connection) :
    List SdkPost × BaseResult :=
  let (posts, reply) := callServer web (c.post web.uuid method params) 4 n
  (posts, reply.settles)

end Connection

end Solnet.Sdk
