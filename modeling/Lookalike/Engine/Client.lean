import Lookalike.Config.Basic
import Lookalike.Engine.Headers
import Lookalike.Engine.Query
import Lookalike.Engine.Reply
import Lookalike.Json.Reader

/-! # Client of the search engine

The client sends a batch as one request over a transport and reads the pages of the reply.  A batch
without searches is answered without a request.  A status from 400 to 599 and a body that is not JSON
are failures of the transport, which has its own words for them. -/

namespace Lookalike

/-- A request over the network. -/
structure HttpRequest where
  method : String
  url : String
  headers : List (String × String)
  body : String
deriving DecidableEq

/-- What came back for a request, and what the transport says of it if it is refused. -/
structure HttpReply where
  status : Nat
  body : String
  refusal : String

/-- What sends requests. -/
structure Transport (σ : Type) where
  send : HttpRequest → StateM σ (Except TransportError HttpReply)

/-- A client of the search engine. -/
structure SearchClient where
  url : String
  index : String
  identityKeyField : String
  headers : KeyMap String

namespace SearchClient

/-- The address for batches below that of the search engine. -/
def batchUrl (url : String) : String :=
  String.ofList (Text.dropEnd (· == '/') url.toList) ++ "/_msearch"

def ofSettings (s : EngineSettings) (identityKeyField : String) :
    Except ClientError SearchClient := do
  let headers ← Header.all s.apiKey s.defaultHeaders
  pure { url := batchUrl s.url, index := s.index, identityKeyField, headers }

/-- The request for a window of a batch. -/
def request (c : SearchClient) (ds : List Descriptor) (w : Window) : HttpRequest where
  method := "POST"
  url := c.url
  headers := c.headers.toList ++ [("content-type", "application/x-ndjson")]
  body := batchBody c.index ds w c.identityKeyField

/-- The JSON value of a reply. -/
def replyJson (r : HttpReply) : Except TransportError Json :=
  if 400 ≤ r.status ∧ r.status < 600 then .error (.failed r.refusal false)
  else
    match Json.read? r.body with
    | some v => .ok v
    | none => .error (.failed r.refusal false)

/-- The pages of what came back for a number of searches. -/
def pages (c : SearchClient) (expected : Nat) (answer : Except TransportError HttpReply) :
    Except ClientError (List SearchPage) := do
  let v ← (answer >>= replyJson).mapError ClientError.transport
  (Reply.pages v expected c.identityKeyField).mapError fun e => .invalidResponse e.message

variable {σ : Type}

def search (c : SearchClient) (transport : Transport σ) (ds : List Descriptor) (w : Window) :
    StateM σ (Except ClientError (List SearchPage)) :=
  if ds.isEmpty then pure (.ok [])
  else do
    let answer ← transport.send (c.request ds w)
    pure (c.pages ds.length answer)

/-- The client as a search backend. -/
def backend (c : SearchClient) (transport : Transport σ) : SearchBackend σ where
  search ds w := do
    let result ← c.search transport ds w
    pure (result.mapError ClientError.toBackend)

end SearchClient

end Lookalike
