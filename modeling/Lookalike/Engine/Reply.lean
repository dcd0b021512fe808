import Lookalike.Backend
import Lookalike.Json.Writer

/-! # Replies of the search engine

The reply to a batch lists one response per search in the order of the batch.  `Reply.pages` accepts
a reply when no response reports an error and each has hits with a total; a hit is filed under the
identity key of its document, or else under its own key, and one that has neither is left out. -/

namespace Lookalike

/-- Why a reply cannot be used. -/
inductive ReplyError where
  | missingResponses
  | countMismatch (responses expected : Nat)
  | failedQuery (position : Nat) (reason : String)
  | missingHits (position : Nat)
  | missingTotal (position : Nat)
deriving DecidableEq

def ReplyError.message : ReplyError → String
  | missingResponses => "Search response is missing responses array."
  | countMismatch responses expected =>
      "Search response has " ++ Nat.repr responses ++ " entries for " ++ Nat.repr expected ++
        " queries."
  | failedQuery position reason => "Query " ++ Nat.repr position ++ " failed: " ++ reason
  | missingHits position => "Query " ++ Nat.repr position ++ " response is missing hits."
  | missingTotal position => "Query " ++ Nat.repr position ++ " response is missing hits.total."

namespace Reply

/-- The reason of an error: its own text, or all of it. -/
def errorReason (error : Json) : String :=
  ((error.member? "reason").bind Json.string?).getD error.text

/-- The total of some hits, which may stand inside an object. -/
def total? (hits : Json) : Option UInt64 :=
  (hits.member? "total").bind fun total =>
    ((total.member? "value").bind Json.word?).or total.word?

/-- The hit of a stored document, if it has an identity key. -/
def hit? (identityKeyField : String) (raw : Json) : Option ScoredHit :=
  let document := (raw.member? "_source").getD .null
  let own := (document.member? identityKeyField).bind Json.string?
  (own.or ((raw.member? "_id").bind Json.string?)).map fun identityKey =>
    { identityKey
      score := ((raw.member? "_score").bind Json.number?).getD .zero
      document }

/-- The page of the response at a position. -/
def page (identityKeyField : String) (position : Nat) (response : Json) :
    Except ReplyError SearchPage :=
  match response.member? "error" with
  | some error => .error (.failedQuery position (errorReason error))
  | none =>
      match response.member? "hits" with
      | none => .error (.missingHits position)
      | some hits =>
          match total? hits with
          | none => .error (.missingTotal position)
          | some total =>
              .ok {
                total
                maxScore := (hits.member? "max_score").bind Json.number?
                hits := (((hits.member? "hits").bind Json.items?).getD []).filterMap
                  (hit? identityKeyField) }

/-- The pages of responses whose first has a position. -/
def pagesFrom (identityKeyField : String) (position : Nat) :
    List Json → Except ReplyError (List SearchPage)
  | [] => .ok []
  | response :: rest => do
      let p ← page identityKeyField position response
      let ps ← pagesFrom identityKeyField (position + 1) rest
      pure (p :: ps)

/-- The pages of the reply to a number of searches. -/
def pages (reply : Json) (expected : Nat) (identityKeyField : String) :
    Except ReplyError (List SearchPage) :=
  match (reply.member? "responses").bind Json.items? with
  | none => .error .missingResponses
  | some responses =>
      if responses.length ≠ expected then .error (.countMismatch responses.length expected)
      else pagesFrom identityKeyField 0 responses

end Reply

end Lookalike
