import Lookalike.ResultSet

/-! # Reports of a sweep

A report lists the outcome of every rule: the identities that it matched, or the text of its failure.
-/

namespace Lookalike

/-- What came of one rule. -/
inductive RuleOutcome where
  | found (results : ResultSet)
  | failed (message : String)

/-- A rule and what came of it. -/
structure RuleReport where
  code : String
  priority : Int
  outcome : RuleOutcome

/-- The outcomes of rules, in the order in which they were evaluated. -/
structure DuplicateReport where
  rules : List RuleReport := []

namespace DuplicateReport

/-- The outcome of the first rule with a code. -/
def get? (r : DuplicateReport) (code : String) : Option RuleOutcome :=
  (r.rules.find? (·.code == code)).map (·.outcome)

/-- The matches of the first rule with a code, if it did not fail. -/
def found? (r : DuplicateReport) (code : String) : Option ResultSet :=
  match r.get? code with
  | some (.found results) => some results
  | _ => none

def codes (r : DuplicateReport) : List String := r.rules.map (·.code)

def size (r : DuplicateReport) : Nat := r.rules.length

end DuplicateReport

/-! ### Reports in JSON -/

namespace RuleOutcome

/-- Reads an outcome: an object that names its kind, or an array that starts with it. -/
def ofJson? (v : Json) : Option RuleOutcome := do
  let (status, rest) ← match v with
    | .object members => (members.lookup "status").map (·, Record.named members)
    | .array (status :: items) => (Record.ofJson? .refused 1 (.array items)).map (status, ·)
    | _ => none
  match ← status.string? with
  | "matches" => do
      let results ← rest.required 0 "results" ResultSet.ofJson?
      pure (found results)
  | "failed" => do
      let message ← rest.required 0 "message" Json.string?
      pure (failed message)
  | _ => none

def toJson : RuleOutcome → Json
  | found results => .obj [("status", .string "matches"), ("results", results.toJson)]
  | failed message => .obj [("status", .string "failed"), ("message", .string message)]

end RuleOutcome

namespace RuleReport

def ofJson? (v : Json) : Option RuleReport := do
  let r ← Record.ofJson? .refused 3 v
  let code ← r.required 0 "code" Json.string?
  let priority ← r.required 1 "priority" Json.signed32?
  let outcome ← r.required 2 "outcome" RuleOutcome.ofJson?
  pure { code, priority, outcome }

def toJson (r : RuleReport) : Json :=
  .obj [
    ("code", .string r.code),
    ("priority", .integer r.priority),
    ("outcome", r.outcome.toJson)]

end RuleReport

namespace DuplicateReport

def ofJson? (v : Json) : Option DuplicateReport := do
  let r ← Record.ofJson? .refused 1 v
  let rules ← r.required 0 "rules" (Json.list? RuleReport.ofJson?)
  pure { rules }

def toJson (r : DuplicateReport) : Json := .obj [("rules", .array (r.rules.map (·.toJson)))]

end DuplicateReport

end Lookalike
