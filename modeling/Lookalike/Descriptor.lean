import Lookalike.Clause

/-! # Query descriptors

A descriptor is one search: all its `must` clauses have to hold, its `should` clauses only raise the
score.  A marker tells the rule that it came from and its place among that rule's searches; a
projection limits the stored fields that come back. -/

namespace Lookalike

/-- The rule that a search came from and its place among the searches of that rule. -/
structure Marker where
  ruleCode : String
  variant : Nat
deriving DecidableEq

/-- The marker in one word, such as `R1#3`. -/
def Marker.label (m : Marker) : String := m.ruleCode ++ "#" ++ Nat.repr m.variant

/-- One search; an empty projection stands for the whole document. -/
structure Descriptor where
  must : List Clause := []
  should : List Clause := []
  marker : Option Marker := none
  sourceFields : List String := []

namespace Descriptor

instance : Inhabited Descriptor := ⟨{}⟩

def label (d : Descriptor) : Option String := d.marker.map Marker.label

/-- Whether the search has no clause at all. -/
def isEmpty (d : Descriptor) : Bool := d.must.isEmpty && d.should.isEmpty

def toJson (d : Descriptor) : Json :=
  .obj [
    ("must", .array (clausesToJson d.must)),
    ("should", .array (clausesToJson d.should)),
    ("marker", Json.nullable
      (fun m => .obj [("rule_code", .string m.ruleCode), ("variant", .nat m.variant)]) d.marker),
    ("source_fields", .strings d.sourceFields)]

end Descriptor

end Lookalike
