import Lookalike.Text.Word

/-! # Attributes, treatments and kinds of fields

An attribute of an identity is compared by one of four treatments: its values are alike, nearly
alike or unlike, or it has none.  Names of persons have kinds of their own, since they are compared
in a normal form.  A word that is neither treatment nor kind is reported as it was written. -/

namespace Lookalike

/-- Why a rule or a word of one cannot be used. -/
inductive RuleError where
  | subsetSize (k n : Nat)
  | unknownTreatment (word : String)
  | unknownFieldKind (word : String)
  | invalidRule (code fault : String)
deriving DecidableEq

def RuleError.message : RuleError → String
  | subsetSize k n =>
      "Cannot choose " ++ Nat.repr k ++ " elements out of " ++ Nat.repr n ++ "."
  | unknownTreatment word => "Unknown treatment '" ++ word ++ "'."
  | unknownFieldKind word => "Unknown field kind '" ++ word ++ "'."
  | invalidRule code fault => "Rule " ++ code ++ " is invalid: " ++ fault

/-! ### Treatments -/

/-- How the values of an attribute are compared. -/
inductive Treatment where
  | strict
  | approximated
  | different
  | absent
deriving DecidableEq

namespace Treatment

def word : Treatment → String
  | strict => "strict"
  | approximated => "approximated"
  | different => "different"
  | absent => "absent"

/-- The treatment of a word in any case, with any blanks around it. -/
def parse (raw : String) : Except RuleError Treatment :=
  match Text.canonicalWord raw with
  | "strict" => .ok strict
  | "approximated" => .ok approximated
  | "different" => .ok different
  | "absent" => .ok absent
  | _ => .error (.unknownTreatment raw)

/-- The symbol for a treatment in stored data. -/
def symbol : Treatment → String
  | strict => "STRICT"
  | approximated => "APPROXIMATED"
  | different => "DIFFERENT"
  | absent => "ABSENT"

/-- The treatment of a symbol, which is spelled in one way only. -/
def ofSymbol? : String → Option Treatment
  | "STRICT" => some strict
  | "APPROXIMATED" => some approximated
  | "DIFFERENT" => some different
  | "ABSENT" => some absent
  | _ => none

end Treatment

/-! ### Kinds of fields -/

/-- What the values of an attribute are. -/
inductive FieldKind where
  | plain
  | familyName
  | firstName
deriving DecidableEq

namespace FieldKind

def word : FieldKind → String
  | plain => "plain"
  | familyName => "family_name"
  | firstName => "first_name"

/-- The kind of a word in any case, with any blanks around it. -/
def parse (raw : String) : Except RuleError FieldKind :=
  match Text.canonicalWord raw with
  | "plain" => .ok plain
  | "family_name" => .ok familyName
  | "first_name" => .ok firstName
  | _ => .error (.unknownFieldKind raw)

def isName : FieldKind → Bool
  | plain => false
  | familyName => true
  | firstName => true

end FieldKind

/-- An attribute that a rule names, with a treatment or the one that is usual for it. -/
structure AttributeKey where
  name : String
  treatment : Option Treatment := none
deriving DecidableEq

end Lookalike
