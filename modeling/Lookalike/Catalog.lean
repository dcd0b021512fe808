import Lookalike.Attribute
import Lookalike.Config.Basic

/-! # Catalogs of attributes

A catalog says which stored fields an attribute stands for, of which kind it is and how it is
compared unless a rule says otherwise.  A `CatalogTable` is a catalog with an entry per attribute; an
attribute without one, or without fields, stands for the field of its own name, is plain and is
compared strictly. -/

namespace Lookalike

/-- What is known of every attribute by its key. -/
structure AttributeCatalog where
  outputKeys : String → List String
  kind : String → FieldKind
  defaultTreatment : String → Treatment

/-- What a table knows of one attribute. -/
structure CatalogEntry where
  outputKeys : List String
  kind : FieldKind
  defaultTreatment : Treatment
deriving DecidableEq

/-- The entry of some fields, of which repeated ones are dropped. -/
def CatalogEntry.ofKeys (keys : List String) (kind : FieldKind) (treatment : Treatment) :
    CatalogEntry where
  outputKeys := keys.foldl (fun kept key => if kept.contains key then kept else kept ++ [key]) []
  kind := kind
  defaultTreatment := treatment

/-- A catalog with an entry per attribute. -/
structure CatalogTable where
  entries : KeyMap CatalogEntry

namespace CatalogTable

def empty : CatalogTable := ⟨∅⟩

instance : Inhabited CatalogTable := ⟨empty⟩

/-- The table with an entry in place of any earlier one for its key. -/
def insert (t : CatalogTable) (key : String) (entry : CatalogEntry) : CatalogTable :=
  ⟨t.entries.insert key entry⟩

def entry? (t : CatalogTable) (key : String) : Option CatalogEntry := t.entries.get? key

def catalog (t : CatalogTable) : AttributeCatalog where
  outputKeys key :=
    match t.entry? key with
    | some entry => if entry.outputKeys.isEmpty then [key] else entry.outputKeys
    | none => [key]
  kind key := ((t.entry? key).map (·.kind)).getD .plain
  defaultTreatment key := ((t.entry? key).map (·.defaultTreatment)).getD .strict

def entryOfConfig (a : AttributeConfig) : Except RuleError CatalogEntry := do
  let kind ← FieldKind.parse a.kind
  let treatment ← Treatment.parse a.defaultTreatment
  pure (.ofKeys (a.outputKeys.map Text.trim) kind treatment)

/-- The table of configured attributes; of several with one key the last counts. -/
def ofConfig (attributes : List AttributeConfig) : Except RuleError CatalogTable :=
  attributes.foldlM (fun t a => do pure (t.insert a.key (← entryOfConfig a))) empty

/-- The attributes of a person: names, birth date and e-mail address. -/
def person : CatalogTable :=
  empty
    |>.insert "familyName" (.ofKeys ["familyName"] .familyName .strict)
    |>.insert "firstName" (.ofKeys ["firstName"] .firstName .approximated)
    |>.insert "birthDate" (.ofKeys ["birthDate"] .plain .strict)
    |>.insert "email" (.ofKeys ["email"] .plain .strict)

end CatalogTable

end Lookalike
