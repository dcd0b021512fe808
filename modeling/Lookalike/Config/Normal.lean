import Lookalike.Config.Basic
import Lookalike.Text.Word

/-! # Canonical configurations

`Config.normalize` writes every word of a configuration small and without blanks around it, and
drops a blank key for the search engine.  Keys, codes and field names stay as they are. -/

namespace Lookalike

/-- The named attribute with its treatment spelled canonically. -/
def RuleAttributeConfig.normalize (a : RuleAttributeConfig) : RuleAttributeConfig :=
  { a with treatment := a.treatment.map Text.canonicalWord }

def TreatmentGroupConfig.normalize (g : TreatmentGroupConfig) : TreatmentGroupConfig :=
  { g with attributes := g.attributes.map (·.normalize) }

def RuleConfig.normalize (r : RuleConfig) : RuleConfig :=
  { r with
    checkedAttributes := r.checkedAttributes.map (·.normalize)
    treatmentGroups := r.treatmentGroups.map (·.normalize) }

/-- The attribute with its words spelled canonically. -/
def AttributeConfig.normalize (a : AttributeConfig) : AttributeConfig :=
  { a with
    kind := Text.canonicalWord a.kind
    defaultTreatment := Text.canonicalWord a.defaultTreatment }

/-- The settings without a key that is blank. -/
def EngineSettings.normalize (s : EngineSettings) : EngineSettings :=
  { s with apiKey := s.apiKey.filter fun key => !Text.isBlank key }

/-- The settings with the failure mode spelled canonically. -/
def Matching.normalize (m : Matching) : Matching :=
  { m with failureMode := Text.canonicalWord m.failureMode }

def Config.normalize (c : Config) : Config :=
  { c with
    backend := c.backend.normalize
    matching := c.matching.normalize
    attributes := c.attributes.map (·.normalize)
    rules := c.rules.map (·.normalize) }

end Lookalike
