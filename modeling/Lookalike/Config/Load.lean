import Lookalike.Config.Decode
import Lookalike.Config.Normal
import Lookalike.Config.Validation
import Lookalike.Toml.Document

/-! # Loading configurations

A configuration file is a TOML document.  `Config.load` reads it, brings its words to canonical
spelling and refuses it unless it is valid. -/

namespace Lookalike

/-- The configuration of a document as it is written. -/
def Config.parse (document : String) : Except ConfigError Config :=
  match (Toml.read? document).bind (Config.ofJson? .ignored) with
  | some c => .ok c
  | none => .error .malformed

/-- The canonical form of the configuration of a file, of which nothing may be there. -/
def Config.load (file : Option String) : Except ConfigError Config :=
  match file with
  | none => .error .unreadable
  | some document => do
      let c ← Config.parse document
      c.normalize.validate
      pure c.normalize

end Lookalike
