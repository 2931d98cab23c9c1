import Handover.Config.Document
import Handover.Document.Yaml.Reader
import Handover.Document.Yaml.Writer

/-!
# Configuration files

Configurations are stored as YAML texts.  Loading only reads: whether the
parameters are usable is checked separately.
-/

namespace Handover.EngineConfig

open Document

/-- The configuration in a text. -/
def ofText (text : String) : Except (ConfigError Float) (EngineConfig Float) :=
  match (Yaml.read? text).bind ofFields? with
  | some config => .ok config
  | none => .error .malformed

/-- The configuration in a file, given its contents if it can be read. -/
def ofFile (contents : Option String) : Except (ConfigError Float) (EngineConfig Float) :=
  match contents with
  | some text => ofText text
  | none => .error .unreadable

/-- The text of a configuration, every field written out. -/
def toText (config : EngineConfig Float) : String :=
  Yaml.write config.encode

end Handover.EngineConfig
