import QuditSynth.Config.Document
import QuditSynth.Path

namespace QuditSynth

/-! # Configuration files -/

/-- What a configuration file is written in. -/
inductive FileFormat
  | json
  | yaml
deriving Repr, DecidableEq

/-- A file is in YAML unless its extension says otherwise. -/
def FileFormat.ofPath (path : String) : FileFormat :=
  if Path.hasExtension path "json" then .json else .yaml

namespace Config

/-- Reads the text of a configuration. -/
def parse? (format : FileFormat) (text : String) : Option (Config Float) :=
  match format with
  | .json => (Document.read text ofDocument? .ok).toOption
  | .yaml => do ofNode? (← Yaml.read text)

/-- A valid configuration from the path and the text of a file. -/
def ofFile (path text : String) : Except (ConfigError Float) (Config Float) := do
  match parse? (.ofPath path) text with
  | some config =>
      config.validate
      return config
  | none => throw .malformed

end Config
end QuditSynth
