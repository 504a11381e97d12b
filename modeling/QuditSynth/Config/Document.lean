import QuditSynth.Config
import QuditSynth.Document.Printer
import QuditSynth.Document.Reader
import QuditSynth.Register
import QuditSynth.Scalar.Double
import QuditSynth.Yaml.Number

namespace QuditSynth

/-! # Configurations in documents

A configuration is a record of the same fields in JSON and in YAML. Every field
may be left out.
-/

namespace Config

/-- The fields of a configuration, in the order in which they are written. -/
def fieldNames : List String :=
  ["tolerance", "max_layers", "restarts", "max_iterations", "learning_rate", "seed", "parallel",
    "family", "optimizer"]

/-- How the values of fields are read from a kind of document. -/
structure FieldReader (δ : Type) where
  real : δ → Option Float
  nat : Nat → δ → Option Nat
  bool : δ → Option Bool
  /-- One name out of several. -/
  name : δ → Option String

/-- A field that may be left out. -/
def field {δ α : Type} (read : δ → Option α) (default : α) : Option δ → Option α
  | none => some default
  | some value => read value

/-- A configuration from the values of its fields. -/
def ofFields? {δ : Type} (reader : FieldReader δ) : List (Option δ) → Option (Config Float)
  | [tolerance, maxLayers, restarts, maxIterations, learningRate, seed, parallel, family,
      optimizer] => do
      let standard : Config Float := Config.standard
      let size := reader.nat wordLimit
      return {
        tolerance := ← field reader.real standard.tolerance tolerance
        maxLayers := ← field size standard.maxLayers maxLayers
        restarts := ← field size standard.restarts restarts
        maxIterations := ← field size standard.maxIterations maxIterations
        learningRate := ← field reader.real standard.learningRate learningRate
        seed := ← field (fun value => (size value).map Nat.toUInt64) standard.seed seed
        parallel := ← field reader.bool standard.parallel parallel
        family := ← field (fun value => reader.name value >>= Family.ofName?) standard.family family
        optimizer := ← field (fun value => reader.name value >>= Optimizer.ofName?)
          standard.optimizer optimizer }
  | _ => none

def toDocument (config : Config Float) : Document :=
  .ofFields [("tolerance", .ofFloat config.tolerance), ("max_layers", .ofNat config.maxLayers),
    ("restarts", .ofNat config.restarts), ("max_iterations", .ofNat config.maxIterations),
    ("learning_rate", .ofFloat config.learningRate), ("seed", .ofNat config.seed.toNat),
    ("parallel", .bool config.parallel), ("family", .text config.family.text),
    ("optimizer", .text config.optimizer.text)]

/-- A name stands alone, or as the only field of a record, without a value. -/
def documentName : Document → Option String
  | .text name => some name
  | .record [(some name, .null)] => some name
  | _ => none

def documentReader : FieldReader Document :=
  ⟨Document.asFloat, Document.asNat, Document.asBool, documentName⟩

def ofDocument? (document : Document) : Option (Config Float) := do
  ofFields? documentReader (← document.fields fieldNames)

def yamlReader : FieldReader Yaml.Node :=
  ⟨Yaml.Node.asFloat, Yaml.Node.asNat, Yaml.Node.asBool, Yaml.Node.asName⟩

def ofNode? (node : Yaml.Node) : Option (Config Float) := do
  let entries ← node.entries
  ofFields? yamlReader (← fieldNames.mapM fun name => Document.valueOf name entries)

end Config
end QuditSynth
