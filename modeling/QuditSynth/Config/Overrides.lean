import QuditSynth.Config
import QuditSynth.Decimal.Reading
import QuditSynth.Register

namespace QuditSynth

/-! # Overrides from the environment

Each field of a configuration can be set by a variable of its own. A value that
cannot be read changes nothing.
-/

/-- Reads a yes or no. -/
def readBool (text : String) : Option Bool :=
  match Text.lowerCase text with
  | "1" | "true" | "yes" | "on" => some true
  | "0" | "false" | "no" | "off" => some false
  | _ => none

/-- A whole number of 64 bits, if the text is one. -/
def readSize (text : String) : Option Nat := (Numeral.readNat wordLimit text).toOption

def readFamily (text : String) : Option Family := (Family.parse (R := Float) text).toOption

def readOptimizer (text : String) : Option Optimizer := (Optimizer.parse (R := Float) text).toOption

/-- A field of a configuration. -/
inductive ConfigField
  | tolerance
  | maxLayers
  | restarts
  | maxIterations
  | learningRate
  | seed
  | parallel
  | family
  | optimizer
deriving Repr, DecidableEq

namespace ConfigField

def all : List ConfigField :=
  [tolerance, maxLayers, restarts, maxIterations, learningRate, seed, parallel, family, optimizer]

/-- The variable that sets a field. -/
def variableName : ConfigField → String
  | tolerance => "ARVAK_QUDIT_TOLERANCE"
  | maxLayers => "ARVAK_QUDIT_MAX_LAYERS"
  | restarts => "ARVAK_QUDIT_RESTARTS"
  | maxIterations => "ARVAK_QUDIT_MAX_ITERATIONS"
  | learningRate => "ARVAK_QUDIT_LEARNING_RATE"
  | seed => "ARVAK_QUDIT_SEED"
  | parallel => "ARVAK_QUDIT_PARALLEL"
  | family => "ARVAK_QUDIT_FAMILY"
  | optimizer => "ARVAK_QUDIT_OPTIMIZER"

def ofVariable? (name : String) : Option ConfigField := all.find? (·.variableName = name)

end ConfigField

namespace Config

/-- Sets a field, if its value can be read. -/
def setField (config : Config Float) (value : String) : ConfigField → Config Float
  | .tolerance => { config with tolerance := (Numeral.readFloat value).getD config.tolerance }
  | .maxLayers => { config with maxLayers := (readSize value).getD config.maxLayers }
  | .restarts => { config with restarts := (readSize value).getD config.restarts }
  | .maxIterations => { config with maxIterations := (readSize value).getD config.maxIterations }
  | .learningRate =>
      { config with learningRate := (Numeral.readFloat value).getD config.learningRate }
  | .seed => { config with seed := ((readSize value).map Nat.toUInt64).getD config.seed }
  | .parallel => { config with parallel := (readBool value).getD config.parallel }
  | .family => { config with family := (readFamily value).getD config.family }
  | .optimizer => { config with optimizer := (readOptimizer value).getD config.optimizer }

/-- Applies one variable, blanks around its value aside. Other variables have no effect. -/
def override (config : Config Float) (setting : String × String) : Config Float :=
  match ConfigField.ofVariable? setting.1 with
  | some field => config.setField (Text.trim setting.2) field
  | none => config

/-- Applies variables in order. -/
def overrideAll (config : Config Float) (settings : List (String × String)) : Config Float :=
  settings.foldl override config

end Config
end QuditSynth
