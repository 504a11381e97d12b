import QuditSynth.Family
import QuditSynth.Scalar

namespace QuditSynth

/-! # Search configuration -/

inductive ConfigError (R : Type)
  | unreadable (reason : String)
  /-- A file that is not written in its format. -/
  | malformed
  | unknownFamily (name : String)
  | unknownOptimizer (name : String)
  | toleranceNotFinite (tolerance : R)
  | noLayers
  | noRestarts
  | noIterations
  | learningRateNotPositive (learningRate : R)
deriving Repr, DecidableEq

structure Config (R : Type) where
  /-- The distance at which a search is content. -/
  tolerance : R
  maxLayers : Nat
  /-- How many starting points are tried for each number of layers. -/
  restarts : Nat
  /-- How many steps the minimizer takes from each starting point. -/
  maxIterations : Nat
  learningRate : R
  seed : UInt64
  /-- Whether restarts may run side by side. The outcome does not depend on it. -/
  parallel : Bool
  family : Family
  optimizer : Optimizer
deriving Repr, DecidableEq

namespace Config

variable {R : Type} [Scalar R]

def standard : Config R where
  tolerance := 1e-3
  maxLayers := 4
  restarts := 4
  maxIterations := 600
  learningRate := 0.08
  seed := 0x5eed
  parallel := true
  family := .ms
  optimizer := .adam

def validate (config : Config R) : Except (ConfigError R) Unit :=
  if !Scalar.isFinite config.tolerance then .error (.toleranceNotFinite config.tolerance)
  else if config.maxLayers = 0 then .error .noLayers
  else if config.restarts = 0 then .error .noRestarts
  else if config.maxIterations = 0 then .error .noIterations
  else if Scalar.isFinite config.learningRate && decide (0 < config.learningRate) then .ok ()
  else .error (.learningRateNotPositive config.learningRate)

end Config

/-- Reads the name of a family, blanks and case aside. -/
def Family.parse {R : Type} (text : String) : Except (ConfigError R) Family :=
  let name := Text.lowerCase (Text.trim text)
  match ofName? name with
  | some family => .ok family
  | none => .error (.unknownFamily name)

/-- Reads the name of an optimizer, blanks and case aside; a hyphen counts as an underscore. -/
def Optimizer.parse {R : Type} (text : String) : Except (ConfigError R) Optimizer :=
  let name := (Text.lowerCase (Text.trim text)).map fun c => if c = '-' then '_' else c
  match ofName? name with
  | some optimizer => .ok optimizer
  | none => .error (.unknownOptimizer name)

end QuditSynth
