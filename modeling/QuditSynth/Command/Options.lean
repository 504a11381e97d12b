import QuditSynth.Config.Overrides
import QuditSynth.Scalar.Double
import QuditSynth.Text.Split

namespace QuditSynth

/-! # Options of the commands -/

/-- The operators that `decompose` writes as pulses. -/
inductive Pulses
  | crot
  | zcrot
  | pswap
  | ms
deriving Repr, DecidableEq

namespace Pulses

def ofName? : String → Option Pulses
  | "crot" => some crot
  | "zcrot" => some zcrot
  | "pswap" => some pswap
  | "ms" => some ms
  | _ => none

def title : Pulses → String
  | crot => "Crot"
  | zcrot => "Zcrot"
  | pswap => "Pswap"
  | ms => "Ms"

end Pulses

structure CompileOptions where
  input : String
  output : Option String
  /-- The path of a configuration file. -/
  config : Option String
  family : Option Family
  tolerance : Option Float
  maxLayers : Option Nat

structure DecomposeOptions where
  pulses : Pulses
  /-- Two dimensions, as they were given. -/
  dims : String
  angle : Float
  phase : Float
  level : Nat

inductive Command
  | compile (options : CompileOptions)
  | decompose (options : DecomposeOptions)
  | version

/-! ## Pairs of dimensions -/

/-- Why a text is not a pair of dimensions. -/
inductive DimsError
  | notAPair (text : String)
  | notANumber (part : String) (fault : Numeral.Fault)
  | tooSmall (dimension : Nat)
deriving Repr, DecidableEq

/-- The message, and the cause behind it if there is one. -/
def DimsError.causes : DimsError → List String
  | notAPair text => [s!"Expected two comma-separated dimensions, got '{text}'"]
  | notANumber part fault => [s!"Invalid dimension '{part}'", fault.message]
  | tooSmall dimension => [s!"Qudit dimension must be at least 2, got {dimension}"]

/-- A dimension, which is at least two. -/
def readDim (part : String) : Except DimsError Nat :=
  match Numeral.readNat wordLimit part with
  | .error fault => .error (.notANumber part fault)
  | .ok dimension => if dimension < 2 then .error (.tooSmall dimension) else .ok dimension

/-- Two dimensions with a comma between them, blanks around each aside. -/
def readDims (text : String) : Except DimsError (Nat × Nat) :=
  match (Text.split ',' text).map Text.trim with
  | [first, second] => do return (← readDim first, ← readDim second)
  | _ => .error (.notAPair text)

end QuditSynth
