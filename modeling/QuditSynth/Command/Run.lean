import QuditSynth.Command.Arguments
import QuditSynth.Command.Host
import QuditSynth.Command.Options
import QuditSynth.CompileError.Text
import QuditSynth.Config.File
import QuditSynth.Document.Circuit
import QuditSynth.Pipeline

namespace QuditSynth

/-! # Running commands

Commands report what they do line by line, and stop at the first failure.
-/

def natListText (values : List Nat) : String :=
  "[" ++ Text.join ", " (values.map toString) ++ "]"

/-- A text filled up with blanks from the left. -/
def padLeft (width : Nat) (text : String) : String := "".pushn ' ' (width - text.length) ++ text

/-- The message of a text that is no circuit. -/
def DocumentError.message : DocumentError → String
  | malformed => "Serialization error: not a valid document"
  | invalid error => "Serialization error: " ++ error.message

namespace Failure

def ofError : Error → Failure
  | .outOfRange => broken
  | error => ofMessage error.message

def ofCompileError : CompileError Float → Failure
  | .circuit .outOfRange => broken
  | error => reported error.chain

def ofConfigError (error : ConfigError Float) : Failure := ofMessage error.message

def ofDocumentError : DocumentError → Failure
  | .invalid .outOfRange => broken
  | error => ofMessage error.message

end Failure

namespace CompileOptions

/-- Options given with the command come before all else. -/
def override (options : CompileOptions) (config : Config Float) : Config Float :=
  { config with
    family := options.family.getD config.family
    tolerance := options.tolerance.getD config.tolerance
    maxLayers := options.maxLayers.getD config.maxLayers }

/-- Where the compiled circuit goes: beside the input, unless said otherwise. -/
def outputPath (options : CompileOptions) : String :=
  options.output.getD
    (Path.withFileName options.input (Path.stem options.input ++ "_compiled.json"))

end CompileOptions

namespace DecomposeOptions

/-- A pulse sequence and the operator it stands for. -/
structure Request where
  sequence : List (Instruction Float)
  operator : Operator Float

def request (options : DecomposeOptions) (dims : Nat × Nat) : Except Failure Request :=
  let compiled {α : Type} : Except (CompileError Float) α → Except Failure α :=
    Except.mapError Failure.ofCompileError
  let { angle, phase, level, .. } := options
  match options.pulses with
  | .crot => do
      let crot ← compiled (Crot.ofDims dims)
      return {
        sequence := ← compiled (crot.sequence level 0 1 angle phase)
        operator := ← compiled (crot.operator level 0 1 angle phase) }
  | .zcrot => do
      let crot ← compiled (Crot.ofDims dims)
      return {
        sequence := ← compiled (crot.phaseSequence level angle)
        operator := ← compiled (crot.phaseOperator level angle) }
  | .pswap => do
      let pswap ← compiled (Pswap.ofDims dims)
      if wordLimit ≤ level + 1 then throw (.ofMessage s!"Level {level} has no level above it")
      return {
        sequence := ← compiled (pswap.sequence level (level + 1) angle phase)
        operator := ← compiled (pswap.operator level (level + 1) angle phase) }
  | .ms => do
      let ms ← compiled (Ms.ofDims dims)
      return {
        sequence := Ms.sequence angle
        operator := ← (ms.operator angle).mapError Failure.ofError }

/-- How far a pulse sequence may be from the operator it stands for. -/
def deviationLimit : Float := 1e-9

def Request.distance (request : Request) (dims : Nat × Nat) : Except Error Float := do
  let circuit ← Circuit.ofDims "decompose" [dims.1, dims.2]
  let circuit ← circuit.withInstructions request.sequence
  (← circuit.operator).distance request.operator

end DecomposeOptions

namespace Command

variable {m : Type → Type} [Monad m]

def say (host : Host m) (line : String) : ExceptT Failure m Unit := host.say line

/-- The configuration from a file and the environment. -/
def loadConfig (host : Host m) (path : Option String) :
    ExceptT (ConfigError Float) m (Config Float) := do
  let config ← match path with
    | none => pure Config.standard
    | some path =>
        match ← host.read path with
        | .ok text => ExceptT.mk (pure (Config.ofFile path text))
        | .error error => throw (.unreadable (path ++ ": " ++ error.message))
  let settings ← ConfigField.all.filterMapM fun field => do
    return (← host.lookup field.variableName).map (field.variableName, ·)
  let config := config.overrideAll settings
  ExceptT.mk (pure config.validate)
  return config

def loadCircuit (host : Host m) (path : String) : ExceptT Failure m (Circuit Float) := do
  if !(← host.contains path) then throw (.ofMessage ("File not found: " ++ path))
  let ending := (Path.extension? path).getD ""
  if ending ≠ "" ∧ !Path.hasExtension path "json" then
    throw (.ofMessage s!"Unsupported circuit format '.{ending}' (expected JSON)")
  match ← host.read path with
  | .error error => throw (.reported ["Failed to read file: " ++ path, error.message])
  | .ok text =>
      match Circuit.read text with
      | .ok circuit => return circuit
      | .error error =>
          throw ((Failure.ofDocumentError error).during ("Failed to parse circuit: " ++ path))

def runCompile (host : Host m) (options : CompileOptions) : ExceptT Failure m Unit := do
  let loaded ← (loadConfig host options.config).adapt fun error =>
    (Failure.ofConfigError error).during "Failed to load synthesis configuration"
  let config := options.override loaded
  ExceptT.mk (pure (config.validate.mapError Failure.ofConfigError))
  say host s!"→ Compiling {options.input} with {config.family.text} entanglers"
  let circuit ← loadCircuit host options.input
  let dims := natListText circuit.dims
  say host (s!"  Loaded: {circuit.register.size} qudits (dims {dims}), " ++
    s!"{circuit.instructions.length} instructions")
  let pipeline := Pipeline.standard { config } true
  let names := Text.join ", " pipeline.passNames
  say host s!"  Running {pipeline.passes.length} passes: {names}"
  let compiled ← ExceptT.mk (pure ((pipeline.run circuit).mapError Failure.ofCompileError))
  say host "✓ Compilation complete"
  say host (s!"  Result: {compiled.instructions.length} instructions, " ++
    s!"{compiled.multiQuditCount} two-qudit")
  if !compiled.hasMeasurement then
    let distance ← ExceptT.mk (pure ((compiled.distance circuit).mapError Failure.ofError))
    say host ("  Distance to input: " ++ scientificText 3 distance)
  let path := options.outputPath
  match ← host.write path compiled.write with
  | .ok () => say host ("  Output: " ++ path)
  | .error error => throw (.reported ["Failed to write file: " ++ path, error.message])

def runDecompose (host : Host m) (options : DecomposeOptions) : ExceptT Failure m Unit := do
  let dims ← ExceptT.mk (pure ((readDims options.dims).mapError fun error => .reported error.causes))
  let request ← ExceptT.mk (pure (options.request dims))
  let angle := plainStyle.text options.angle
  let phase := plainStyle.text options.phase
  say host (s!"→ {options.pulses.title} on dims ({dims.1}, {dims.2}): " ++
    s!"θ={angle}, φ={phase}, level {options.level}")
  for (instruction, position) in request.sequence.zipIdx do
    say host ("  " ++ padLeft 2 (toString position) ++ "  " ++ instruction.text)
  let distance ← ExceptT.mk (pure ((request.distance dims).mapError Failure.ofError))
  if DecomposeOptions.deviationLimit < distance then
    let text := scientificText 3 distance
    throw (.ofMessage s!"Sequence deviates from its closed form (distance {text})")
  let text := scientificText 1 distance
  say host s!"✓ Sequence matches closed form (distance {text})"

/-- The version of the program. -/
def versionText : String := "0.3.0"

/-- The name and the version of the program. -/
def versionLine : String := "arvak-qudit " ++ versionText

def runVersion (host : Host m) : ExceptT Failure m Unit := do
  say host ("Arvak Qudit v" ++ versionText ++ " - native gate synthesis for qudit processors")
  say host ""
  say host "Components:"
  say host "  arvak-qudit-ir       Qudit circuits, gates and unitaries"
  say host "  arvak-qudit-compile  Generators, variational synthesis and passes"
  say host "  arvak-qudit-cli      Command-line interface"
  say host ""
  say host "Repository: https://github.com/hiq-lab/arvak"
  say host "License:    Apache-2.0"

def run (host : Host m) : Command → ExceptT Failure m Unit
  | .compile options => runCompile host options
  | .decompose options => runDecompose host options
  | .version => runVersion host

/-- How a program ends. -/
inductive Outcome
  | done
  | failed (failure : Failure)
  | misused
deriving Repr, DecidableEq

def Outcome.code : Outcome → UInt32
  | done => 0
  | failed (.reported _) => 1
  | misused => 2
  | failed .broken => 101

/-- How the program is to be used. -/
def usage : List String :=
  ["Usage: arvak-qudit [-v] <compile|decompose|version> [options]", "",
    "  compile    -i FILE [-o FILE] [-c FILE] [--family NAME] [--tolerance X] [--max-layers N]",
    "  decompose  -g crot|zcrot|pswap|ms -d D1,D2 -a ANGLE [-p PHASE] [-l LEVEL]",
    "  version"]

/-- Runs the program on its arguments. -/
def execute (host : Host m) (arguments : List String) : m Outcome := do
  match ofArguments arguments with
  | .error .misuse => return .misused
  | .error .help =>
      usage.forM host.say
      return .done
  | .error .version =>
      host.say versionLine
      return .done
  | .ok command =>
      match ← (run host command).run with
      | .ok () => return .done
      | .error failure => return .failed failure

end Command
end QuditSynth
