import QuditSynth.CompileError
import QuditSynth.Decimal.Text
import QuditSynth.Instruction.Text

namespace QuditSynth

/-! # Wording of compilation errors -/

def ConfigError.message : ConfigError Float → String
  | unreadable reason => "IO error: " ++ reason
  | malformed => "Parse error: not a valid configuration"
  | unknownFamily name =>
      s!"Parse error: unknown native family '{name}' (expected ms, crot or pswap)"
  | unknownOptimizer name => s!"Parse error: unknown optimizer '{name}'"
  | toleranceNotFinite tolerance =>
      "Validation error: tolerance must be finite, got " ++ plainStyle.text tolerance
  | noLayers => "Validation error: max_layers must be greater than 0"
  | noRestarts => "Validation error: restarts must be greater than 0"
  | noIterations => "Validation error: max_iterations must be greater than 0"
  | learningRateNotPositive rate =>
      "Validation error: learning_rate must be positive, got " ++ plainStyle.text rate

namespace CompileError

private def pairText (pair : Nat × Nat) : String := s!"({pair.1}, {pair.2})"

def message : CompileError Float → String
  | circuit error => "IR error: " ++ error.message
  | unsupportedLevels generator levels dims =>
      s!"Generator '{generator}' cannot use levels {pairText levels} on dimensions {pairText dims}"
  | unreachable best layers tolerance _ =>
      s!"Synthesis unreachable: best distance {scientificText 3 best} after {layers} layers " ++
        s!"exceeds tolerance {scientificText 3 tolerance}"
  | unsupportedInstruction name quditCount =>
      s!"Unsupported instruction '{name}' on {quditCount} qudits"
  | notNative instruction => s!"Gate '{instruction.text}' not in native gate set"
  | invalidConfiguration reason => "Invalid pass configuration: " ++ reason
  | config error => "Configuration error: " ++ error.message

/-- The message, and the messages of the errors behind it. -/
def chain (error : CompileError Float) : List String :=
  error.message :: match error with
    | circuit cause => [cause.message]
    | config cause => [cause.message]
    | _ => []

end CompileError
end QuditSynth
