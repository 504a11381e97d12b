import QuditSynth.Resynthesis.Window
import QuditSynth.Synthesis.Decomposition
import QuditSynth.Synthesis.Search

namespace QuditSynth

/-! # Resynthesis

A circuit is compiled window by window. Windows of native gates stay as they are,
windows on one qudit are decomposed exactly, windows on two are handed to the
layered search, and wider windows are refused.
-/

/-- A way of synthesising a two-qudit operator with a family of entanglers. -/
abbrev Synthesizer (R : Type) :=
  Family → Operator R → Nat × Nat → Except (CompileError R) (Synthesis R)

namespace Resynthesis

variable {R : Type} [Scalar R] [Exponential R]

/-- The native gates that stand for a window. -/
def realize (synthesizer : Synthesizer R) (target : Target R) (register : Register)
    (window : Window R) : Except (CompileError R) (List (Instruction R)) := do
  match window.instructions.find? (!target.native.isNative ·) with
  | none => return window.instructions
  | some offender =>
      match window.qudits with
      | [qudit] =>
          let operator ← window.operator register
          decomposeSingleQudit operator qudit
      | [first, second] =>
          let operator ← window.operator register
          let dims := (← register.dimensionOf first, ← register.dimensionOf second)
          let synthesis ← synthesizer (target.familyFor first second) operator dims
          return synthesis.remapped first second
      | _ => throw (.unsupportedInstruction offender.name offender.quditCount)

def realizeSegment (synthesizer : Synthesizer R) (target : Target R) (register : Register) :
    Segment R → Except (CompileError R) (List (Instruction R))
  | .window window => realize synthesizer target register window
  | .measurement instruction => .ok [instruction]

/-- Compiles a circuit with a given way of synthesising two-qudit windows. -/
def compileWith (synthesizer : Synthesizer R) (target : Target R) (circuit : Circuit R) :
    Except (CompileError R) (Circuit R) := do
  let sequences ← (cut target.native circuit.instructions).mapM
    (realizeSegment synthesizer target circuit.register)
  circuit.withInstructions sequences.flatten

/-- Compiles a circuit for a target. -/
def compile (target : Target R) (circuit : Circuit R) : Except (CompileError R) (Circuit R) :=
  compileWith (Search.synthesizeWith target.config) target circuit

end Resynthesis
end QuditSynth
