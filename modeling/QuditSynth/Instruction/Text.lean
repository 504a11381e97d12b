import QuditSynth.Gate.Text
import QuditSynth.Instruction

namespace QuditSynth.Instruction

/-! # Instructions as text -/

def actionText : Action Float → String
  | .gate gate => gate.text
  | .measure => "measure"

def controlText (qudit : Qudit) (level : Nat) : String := s!" ctrl({qudit.text}={level})"

def text (instruction : Instruction Float) : String :=
  let controls := instruction.controls.getD ⟨[], []⟩
  actionText instruction.action ++
    String.join (instruction.qudits.map fun qudit => " " ++ qudit.text) ++
    String.join (controls.qudits.zipWith controlText controls.levels)

end QuditSynth.Instruction
