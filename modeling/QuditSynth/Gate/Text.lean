import QuditSynth.Decimal.Text
import QuditSynth.Gate

namespace QuditSynth.Gate

/-! # Gates as text -/

/-- Angles in a gate's text have six places. -/
def angleText (angle : Float) : String := fixedText 6 angle

def text : Gate Float → String
  | r theta phi a b => s!"r({angleText theta}, {angleText phi})[{a},{b}]"
  | rz theta a b => s!"rz({angleText theta})[{a},{b}]"
  | virtRz theta level => s!"virtrz({angleText theta})[{level}]"
  | cex control a b phi => s!"cex({angleText phi})[{control}; {a},{b}]"
  | ms theta => s!"ms({angleText theta})"
  | gate => gate.name

end QuditSynth.Gate
