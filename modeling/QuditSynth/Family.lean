import QuditSynth.Text.Blank

namespace QuditSynth

/-! # Choices of a search

The native family that entangles two qudits, and the minimizer that tunes angles.
-/

inductive Family
  | ms
  | crot
  | pswap
deriving Repr, DecidableEq

namespace Family

def text : Family → String
  | ms => "ms"
  | crot => "crot"
  | pswap => "pswap"

/-- The exact names of a family in a document. -/
def ofName? : String → Option Family
  | "ms" => some ms
  | "crot" | "czrot" => some crot
  | "pswap" => some pswap
  | _ => none

end Family

inductive Optimizer
  | adam
  | nelderMead
deriving Repr, DecidableEq

namespace Optimizer

def text : Optimizer → String
  | adam => "adam"
  | nelderMead => "nelder_mead"

/-- The exact names of an optimizer in a document. -/
def ofName? : String → Option Optimizer
  | "adam" => some adam
  | "nelder_mead" | "neldermead" => some nelderMead
  | _ => none

end Optimizer
end QuditSynth
