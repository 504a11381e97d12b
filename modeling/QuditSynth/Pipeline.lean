import QuditSynth.Resynthesis

namespace QuditSynth

/-! # Pipelines

A pipeline runs passes one after another, each on the circuit that the one
before left. Passes that only look at the circuit leave it as it is.
-/

inductive PassKind
  /-- Looks at the circuit; what it returns is not used. -/
  | analysis
  /-- Returns another circuit. -/
  | transformation
deriving Repr, DecidableEq

structure Pass (R : Type) where
  name : String
  kind : PassKind
  /-- Whether there is anything to do. -/
  shouldRun : Circuit R → Bool := fun _ => true
  run : Circuit R → Except (CompileError R) (Circuit R)

namespace Pass

variable {R : Type}

/-- The circuit after a pass, which is left out if there is nothing to do. -/
def apply (pass : Pass R) (circuit : Circuit R) : Except (CompileError R) (Circuit R) :=
  if pass.shouldRun circuit then
    match pass.kind with
    | .analysis => do
        let _ ← pass.run circuit
        return circuit
    | .transformation => pass.run circuit
  else .ok circuit

/-- Fails on the first gate that is not native. -/
def verification (target : Target R) : Pass R where
  name := "native_gate_verification"
  kind := .analysis
  run circuit :=
    match circuit.instructions.find? target.native.isForeign with
    | some instruction => .error (.notNative instruction)
    | none => .ok circuit

/-- Compiles the circuit, if it has a gate that is not native. -/
def resynthesis [Scalar R] [Exponential R] (target : Target R) : Pass R where
  name := "naive_loc_resynth"
  kind := .transformation
  shouldRun circuit := circuit.instructions.any target.native.isForeign
  run := Resynthesis.compile target

end Pass

structure Pipeline (R : Type) where
  passes : List (Pass R)

namespace Pipeline

variable {R : Type}

/-- Runs all passes in order; the first that fails ends the run. -/
def run (pipeline : Pipeline R) (circuit : Circuit R) : Except (CompileError R) (Circuit R) :=
  pipeline.passes.foldlM (fun current pass => pass.apply current) circuit

def passNames (pipeline : Pipeline R) : List String := pipeline.passes.map Pass.name

/-- Whether a run would hand back the circuit it is given, storage included. Until a
transformation takes place every pass sees that circuit, so it is enough to ask each about it. -/
def returnsInput (pipeline : Pipeline R) (circuit : Circuit R) : Bool :=
  pipeline.passes.all fun pass => pass.kind == .analysis || !pass.shouldRun circuit

/-- Resynthesis, and verification of its result if wanted. -/
def standard [Scalar R] [Exponential R] (target : Target R) (verify : Bool) : Pipeline R where
  passes := .resynthesis target :: if verify then [.verification target] else []

end Pipeline
end QuditSynth
