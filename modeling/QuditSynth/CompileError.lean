import QuditSynth.Config
import QuditSynth.Instruction

namespace QuditSynth

/-! # Errors of synthesis and compilation -/

inductive CompileError (R : Type)
  /-- An error of a register, operator, gate or circuit. -/
  | circuit (error : Error)
  /-- A generator was asked for levels that its qudits do not have. -/
  | unsupportedLevels (generator : String) (levels dims : Nat × Nat)
  /-- The search ran out of layers. -/
  | unreachable (best : R) (layers : Nat) (tolerance : R) (layerDistances : List R)
  | unsupportedInstruction (name : String) (quditCount : Nat)
  | notNative (instruction : Instruction R)
  | invalidConfiguration (reason : String)
  | config (error : ConfigError R)

/-- Errors of circuits are errors of compilation. -/
instance {R : Type} : MonadLift (Except Error) (Except (CompileError R)) where
  monadLift
    | .ok value => .ok value
    | .error error => .error (.circuit error)

/-- Errors of a configuration are errors of compilation. -/
instance {R : Type} : MonadLift (Except (ConfigError R)) (Except (CompileError R)) where
  monadLift
    | .ok value => .ok value
    | .error error => .error (.config error)

end QuditSynth
