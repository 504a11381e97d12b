import QuditSynth.Amplitude
import QuditSynth.Angle
import QuditSynth.Capacity
import QuditSynth.Circuit
import QuditSynth.Circuit.Store
import QuditSynth.Circuit.Workspace
import QuditSynth.Command.Arguments
import QuditSynth.Command.Disk
import QuditSynth.Command.Host
import QuditSynth.Command.Options
import QuditSynth.Command.Run
import QuditSynth.CompileError
import QuditSynth.CompileError.Text
import QuditSynth.Config
import QuditSynth.Config.Document
import QuditSynth.Config.File
import QuditSynth.Config.Overrides
import QuditSynth.Decimal
import QuditSynth.Decimal.Reading
import QuditSynth.Decimal.Shortest
import QuditSynth.Decimal.Text
import QuditSynth.Document
import QuditSynth.Document.Circuit
import QuditSynth.Document.Gate
import QuditSynth.Document.Printer
import QuditSynth.Document.Reader
import QuditSynth.Error
import QuditSynth.Family
import QuditSynth.Gate
import QuditSynth.Gate.Action
import QuditSynth.Gate.Text
import QuditSynth.Generator
import QuditSynth.Instruction
import QuditSynth.Instruction.Text
import QuditSynth.LocalLayer
import QuditSynth.Main
import QuditSynth.Minimizer
import QuditSynth.Minimizer.Adam
import QuditSynth.Minimizer.NelderMead
import QuditSynth.Operator
import QuditSynth.Operator.Embedding
import QuditSynth.Operator.Exponential
import QuditSynth.Path
import QuditSynth.Pipeline
import QuditSynth.Proofs.Circuit.Inverse
import QuditSynth.Proofs.Circuit.Isolation
import QuditSynth.Proofs.Circuit.Operator
import QuditSynth.Proofs.Circuit.Reachable
import QuditSynth.Proofs.Circuit.Storage
import QuditSynth.Proofs.Document.Bounds
import QuditSynth.Proofs.Document.Circuit
import QuditSynth.Proofs.Document.Decoding
import QuditSynth.Proofs.Document.Gate
import QuditSynth.Proofs.Document.RoundTrip
import QuditSynth.Proofs.Document.Scalars
import QuditSynth.Proofs.Document.Text
import QuditSynth.Proofs.Document.Values
import QuditSynth.Proofs.Exact.Adjoint
import QuditSynth.Proofs.Exact.Circuit
import QuditSynth.Proofs.Exact.Distance
import QuditSynth.Proofs.Exact.Exponential
import QuditSynth.Proofs.Exact.Kronecker
import QuditSynth.Proofs.Exact.Levels
import QuditSynth.Proofs.Exact.Matrix
import QuditSynth.Proofs.Exact.Phase
import QuditSynth.Proofs.Exact.Placement
import QuditSynth.Proofs.Exact.Rotation
import QuditSynth.Proofs.Exact.Scalar
import QuditSynth.Proofs.Exact.Unitary
import QuditSynth.Proofs.Gate.Inverse
import QuditSynth.Proofs.Gate.Operator
import QuditSynth.Proofs.Generator.Exactness
import QuditSynth.Proofs.Generator.Families
import QuditSynth.Proofs.Generator.Pulses
import QuditSynth.Proofs.Generator.Sequences
import QuditSynth.Proofs.Instruction.Localized
import QuditSynth.Proofs.Instruction.Validity
import QuditSynth.Proofs.Minimizer.Adam
import QuditSynth.Proofs.Minimizer.NelderMead
import QuditSynth.Proofs.Minimizer.Questions
import QuditSynth.Proofs.Operator.Axes
import QuditSynth.Proofs.Operator.Embedding
import QuditSynth.Proofs.Operator.Entry
import QuditSynth.Proofs.Operator.Meaning
import QuditSynth.Proofs.Operator.Nesting
import QuditSynth.Proofs.Operator.Unitarity
import QuditSynth.Proofs.Outcome
import QuditSynth.Proofs.Pipeline.Runs
import QuditSynth.Proofs.Register.Digits
import QuditSynth.Proofs.Register.Words
import QuditSynth.Proofs.Resynthesis.Barriers
import QuditSynth.Proofs.Resynthesis.Entanglers
import QuditSynth.Proofs.Resynthesis.Factorization
import QuditSynth.Proofs.Resynthesis.Factors
import QuditSynth.Proofs.Resynthesis.Failures
import QuditSynth.Proofs.Resynthesis.Native
import QuditSynth.Proofs.Resynthesis.Shifts
import QuditSynth.Proofs.Resynthesis.Stability
import QuditSynth.Proofs.Resynthesis.Unitarity
import QuditSynth.Proofs.Resynthesis.Windows
import QuditSynth.Proofs.Scalar.Finite
import QuditSynth.Proofs.Scalar.Numbers
import QuditSynth.Proofs.Scalar.TotalOrder
import QuditSynth.Proofs.Synthesis.Climb
import QuditSynth.Proofs.Synthesis.Contract
import QuditSynth.Proofs.Synthesis.Decomposition
import QuditSynth.Proofs.Synthesis.DecompositionMatrix
import QuditSynth.Proofs.Synthesis.Descent
import QuditSynth.Proofs.Synthesis.Elimination
import QuditSynth.Proofs.Synthesis.Emission
import QuditSynth.Proofs.Synthesis.LayerMatrix
import QuditSynth.Proofs.Synthesis.Layout
import QuditSynth.Proofs.Synthesis.Native
import QuditSynth.Proofs.Synthesis.Operators
import QuditSynth.Proofs.Synthesis.Outcomes
import QuditSynth.Proofs.Synthesis.Overlap
import QuditSynth.Proofs.Synthesis.Padding
import QuditSynth.Proofs.Synthesis.Realization
import QuditSynth.Proofs.Synthesis.Restarts
import QuditSynth.Proofs.Synthesis.Scheduling
import QuditSynth.Proofs.Synthesis.Selection
import QuditSynth.Proofs.Synthesis.Undefined
import QuditSynth.Proofs.Synthesis.Unitary
import QuditSynth.Proofs.Synthesis.Validity
import QuditSynth.Random.SeedStream
import QuditSynth.Register
import QuditSynth.Resynthesis
import QuditSynth.Resynthesis.Window
import QuditSynth.Scalar
import QuditSynth.Scalar.Binary
import QuditSynth.Scalar.Double
import QuditSynth.Scalar.Fused
import QuditSynth.Synthesis.Ansatz
import QuditSynth.Synthesis.Decomposition
import QuditSynth.Synthesis.Search
import QuditSynth.Target
import QuditSynth.Text.Blank
import QuditSynth.Text.Hex
import QuditSynth.Text.Split
import QuditSynth.Yaml.Cursor
import QuditSynth.Yaml.Node
import QuditSynth.Yaml.Number
import QuditSynth.Yaml.Scalar
import QuditSynth.Yaml.Tag
import QuditSynth.Yaml.Token
import QuditSynth.Proofs.Exact.Independence
import QuditSynth.Proofs.Operator.Algebra
import QuditSynth.Proofs.Exact.PhaseDistance
import QuditSynth.Proofs.Resynthesis.LocalView
import QuditSynth.Proofs.Exact.EmbeddedDistance
import QuditSynth.Proofs.Resynthesis.WindowDistance
import QuditSynth.Proofs.Gate.Canonical
import QuditSynth.Proofs.Minimizer.Recording
import QuditSynth.Proofs.Minimizer.Simplex
import QuditSynth.Proofs.Exact.Number
import QuditSynth.Proofs.Minimizer.Iterates
import QuditSynth.Proofs.Gate.Involution
import QuditSynth.Proofs.Generator.Requests
import QuditSynth.Proofs.Exact.Series
import QuditSynth.Proofs.Gate.Interaction
import QuditSynth.Proofs.Resynthesis.Pass
import QuditSynth.Proofs.Config.Overrides
import QuditSynth.Proofs.Command.Dimensions
import QuditSynth.Proofs.Synthesis.RowMixing
import QuditSynth.Proofs.Synthesis.Shortcuts
import QuditSynth.Proofs.Synthesis.Reading
import QuditSynth.Proofs.Register.Numerals
import QuditSynth.Proofs.Synthesis.Seeds
