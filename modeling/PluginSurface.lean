import PluginSurface.Build.Assembly
import PluginSurface.Build.Session
import PluginSurface.Build.Settings
import PluginSurface.Dict
import PluginSurface.Digest.Sha256
import PluginSurface.Eval.Environment
import PluginSurface.Eval.Fault
import PluginSurface.Eval.Machine
import PluginSurface.Eval.Operators
import PluginSurface.Eval.Place
import PluginSurface.Eval.Run
import PluginSurface.Eval.Value
import PluginSurface.Grammar.Declaration
import PluginSurface.Grammar.Expression
import PluginSurface.Grammar.Parse
import PluginSurface.Grammar.Program
import PluginSurface.Grammar.Statement
import PluginSurface.Grammar.Typing
import PluginSurface.Json.Document
import PluginSurface.Json.Text
import PluginSurface.Json.Value
import PluginSurface.Number.Binary64
import PluginSurface.Number.Decimal
import PluginSurface.Number.Layout
import PluginSurface.Optional.Default
import PluginSurface.Optional.Mask
import PluginSurface.Optional.Masking
import PluginSurface.Proofs.Build.Signatures
import PluginSurface.Proofs.Dict
import PluginSurface.Proofs.Eval.Agreement
import PluginSurface.Proofs.Eval.CallLevels
import PluginSurface.Proofs.Eval.Congruence
import PluginSurface.Proofs.Eval.Frames
import PluginSurface.Proofs.Eval.GasLimits
import PluginSurface.Proofs.Eval.Quiet
import PluginSurface.Proofs.Eval.Reach
import PluginSurface.Proofs.Eval.Scopes
import PluginSurface.Proofs.Eval.Simulation
import PluginSurface.Proofs.Eval.Termination
import PluginSurface.Proofs.Grammar.Closure
import PluginSurface.Proofs.Optional.Bits
import PluginSurface.Proofs.Optional.CallScopes
import PluginSurface.Proofs.Optional.Equivalence
import PluginSurface.Proofs.Optional.Fillers
import PluginSurface.Proofs.Optional.GuardRuns
import PluginSurface.Proofs.Optional.Guards
import PluginSurface.Proofs.Optional.MaskedCalls
import PluginSurface.Proofs.Optional.Masking
import PluginSurface.Proofs.Optional.Records
import PluginSurface.Proofs.Optional.Untouched
import PluginSurface.Proofs.Optional.WellFormed
import PluginSurface.Proofs.Syntax.Closure
import PluginSurface.Proofs.Syntax.Ownership
import PluginSurface.Proofs.Syntax.Tree
import PluginSurface.Resolve.DataType
import PluginSurface.Resolve.Declarations
import PluginSurface.Resolve.Layout
import PluginSurface.Resolve.ModuleScope
import PluginSurface.Resolve.Table
import PluginSurface.Source.Diagnostic
import PluginSurface.Source.Parts
import PluginSurface.Source.Span
import PluginSurface.Source.Text
import PluginSurface.Surface.Listing
import PluginSurface.Surface.Manifest
import PluginSurface.Surface.Remote
import PluginSurface.Surface.Report
import PluginSurface.Surface.Signature
import PluginSurface.Syntax.Arena
import PluginSurface.Syntax.Fault
import PluginSurface.Syntax.Operator
import PluginSurface.Syntax.Print
import PluginSurface.Syntax.Program
import PluginSurface.Syntax.Scan
import PluginSurface.Syntax.Token
import PluginSurface.Syntax.Tree
import PluginSurface.Syntax.TypeExpr
import PluginSurface.Toml.Document
import PluginSurface.Toml.Lexeme
import PluginSurface.Toml.Text
import PluginSurface.Toml.Value
import PluginSurface.Wasm.Code
import PluginSurface.Wasm.Context
import PluginSurface.Wasm.Decoder
import PluginSurface.Wasm.Embedding
import PluginSurface.Wasm.Instruction.Control
import PluginSurface.Wasm.Instruction.Heap
import PluginSurface.Wasm.Instruction.Memory
import PluginSurface.Wasm.Instruction.Vector
import PluginSurface.Wasm.Leb128
import PluginSurface.Wasm.Module
import PluginSurface.Wasm.Operand
import PluginSurface.Wasm.Operation
import PluginSurface.Wasm.TypeTable
import PluginSurface.Wasm.Validity
import PluginSurface.Wasm.ValueType
import PluginSurface.Proofs.Source.Utf8
import PluginSurface.Proofs.Wasm.Framing
import PluginSurface.Proofs.Wasm.Attachment
import PluginSurface.Proofs.Json.Strings
import PluginSurface.Proofs.Json.Numbers
import PluginSurface.Proofs.Json.Documents
import PluginSurface.Proofs.Surface.Manifest
import PluginSurface.Proofs.Build.TypeTable
import PluginSurface.Proofs.Build.Embedding
import PluginSurface.Proofs.Grammar.Gives
import PluginSurface.Proofs.Grammar.PrintedExpressions
import PluginSurface.Proofs.Syntax.Reprinting
import PluginSurface.Build.Workspace
import PluginSurface.Proofs.Build.Workspace
import PluginSurface.Proofs.Optional.Selection
import PluginSurface.Proofs.Grammar.Consumption
import PluginSurface.Proofs.Syntax.Lossless
import PluginSurface.Proofs.Eval.Costs
import PluginSurface.Proofs.Eval.NamedCalls
import PluginSurface.Proofs.Optional.BitTests
import PluginSurface.Proofs.Optional.DefaultValues
import PluginSurface.Proofs.Optional.Shape
import PluginSurface.Proofs.Eval.Places
import PluginSurface.Proofs.Eval.FailedStores
import PluginSurface.Proofs.Eval.Instances
import PluginSurface.Proofs.Eval.Receivers
import PluginSurface.Proofs.Grammar.Runs
import PluginSurface.Proofs.Grammar.TypeArguments
import PluginSurface.Proofs.Grammar.OperatorChains
import PluginSurface.Proofs.Grammar.TypeTexts
import PluginSurface.Proofs.Resolve.BaseChains
import PluginSurface.Proofs.Resolve.Identity
import PluginSurface.Proofs.Resolve.RootOrder
import PluginSurface.Proofs.Grammar.NestedSpans
import PluginSurface.Proofs.Syntax.QuotedTexts
import PluginSurface.Proofs.Syntax.WholeNumbers
import PluginSurface.Proofs.Resolve.Specifiers
import PluginSurface.Proofs.Build.SourceErrors
import PluginSurface.Proofs.Eval.Indices
import PluginSurface.Proofs.Build.SignatureLines
