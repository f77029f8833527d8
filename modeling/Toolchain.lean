import Toolchain.Analysis.Context
import Toolchain.Analysis.Stage
import Toolchain.Command.Check
import Toolchain.Command.Heap
import Toolchain.Command.Line
import Toolchain.Command.OpenStore
import Toolchain.Command.Pragma
import Toolchain.Command.Runs
import Toolchain.Command.StatementToken
import Toolchain.Command.StorePlace
import Toolchain.Command.StoreQuery
import Toolchain.Command.Switch
import Toolchain.Command.Types
import Toolchain.Command.World
import Toolchain.Diagnostic.Archive
import Toolchain.Diagnostic.ArchiveText
import Toolchain.Diagnostic.Basic
import Toolchain.Diagnostic.Board
import Toolchain.Diagnostic.Code
import Toolchain.Diagnostic.Render
import Toolchain.Diagnostic.RunId
import Toolchain.Diagnostic.Span
import Toolchain.Environment
import Toolchain.Files
import Toolchain.Heap.Basic
import Toolchain.Heap.Collect
import Toolchain.Heap.Report
import Toolchain.Heap.Trace
import Toolchain.Interface.Basic
import Toolchain.Interface.Conformance
import Toolchain.Interface.Registry
import Toolchain.Interface.Spec
import Toolchain.Machine.Builtin
import Toolchain.Machine.Frame
import Toolchain.Main
import Toolchain.Notice
import Toolchain.Number.Basic
import Toolchain.Number.ByteSize
import Toolchain.Number.Decimal
import Toolchain.Number.Double
import Toolchain.Number.Grouped
import Toolchain.Number.Reading
import Toolchain.Number.Shortest
import Toolchain.Number.Word
import Toolchain.Settings.Basic
import Toolchain.Settings.Search
import Toolchain.Settings.Validation
import Toolchain.SourceUnit
import Toolchain.Text.Blank
import Toolchain.Text.Digit
import Toolchain.Text.Hex
import Toolchain.Text.Letter
import Toolchain.Text.Printable
import Toolchain.Text.Quoted
import Toolchain.Text.Ranges
import Toolchain.Text.Utf8
import Toolchain.Time.Ago
import Toolchain.Time.Clock
import Toolchain.Time.Duration
import Toolchain.Ty.Basic
import Toolchain.Ty.Encoding
import Toolchain.Ty.Kind
import Toolchain.Ty.Match
import Toolchain.Ty.Parser
import Toolchain.Ty.Render
import Toolchain.Ty.Subst
import Toolchain.Ty.Subtype
import Toolchain.Ty.Token
import Toolchain.Ty.WellFormed
import Toolchain.Value.Basic
import Toolchain.Value.Collection
import Toolchain.Value.Dump
import Toolchain.Value.Equality
import Toolchain.Value.Render
import Toolchain.Value.Sharing
import Toolchain.Value.Typing
import Toolchain.Value.Weight
import Toolchain.Yaml.Atom
import Toolchain.Yaml.Decode
import Toolchain.Yaml.Node
import Toolchain.Yaml.Scalar
import Toolchain.Yaml.Shape
import Toolchain.Yaml.Source
import Toolchain.Yaml.Token
import Toolchain.Proofs.Traversal
import Toolchain.Proofs.Heap.Liveness
import Toolchain.Proofs.Heap.Runs
import Toolchain.Proofs.Heap.Reclamation
import Toolchain.Proofs.Machine.FrameSafety
import Toolchain.Proofs.Ty.Grammar
import Toolchain.Proofs.Ty.Lexing
import Toolchain.Proofs.Ty.Subtyping
import Toolchain.Proofs.Ty.Parsing
import Toolchain.Proofs.Ty.Expressible
import Toolchain.Proofs.Ty.Rendering
import Toolchain.Proofs.Ty.UniqueDecoding
import Toolchain.Proofs.Value.Matching
import Toolchain.Proofs.Value.WellFormed
import Toolchain.Proofs.Value.Equality
import Toolchain.Proofs.Analysis.Reports
import Toolchain.Proofs.Interface.Broken
import Toolchain.Proofs.Analysis.Cap
import Toolchain.Proofs.Value.Access
import Toolchain.Proofs.Text.ByteOrder
import Toolchain.Proofs.Ty.Assignment
import Toolchain.Proofs.Ty.Instances
import Toolchain.Proofs.Interface.Exactness
import Toolchain.Proofs.Heap.Bookkeeping
import Toolchain.Proofs.Interface.Renaming
import Toolchain.Proofs.Interface.Declared
import Toolchain.Proofs.Analysis.FullReport
import Toolchain.Proofs.Diagnostic.ReadBack
import Toolchain.Proofs.Analysis.Persisting
import Toolchain.Proofs.Command.Checking
import Toolchain.Proofs.Ty.MinimalBinding
import Toolchain.Proofs.Heap.Allocation
import Toolchain.Proofs.Environment.Scoping
import Toolchain.Proofs.Analysis.Loading
import Toolchain.Proofs.Analysis.Places
import Toolchain.Proofs.Command.Independence
import Toolchain.Proofs.Ty.Substitution
import Toolchain.Proofs.Ty.FreeVariables
import Toolchain.Proofs.Interface.Registration
import Toolchain.Proofs.Ty.WellFormedness
import Toolchain.Proofs.Ty.Image
import Toolchain.Proofs.Value.Extensionality
import Toolchain.Proofs.Value.FiniteMap
import Toolchain.Proofs.Value.Weighing
import Toolchain.Proofs.Environment.Nesting
import Toolchain.Proofs.Heap.Accounting
import Toolchain.Proofs.Heap.Settling
import Toolchain.Proofs.Ty.Positions
import Toolchain.Proofs.Ty.Failures
import Toolchain.Proofs.Command.HeapReport
import Toolchain.Proofs.Settings.Bounds
import Toolchain.Proofs.Settings.Duplicates
import Toolchain.Proofs.Ty.KindRendering
