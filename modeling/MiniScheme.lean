import MiniScheme.CommandLine.Directory
import MiniScheme.CommandLine.FileSystem
import MiniScheme.CommandLine.Options
import MiniScheme.CommandLine.Path
import MiniScheme.CommandLine.Run
import MiniScheme.Console.Basic
import MiniScheme.Console.EntryBuffer
import MiniScheme.Environment
import MiniScheme.Evaluation.Basic
import MiniScheme.Evaluation.Error
import MiniScheme.Evaluation.Evaluate
import MiniScheme.Form.Basic
import MiniScheme.Form.Error
import MiniScheme.Form.Expectation
import MiniScheme.Form.Reader
import MiniScheme.Main
import MiniScheme.Number
import MiniScheme.Procedure.Basic
import MiniScheme.Procedure.Call
import MiniScheme.Proofs.Acceptance
import MiniScheme.Proofs.Completeness
import MiniScheme.Proofs.Composition
import MiniScheme.Proofs.CursorItems
import MiniScheme.Proofs.Derivation
import MiniScheme.Proofs.EntryBalance
import MiniScheme.Proofs.EntryScan
import MiniScheme.Proofs.Guarantee
import MiniScheme.Proofs.Machine
import MiniScheme.Proofs.OnePass
import MiniScheme.Proofs.OpenGroups
import MiniScheme.Proofs.Recovery
import MiniScheme.Proofs.Relocation
import MiniScheme.Proofs.Separation
import MiniScheme.Proofs.SettledStream
import MiniScheme.Proofs.SourceOrder
import MiniScheme.Proofs.Spelling
import MiniScheme.Script.Basic
import MiniScheme.Script.Compiler
import MiniScheme.Script.Literal
import MiniScheme.Script.Name
import MiniScheme.Script.Prelude
import MiniScheme.Session
import MiniScheme.Store
import MiniScheme.Table
import MiniScheme.Text.Blank
import MiniScheme.Text.Hidden
import MiniScheme.Text.LineTable
import MiniScheme.Text.Lines
import MiniScheme.Text.Position
import MiniScheme.Text.Quoted
import MiniScheme.Token.Basic
import MiniScheme.Token.Error
import MiniScheme.Token.Lexeme
import MiniScheme.Token.Stream
import MiniScheme.Token.StringBody
import MiniScheme.Value.Basic
import MiniScheme.Value.Equality
import MiniScheme.Value.Text
import MiniScheme.Proofs.Primitives
import MiniScheme.Proofs.Frame
import MiniScheme.Proofs.StaticScope
import MiniScheme.Proofs.Correspondence
import MiniScheme.Proofs.Twins
import MiniScheme.Proofs.Agreement
import MiniScheme.Proofs.Simulation
import MiniScheme.Proofs.Observation
import MiniScheme.Proofs.FormalRenaming
import MiniScheme.Proofs.Isolation
import MiniScheme.Proofs.Identifiers
import MiniScheme.Proofs.WellFormed
import MiniScheme.Proofs.ScriptNames
import MiniScheme.Proofs.ScriptPieces
import MiniScheme.Proofs.ScriptReading
import MiniScheme.Proofs.ScriptDetermination
import MiniScheme.Proofs.Layout
import MiniScheme.Proofs.Writing
import MiniScheme.Proofs.Entries
import MiniScheme.Proofs.LineByLine
import MiniScheme.Proofs.FailedCompilation
import MiniScheme.Proofs.Interning
import MiniScheme.Proofs.QuotedData
import MiniScheme.Proofs.SymbolTables
import MiniScheme.Proofs.ReadBack
import MiniScheme.Proofs.Places
import MiniScheme.Proofs.MovedCode
import MiniScheme.Proofs.MalformedPiece
import MiniScheme.Proofs.ViablePrefix
import MiniScheme.Proofs.WholeEntries
import MiniScheme.Proofs.Patterns
import MiniScheme.Proofs.LongestMatch
import MiniScheme.Proofs.Gaps
import MiniScheme.Proofs.Tiling
import MiniScheme.Proofs.ExactArithmetic
import MiniScheme.Proofs.Reductions
import MiniScheme.Proofs.ScriptLines
import MiniScheme.Proofs.Declarations
import MiniScheme.Proofs.SoundTrees
import MiniScheme.Proofs.LiteralFallback
import MiniScheme.Proofs.Progress
import MiniScheme.Proofs.Census
import MiniScheme.Proofs.Obtained
import MiniScheme.Proofs.LawfulEquality
import MiniScheme.Proofs.DroppedEntries
import MiniScheme.Proofs.ArgumentPositions
import MiniScheme.Proofs.Precedence
import MiniScheme.Proofs.StringLiterals
import MiniScheme.Proofs.WrittenFiles
import MiniScheme.Proofs.CompileRun
import MiniScheme.Proofs.Descent
import MiniScheme.Proofs.Upcoming
import MiniScheme.Proofs.Books
import MiniScheme.Proofs.DescentSteps
import MiniScheme.Proofs.Bookkeeping
import MiniScheme.Proofs.LineTable
