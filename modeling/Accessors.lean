import Accessors.Ancestry
import Accessors.Backend
import Accessors.Backend.Java
import Accessors.Backend.Python
import Accessors.Bounds
import Accessors.CommandLine
import Accessors.Decimal.Shortest
import Accessors.Diagnostic
import Accessors.Emission
import Accessors.Failure
import Accessors.FileAccess
import Accessors.FileTree
import Accessors.Graph
import Accessors.Graph.Draft
import Accessors.Graph.Fault
import Accessors.Graph.Linking
import Accessors.Json
import Accessors.Main
import Accessors.Method
import Accessors.Method.Merge
import Accessors.Name
import Accessors.Path
import Accessors.Proofs.Reachability
import Accessors.Provenance
import Accessors.Report
import Accessors.Report.Json
import Accessors.Resolution
import Accessors.Run
import Accessors.Settings
import Accessors.Source
import Accessors.Source.Fault
import Accessors.Source.Grammar
import Accessors.Span
import Accessors.Text.CodeRun
import Accessors.Text.LetterCase
import Accessors.Text.LetterCase.Table
import Accessors.Text.Lines
import Accessors.Text.Pieces
import Accessors.Text.Quoted
import Accessors.Text.Quoted.Table
import Accessors.Token
import Accessors.Token.Lexer
import Accessors.Toml.Document
import Accessors.Toml.Scalar
import Accessors.Toml.Statement
import Accessors.Toml.Table
import Accessors.Toml.Text
import Accessors.Toml.Value
import Accessors.Proofs.Search
import Accessors.Proofs.WellFormed
import Accessors.Proofs.Provenance
import Accessors.Proofs.Resolution
import Accessors.Proofs.Merge
import Accessors.Proofs.Generation
import Accessors.Proofs.Collisions
import Accessors.Proofs.Conformance
import Accessors.Proofs.Redundancy
import Accessors.Proofs.Preorder
import Accessors.Proofs.Emission
import Accessors.Proofs.FilePaths
import Accessors.Proofs.Phrases
import Accessors.Proofs.Parsing
import Accessors.Proofs.Lexing
import Accessors.Proofs.Cycles
import Accessors.Proofs.Trails
import Accessors.Proofs.Placement
import Accessors.Proofs.Printing
import Accessors.Proofs.Linking
import Accessors.Proofs.Transfer
import Accessors.Proofs.Inheritance
import Accessors.Proofs.Relabeling
import Accessors.Proofs.Embedding
import Accessors.Proofs.Reordering
import Accessors.Proofs.Extension
import Accessors.Proofs.Refusal
import Accessors.Proofs.ExitCodes
import Accessors.Proofs.KeyIndex
import Accessors.Proofs.LookUps
import Accessors.Proofs.Occurrences
import Accessors.Proofs.Names
import Accessors.Proofs.PythonDefinitions
import Accessors.Proofs.JavaDefinitions
import Accessors.Proofs.Definitions
import Accessors.Proofs.JavaFields
import Accessors.Proofs.Arrangement
import Accessors.Proofs.MergeMaps
import Accessors.Proofs.Erasure
import Accessors.Proofs.SuperclassChain
import Accessors.Proofs.Diamonds
import Accessors.Proofs.Remerging
import Accessors.Proofs.JsonText
import Accessors.Proofs.ReportText
import Accessors.Proofs.PythonFields
import Accessors.Proofs.Parameters
import Accessors.Proofs.Unplacing
import Accessors.Proofs.Layout
import Accessors.Proofs.SnakeCase
import Accessors.Proofs.Plurals
import Accessors.Proofs.ChosenBackends
import Accessors.Proofs.Spans
import Accessors.Proofs.Pointing
