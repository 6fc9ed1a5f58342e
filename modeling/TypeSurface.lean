import TypeSurface.CommandLine.LogFormat
import TypeSurface.Main
import TypeSurface.Proofs.Binding.AliasPlace
import TypeSurface.Proofs.Binding.Bound
import TypeSurface.Proofs.Binding.Overloads
import TypeSurface.Proofs.Binding.Printed
import TypeSurface.Proofs.Catalog.Ids
import TypeSurface.Proofs.Catalog.References
import TypeSurface.Proofs.Config.Anchoring
import TypeSurface.Proofs.Config.Inheritance
import TypeSurface.Proofs.Declaration.Forms
import TypeSurface.Proofs.Declaration.Reading
import TypeSurface.Proofs.Declaration.WellFormed
import TypeSurface.Proofs.Diagnostic.Template
import TypeSurface.Proofs.FileTree.Directory
import TypeSurface.Proofs.FileTree.Reading
import TypeSurface.Proofs.Index.Complaints
import TypeSurface.Proofs.Index.Constituents
import TypeSurface.Proofs.Json.Lexeme
import TypeSurface.Proofs.Json.Nesting
import TypeSurface.Proofs.Json.Relaxed
import TypeSurface.Proofs.Merge.Absorption
import TypeSurface.Proofs.Merge.Accounting
import TypeSurface.Proofs.Merge.Clash
import TypeSurface.Proofs.Merge.Serving
import TypeSurface.Proofs.Numeral.Literal
import TypeSurface.Proofs.Profile.Exclusion
import TypeSurface.Proofs.Profile.Growth
import TypeSurface.Proofs.Project.Emission
import TypeSurface.Proofs.Project.Loading
import TypeSurface.Proofs.Project.References
import TypeSurface.Proofs.Relation.Alike
import TypeSurface.Proofs.Relation.Calls
import TypeSurface.Proofs.Relation.Checker
import TypeSurface.Proofs.Relation.Monotone
import TypeSurface.Proofs.Relation.Numbers
import TypeSurface.Proofs.Report.Excerpt
import TypeSurface.Proofs.Surface.MemberNames
import TypeSurface.Proofs.Surface.Outcome
import TypeSurface.Proofs.Syntax.Block
import TypeSurface.Proofs.Syntax.Clear
import TypeSurface.Proofs.Syntax.Flat
import TypeSurface.Proofs.Syntax.FlatClear
import TypeSurface.Proofs.Syntax.Header
import TypeSurface.Proofs.Syntax.Lexeme
import TypeSurface.Proofs.Syntax.Name
import TypeSurface.Proofs.Syntax.Nodes
import TypeSurface.Proofs.Syntax.Parser.Accountability
import TypeSurface.Proofs.Syntax.Parser.Directives
import TypeSurface.Proofs.Syntax.Parser.Ensures
import TypeSurface.Proofs.Syntax.Parser.Files
import TypeSurface.Proofs.Syntax.Parser.Found
import TypeSurface.Proofs.Syntax.Parser.FoundStatements
import TypeSurface.Proofs.Syntax.Parser.FoundTypes
import TypeSurface.Proofs.Syntax.Parser.HeadTags
import TypeSurface.Proofs.Syntax.Parser.Heads
import TypeSurface.Proofs.Syntax.Parser.Keeping
import TypeSurface.Proofs.Syntax.Parser.KeepingRules
import TypeSurface.Proofs.Syntax.Parser.KeepingTypes
import TypeSurface.Proofs.Syntax.Parser.Lookahead
import TypeSurface.Proofs.Syntax.Parser.Members
import TypeSurface.Proofs.Syntax.Parser.Operands
import TypeSurface.Proofs.Syntax.Parser.Progress
import TypeSurface.Proofs.Syntax.Parser.Reading
import TypeSurface.Proofs.Syntax.Parser.ReadingBack
import TypeSurface.Proofs.Syntax.Parser.Separators
import TypeSurface.Proofs.Syntax.Parser.Signatures
import TypeSurface.Proofs.Syntax.Parser.Spans
import TypeSurface.Proofs.Syntax.Parser.Speculation
import TypeSurface.Proofs.Syntax.Parser.Statements
import TypeSurface.Proofs.Syntax.Parser.Types
import TypeSurface.Proofs.Syntax.Piece
import TypeSurface.Proofs.Syntax.Placement
import TypeSurface.Proofs.Syntax.Rewinding
import TypeSurface.Proofs.Syntax.Spelling
import TypeSurface.Proofs.Syntax.Statement
import TypeSurface.Proofs.Syntax.Tag
import TypeSurface.Proofs.Syntax.Tiling
import TypeSurface.Proofs.Syntax.Written
import TypeSurface.Proofs.Text.Lines
import TypeSurface.Relation.Checker
import TypeSurface.Surface.Registry
import TypeSurface.Proofs.FileTree.Writing
