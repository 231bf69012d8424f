import JavaLint.Doc.Check
import JavaLint.Doc.Comment
import JavaLint.Error
import JavaLint.Failure
import JavaLint.FileTable
import JavaLint.Grammar.Form
import JavaLint.Grammar.Java
import JavaLint.Grammar.Lookahead
import JavaLint.Json.Basic
import JavaLint.Json.Reader
import JavaLint.Json.Writer
import JavaLint.Judge.Outcome
import JavaLint.Judge.Rules
import JavaLint.Judge.Session
import JavaLint.Keyword
import JavaLint.Lexeme.Kind
import JavaLint.Lexeme.Number
import JavaLint.Lexeme.Scan
import JavaLint.Main
import JavaLint.Model.Basic
import JavaLint.Model.Builder
import JavaLint.Model.Declaration
import JavaLint.Model.Scope
import JavaLint.Options
import JavaLint.Path
import JavaLint.Proofs.Doc.Complete
import JavaLint.Proofs.Doc.Glued
import JavaLint.Proofs.Doc.Links
import JavaLint.Proofs.Doc.Margins
import JavaLint.Proofs.Doc.Returns
import JavaLint.Proofs.Doc.Weight
import JavaLint.Proofs.Doc.Wrapped
import JavaLint.Proofs.Grammar.Agreement
import JavaLint.Proofs.Grammar.Angles
import JavaLint.Proofs.Grammar.Brackets
import JavaLint.Proofs.Grammar.Counters
import JavaLint.Proofs.Grammar.Declared
import JavaLint.Proofs.Grammar.Depth
import JavaLint.Proofs.Grammar.Fuel
import JavaLint.Proofs.Grammar.Java
import JavaLint.Proofs.Grammar.Levels
import JavaLint.Proofs.Grammar.Names
import JavaLint.Proofs.Grammar.Opening
import JavaLint.Proofs.Grammar.Owners
import JavaLint.Proofs.Grammar.Parens
import JavaLint.Proofs.Grammar.Progress
import JavaLint.Proofs.Grammar.Read
import JavaLint.Proofs.Grammar.Supply
import JavaLint.Proofs.Grammar.TypeEnds
import JavaLint.Proofs.Json.RoundTrip
import JavaLint.Proofs.Judge.Covers
import JavaLint.Proofs.Judge.History
import JavaLint.Proofs.Layout.Invariance
import JavaLint.Proofs.Layout.Sketch
import JavaLint.Proofs.Layout.Tree
import JavaLint.Proofs.Lexeme.Extent
import JavaLint.Proofs.Lexeme.Joining
import JavaLint.Proofs.Lexeme.Position
import JavaLint.Proofs.Lexeme.Spelling
import JavaLint.Proofs.Lexeme.Stability
import JavaLint.Proofs.Lexeme.Words
import JavaLint.Proofs.LineEnds.Analysis
import JavaLint.Proofs.Model.Braces
import JavaLint.Proofs.Model.Builder
import JavaLint.Proofs.Model.Calls
import JavaLint.Proofs.Model.Declarations
import JavaLint.Proofs.Model.Foreign
import JavaLint.Proofs.Model.Known
import JavaLint.Proofs.Model.Nesting
import JavaLint.Proofs.Model.Operators
import JavaLint.Proofs.Model.Recorded
import JavaLint.Proofs.Model.Roles
import JavaLint.Proofs.Model.ScopeTree
import JavaLint.Proofs.Model.Scopes
import JavaLint.Proofs.Model.Sound
import JavaLint.Proofs.Model.Walk
import JavaLint.Proofs.Style.Naming
import JavaLint.Proofs.Style.Settings
import JavaLint.Proofs.Text.Breaks
import JavaLint.Proofs.Text.Search
import JavaLint.Proofs.Token.Code
import JavaLint.Proofs.Token.Columns
import JavaLint.Proofs.Token.LineTable
import JavaLint.Proofs.Token.Neighbours
import JavaLint.Proofs.Token.Order
import JavaLint.Proofs.Tree.Bare
import JavaLint.Proofs.Tree.Brackets
import JavaLint.Proofs.Tree.Depth
import JavaLint.Proofs.Tree.Headway
import JavaLint.Proofs.Tree.Matching
import JavaLint.Proofs.Tree.Shape
import JavaLint.Proofs.Tree.Sites
import JavaLint.Proofs.Tree.Weave
import JavaLint.Proofs.Verdict.Accounting
import JavaLint.Proofs.Verdict.Braces
import JavaLint.Proofs.Verdict.Labels
import JavaLint.Proofs.Verdict.Limits
import JavaLint.Proofs.Verdict.Operators
import JavaLint.Proofs.Verdict.Passing
import JavaLint.Proofs.Verdict.Runs
import JavaLint.Proofs.Verdict.Safety
import JavaLint.Proofs.Verdict.Spacing
import JavaLint.Proofs.Verdict.Width
import JavaLint.Review
import JavaLint.SourceFile
import JavaLint.Style.Naming
import JavaLint.Style.Settings
import JavaLint.Targets
import JavaLint.Text.Alphabetic
import JavaLint.Text.Classes
import JavaLint.Text.Graphic
import JavaLint.Text.Letter
import JavaLint.Text.Lines
import JavaLint.Text.Number
import JavaLint.Text.Search
import JavaLint.Token.Basic
import JavaLint.Token.LineTable
import JavaLint.Token.Role
import JavaLint.Tree.Forest
import JavaLint.Tree.Leaf
import JavaLint.Tree.Parse
import JavaLint.Tree.Weave
import JavaLint.Verdict.Basic
import JavaLint.Verdict.Breach
import JavaLint.Verdict.Finding
import JavaLint.Verdict.Report
import JavaLint.Verdict.Summary
