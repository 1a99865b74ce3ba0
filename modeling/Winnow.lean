import Winnow.Arguments.Manual
import Winnow.Arguments.Reading
import Winnow.Assoc
import Winnow.Attributes
import Winnow.Audit
import Winnow.Config
import Winnow.Console
import Winnow.Css.Filter
import Winnow.Css.Lexer
import Winnow.Css.Name
import Winnow.Css.Node
import Winnow.Css.Parser
import Winnow.Css.Printer
import Winnow.Document.Markup
import Winnow.Document.Store
import Winnow.Document.Tree
import Winnow.Enforcement
import Winnow.Fault
import Winnow.Files
import Winnow.Floating
import Winnow.Fuzz.Console
import Winnow.Fuzz.Draws
import Winnow.Fuzz.Sample
import Winnow.Fuzz.Session
import Winnow.Html.Construction
import Winnow.Html.Construction.Builder
import Winnow.Html.Construction.Closing
import Winnow.Html.Construction.Formatting
import Winnow.Html.Construction.Opening
import Winnow.Html.Construction.Vocabulary
import Winnow.Html.Entity
import Winnow.Html.Entity.Table
import Winnow.Html.Lexer
import Winnow.Html.Lexer.Comment
import Winnow.Html.Lexer.RawText
import Winnow.Html.Lexer.Tag
import Winnow.Html.Token
import Winnow.Libraries
import Winnow.Main
import Winnow.Policy
import Winnow.Proofs.Assoc
import Winnow.Proofs.Attributes
import Winnow.Proofs.Ceiling
import Winnow.Proofs.Config
import Winnow.Proofs.Console
import Winnow.Proofs.Css.Address
import Winnow.Proofs.Css.Brackets
import Winnow.Proofs.Css.Clean
import Winnow.Proofs.Css.Declarations
import Winnow.Proofs.Css.Inline
import Winnow.Proofs.Css.Kept
import Winnow.Proofs.Css.Lexeme
import Winnow.Proofs.Css.Name
import Winnow.Proofs.Css.Natural
import Winnow.Proofs.Css.Neighbours
import Winnow.Proofs.Css.Number
import Winnow.Proofs.Css.Property
import Winnow.Proofs.Css.ReadBack
import Winnow.Proofs.Css.Refused
import Winnow.Proofs.Css.Reparse
import Winnow.Proofs.Css.Rules
import Winnow.Proofs.Css.Ruleset
import Winnow.Proofs.Css.Settings
import Winnow.Proofs.Css.Sheet
import Winnow.Proofs.Css.Siblings
import Winnow.Proofs.Css.Spelled
import Winnow.Proofs.Css.Spelling
import Winnow.Proofs.Css.Token
import Winnow.Proofs.Css.Trimmed
import Winnow.Proofs.Css.Value
import Winnow.Proofs.Css.Walk
import Winnow.Proofs.Document.Joined
import Winnow.Proofs.Document.Markup
import Winnow.Proofs.Document.Tree
import Winnow.Proofs.Document.Whole
import Winnow.Proofs.Enforcement.Answers
import Winnow.Proofs.Enforcement.Balance
import Winnow.Proofs.Enforcement.Budget
import Winnow.Proofs.Enforcement.Counting
import Winnow.Proofs.Enforcement.Derived
import Winnow.Proofs.Enforcement.Guarantee
import Winnow.Proofs.Enforcement.Left
import Winnow.Proofs.Enforcement.Loose
import Winnow.Proofs.Enforcement.Refinement
import Winnow.Proofs.Enforcement.Repeated
import Winnow.Proofs.Enforcement.Rework
import Winnow.Proofs.Enforcement.Sheets
import Winnow.Proofs.Enforcement.Simulation
import Winnow.Proofs.Enforcement.Steps
import Winnow.Proofs.Enforcement.Visit
import Winnow.Proofs.Enforcement.Whole
import Winnow.Proofs.Fault
import Winnow.Proofs.Files
import Winnow.Proofs.Harmless.Document
import Winnow.Proofs.Harmless.Output
import Winnow.Proofs.Harmless.Pieces
import Winnow.Proofs.Harmless.Source
import Winnow.Proofs.Harmless.Written
import Winnow.Proofs.Html.Construction.Closing
import Winnow.Proofs.Html.Construction.Moves
import Winnow.Proofs.Html.Construction.Opening
import Winnow.Proofs.Html.Construction.Placing
import Winnow.Proofs.Html.Construction.Tokens
import Winnow.Proofs.Html.Entity
import Winnow.Proofs.Html.Lexer.Comment
import Winnow.Proofs.Html.Lexer.Escaped
import Winnow.Proofs.Html.Lexer.LineEnds
import Winnow.Proofs.Html.Lexer.Name
import Winnow.Proofs.Html.Lexer.RawText
import Winnow.Proofs.Html.Lexer.Read
import Winnow.Proofs.Html.Lexer.Rest
import Winnow.Proofs.Html.Lexer.Segment
import Winnow.Proofs.Html.Lexer.Written
import Winnow.Proofs.Html.Nested.Builder
import Winnow.Proofs.Html.Nested.Edits
import Winnow.Proofs.Html.Nested.Formatting
import Winnow.Proofs.Html.Nested.Moves
import Winnow.Proofs.Html.Nested.Names
import Winnow.Proofs.Html.Nested.Ready
import Winnow.Proofs.Html.Nested.Run
import Winnow.Proofs.Html.Rooted.Beginning
import Winnow.Proofs.Html.Rooted.Builder
import Winnow.Proofs.Html.Rooted.Careful
import Winnow.Proofs.Html.Rooted.Formatting
import Winnow.Proofs.Html.Rooted.Moves
import Winnow.Proofs.Html.Rooted.Preamble
import Winnow.Proofs.Html.Rooted.Run
import Winnow.Proofs.Html.Rooted.Stack
import Winnow.Proofs.Html.Rooted.Supplied
import Winnow.Proofs.Html.Roundtrip.Flow
import Winnow.Proofs.Html.Roundtrip.Forest
import Winnow.Proofs.Html.Roundtrip.Locals
import Winnow.Proofs.Html.Roundtrip.Page
import Winnow.Proofs.Html.Roundtrip.Reading
import Winnow.Proofs.Html.Source
import Winnow.Proofs.Html.Source.Builder
import Winnow.Proofs.Numerals
import Winnow.Proofs.Output
import Winnow.Proofs.Passes
import Winnow.Proofs.Policy
import Winnow.Proofs.Policy.Alike
import Winnow.Proofs.Reference
import Winnow.Proofs.Rule
import Winnow.Proofs.Rule.Normal
import Winnow.Proofs.RuleFile
import Winnow.Proofs.RuleOrder
import Winnow.Proofs.Screen.Alike
import Winnow.Proofs.Screen.Bare
import Winnow.Proofs.Screen.Fragment
import Winnow.Proofs.Screen.Names
import Winnow.Proofs.Screen.Qualified
import Winnow.Proofs.Screen.Tables
import Winnow.Proofs.Stopping
import Winnow.Proofs.Store.Edits
import Winnow.Proofs.Store.Forest
import Winnow.Proofs.Store.FromTree
import Winnow.Proofs.Store.Grounded
import Winnow.Proofs.Store.Held
import Winnow.Proofs.Store.Insertion
import Winnow.Proofs.Store.Layout
import Winnow.Proofs.Store.Links
import Winnow.Proofs.Store.Markup
import Winnow.Proofs.Store.Rearrange
import Winnow.Proofs.Store.Traversal
import Winnow.Proofs.Store.Unwrapping
import Winnow.Proofs.Store.Views
import Winnow.Proofs.Text.Lines
import Winnow.Proofs.Text.Lowercase
import Winnow.Proofs.Text.Lowered
import Winnow.Proofs.Text.Split
import Winnow.Proofs.Text.Strip
import Winnow.Proofs.Url.Decode
import Winnow.Proofs.Url.Disguise
import Winnow.Proofs.Url.Reread
import Winnow.Proofs.Url.Written
import Winnow.Reference
import Winnow.Rule
import Winnow.RuleFile
import Winnow.Sanitize
import Winnow.Screen.Address
import Winnow.Screen.Document
import Winnow.Screen.Entity
import Winnow.Screen.Filter
import Winnow.Screen.Fragment
import Winnow.Screen.Names
import Winnow.Screen.Piece
import Winnow.Screen.Style
import Winnow.Screen.Writer
import Winnow.Text.Blank
import Winnow.Text.Digits
import Winnow.Text.Fixed
import Winnow.Text.Lines
import Winnow.Text.Lowercase
import Winnow.Text.Lowercase.Table
import Winnow.Text.Printable
import Winnow.Text.Quoted
import Winnow.Trimming
import Winnow.Url
import Winnow.Value
