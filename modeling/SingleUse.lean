import SingleUse.Analysis
import SingleUse.Binding
import SingleUse.Checksum
import SingleUse.Command.Arguments
import SingleUse.Command.Configure
import SingleUse.Command.Invocation
import SingleUse.Command.Lint
import SingleUse.Command.Program
import SingleUse.Command.World
import SingleUse.Diff.Matching
import SingleUse.Diff.Unified
import SingleUse.Discovery
import SingleUse.Edit
import SingleUse.Eligibility
import SingleUse.Error
import SingleUse.Exclusion
import SingleUse.Exclusions
import SingleUse.Glob
import SingleUse.Inline
import SingleUse.Json
import SingleUse.Json.Reader
import SingleUse.Language
import SingleUse.Main
import SingleUse.Occurrence
import SingleUse.Options
import SingleUse.Precedence
import SingleUse.Proofs.Attribution
import SingleUse.Proofs.Fitting
import SingleUse.Proofs.Registration
import SingleUse.Proofs.Relocation
import SingleUse.Proofs.Reporting
import SingleUse.Proofs.ScopeChain
import SingleUse.Proofs.Separation
import SingleUse.Proofs.Surroundings
import SingleUse.Proofs.Sweep
import SingleUse.Proofs.WellFormed
import SingleUse.Reference
import SingleUse.Registry
import SingleUse.Rule
import SingleUse.Scope
import SingleUse.Screening
import SingleUse.Settings.Basic
import SingleUse.Settings.Layer
import SingleUse.Settings.Reading
import SingleUse.Settings.Store
import SingleUse.SourcePath
import SingleUse.Symbols
import SingleUse.Text.Blank
import SingleUse.Text.Case
import SingleUse.Text.Cased
import SingleUse.Text.Digit
import SingleUse.Text.Encoding
import SingleUse.Text.Lines
import SingleUse.Text.Printable
import SingleUse.Text.Quoted
import SingleUse.Text.Range
import SingleUse.Text.Split
import SingleUse.Text.Utf8
import SingleUse.Traversal
import SingleUse.Tree.Basic
import SingleUse.Tree.Category
import SingleUse.Tree.Cursor
import SingleUse.Tree.Expression
import SingleUse.Tree.NodeType
import SingleUse.Tree.Pattern
import SingleUse.Value
import SingleUse.View.Basic
import SingleUse.View.Listing
import SingleUse.View.Render
import SingleUse.View.Summary
import SingleUse.Workspace
import SingleUse.Proofs.Splicing
import SingleUse.Proofs.Completion
import SingleUse.Proofs.Passes
import SingleUse.Proofs.Transcoding
import SingleUse.Proofs.Repeating
import SingleUse.Proofs.Visiting
import SingleUse.Proofs.Marking
import SingleUse.Proofs.Writing
import SingleUse.Proofs.Closures
import SingleUse.Proofs.Configuring
import SingleUse.Proofs.Construction
import SingleUse.Proofs.Entries
import SingleUse.Proofs.Changing
import SingleUse.Proofs.Layering
import SingleUse.Proofs.Relaxing
import SingleUse.Proofs.Grammar
import SingleUse.Proofs.Reading
import SingleUse.Proofs.Contexts
import SingleUse.Proofs.Parentheses
import SingleUse.Proofs.Routing
import SingleUse.Proofs.Totality
import SingleUse.Proofs.Freshness
import SingleUse.Proofs.Damage
import SingleUse.Proofs.Saving
import SingleUse.Proofs.Locating
import SingleUse.Proofs.Walking
import SingleUse.Proofs.Collecting
import SingleUse.Proofs.Checking
import SingleUse.Proofs.Rewriting
import SingleUse.Proofs.Firsts
import SingleUse.Proofs.Forests
import SingleUse.Proofs.Resolving
import SingleUse.Proofs.Reordering
import SingleUse.Proofs.Lines
import SingleUse.Proofs.Declarators
import SingleUse.Proofs.Fusion
import SingleUse.Proofs.Boundaries
import SingleUse.Proofs.Sifting
import SingleUse.Proofs.Introducing
import SingleUse.Proofs.Declaring
import SingleUse.Proofs.Ordering
import SingleUse.Proofs.Guards
import SingleUse.Proofs.Overriding
import SingleUse.Proofs.Numerals
import SingleUse.Proofs.Ignoring
import SingleUse.Proofs.Directories
import SingleUse.Proofs.Targets
import SingleUse.Proofs.Answering
import SingleUse.Proofs.Loading
