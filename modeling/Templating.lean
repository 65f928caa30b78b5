import Templating.Build.AttributeName
import Templating.Build.Builder
import Templating.Build.Directives
import Templating.Cache
import Templating.Compile
import Templating.Diagnostic
import Templating.Dict
import Templating.Entity
import Templating.Expression.Filter
import Templating.Expression.Interpolation
import Templating.Expression.Lexical
import Templating.Expression.Loop
import Templating.Expression.Style
import Templating.Json
import Templating.Json.Reader
import Templating.Markup.Attribute
import Templating.Markup.Name
import Templating.Markup.Piece
import Templating.Markup.RawText
import Templating.Markup.Scan
import Templating.Markup.StartTag
import Templating.Markup.Token
import Templating.Memo
import Templating.Proofs.Build.Blanks
import Templating.Proofs.Build.Branches
import Templating.Proofs.Build.Chains
import Templating.Proofs.Build.Children
import Templating.Proofs.Build.Complete
import Templating.Proofs.Build.Finishing
import Templating.Proofs.Build.Growing
import Templating.Proofs.Build.Interpretation
import Templating.Proofs.Build.Invariant
import Templating.Proofs.Build.Opening
import Templating.Proofs.Build.Order
import Templating.Proofs.Build.Outline
import Templating.Proofs.Build.Places
import Templating.Proofs.Build.Preformatted
import Templating.Proofs.Build.Quiet
import Templating.Proofs.Build.Ranges
import Templating.Proofs.Build.Reading
import Templating.Proofs.Build.Recorded
import Templating.Proofs.Build.Registered
import Templating.Proofs.Build.Reports
import Templating.Proofs.Build.Sites
import Templating.Proofs.Build.Unreported
import Templating.Proofs.Build.Verbatim
import Templating.Proofs.Cache.Transparency
import Templating.Proofs.Diagnostic.Surroundings
import Templating.Proofs.Expression.FilterChain
import Templating.Proofs.Expression.LoopRoundTrip
import Templating.Proofs.Expression.QuotedLiteral
import Templating.Proofs.Expression.Splitting
import Templating.Proofs.Expression.StyleRoundTrip
import Templating.Proofs.Markup.AttributePlaces
import Templating.Proofs.Markup.Balance
import Templating.Proofs.Markup.Boundaries
import Templating.Proofs.Markup.Layout
import Templating.Proofs.Markup.Nesting
import Templating.Proofs.Markup.Pacing
import Templating.Proofs.Markup.Printing
import Templating.Proofs.Markup.Progress
import Templating.Proofs.Markup.RawContent
import Templating.Proofs.Markup.References
import Templating.Proofs.Markup.Reports
import Templating.Proofs.Markup.RoundTrip
import Templating.Proofs.Markup.Spelling
import Templating.Proofs.Markup.Tiling
import Templating.Proofs.Render.Bare
import Templating.Proofs.Render.Callbacks
import Templating.Proofs.Render.Collecting
import Templating.Proofs.Render.Counting
import Templating.Proofs.Render.Depth
import Templating.Proofs.Render.Emitted
import Templating.Proofs.Render.Entries
import Templating.Proofs.Render.EventNames
import Templating.Proofs.Render.Excluded
import Templating.Proofs.Render.Gathering
import Templating.Proofs.Render.Guards
import Templating.Proofs.Render.Hoisted
import Templating.Proofs.Render.Lifting
import Templating.Proofs.Render.Literals
import Templating.Proofs.Render.Lockstep
import Templating.Proofs.Render.Numbering
import Templating.Proofs.Render.Placing
import Templating.Proofs.Render.Plain
import Templating.Proofs.Render.Scope
import Templating.Proofs.Render.Tallies
import Templating.Proofs.Render.Trace
import Templating.Proofs.Static.Exact
import Templating.Proofs.Static.Hoisting
import Templating.Proofs.Static.Loops
import Templating.Proofs.Static.Repeated
import Templating.Proofs.Static.Steady
import Templating.Proofs.Text.StringLiteral
import Templating.Proofs.Tree.Content
import Templating.Proofs.Tree.DocumentOrder
import Templating.Proofs.Tree.Forest
import Templating.Proofs.Tree.Inside
import Templating.Render.Code
import Templating.Render.Data
import Templating.Render.Generator
import Templating.Render.Listener
import Templating.Settings
import Templating.Settings.Reader
import Templating.Static.Gap
import Templating.Static.Keys
import Templating.Static.Marking
import Templating.Tag.Content
import Templating.Tag.Web
import Templating.Text.Blank
import Templating.Text.Bytes
import Templating.Text.Case
import Templating.Text.CaseTable
import Templating.Text.Cut
import Templating.Text.Literal
import Templating.Text.Ranges
import Templating.Text.Visible
import Templating.Text.VisibleTable
import Templating.Text.Word
import Templating.Text.WordTable
import Templating.Tree.Basic
import Templating.Tree.Element
import Templating.Tree.Json
import Templating.Tree.Walk
