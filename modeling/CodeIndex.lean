import CodeIndex.Command.Arguments
import CodeIndex.Command.Run
import CodeIndex.Disk
import CodeIndex.Effect
import CodeIndex.Error
import CodeIndex.Index.Action
import CodeIndex.Index.Cache
import CodeIndex.Index.Document
import CodeIndex.Index.Loading
import CodeIndex.Index.TokenCount
import CodeIndex.Json.Compact
import CodeIndex.Json.Literal
import CodeIndex.Json.Reader
import CodeIndex.Json.Text
import CodeIndex.Json.Value
import CodeIndex.Language.Blocks
import CodeIndex.Language.Name
import CodeIndex.Lookup.ByPath
import CodeIndex.Lookup.Comparison
import CodeIndex.Lookup.InDocument
import CodeIndex.Main
import CodeIndex.Number.Binary
import CodeIndex.Number.Decimal
import CodeIndex.Number.Numeral
import CodeIndex.Number.Shortest
import CodeIndex.Path
import CodeIndex.Proofs.Action.Alike
import CodeIndex.Proofs.Action.Batch
import CodeIndex.Proofs.Action.Blameless
import CodeIndex.Proofs.Action.Loading
import CodeIndex.Proofs.Action.Local
import CodeIndex.Proofs.Action.Outcome
import CodeIndex.Proofs.Action.Tokens
import CodeIndex.Proofs.Action.Unloaded
import CodeIndex.Proofs.Cache.Commuting
import CodeIndex.Proofs.Cache.Detection
import CodeIndex.Proofs.Cache.History
import CodeIndex.Proofs.Cache.Inline
import CodeIndex.Proofs.Cache.Parsing
import CodeIndex.Proofs.Cache.Reparse
import CodeIndex.Proofs.Cache.Spelling
import CodeIndex.Proofs.Cache.Stages
import CodeIndex.Proofs.Cache.Use
import CodeIndex.Proofs.Cache.Verbatim
import CodeIndex.Proofs.Command.Run
import CodeIndex.Proofs.Disk
import CodeIndex.Proofs.Json.Ascii
import CodeIndex.Proofs.Json.Compact
import CodeIndex.Proofs.Json.Grammar
import CodeIndex.Proofs.Json.Reading
import CodeIndex.Proofs.Json.RoundTrip
import CodeIndex.Proofs.Json.Size
import CodeIndex.Proofs.Language.Choice
import CodeIndex.Proofs.Language.Detection
import CodeIndex.Proofs.Language.Name
import CodeIndex.Proofs.Language.NormalForm
import CodeIndex.Proofs.Lookup.Capture
import CodeIndex.Proofs.Lookup.Comparison
import CodeIndex.Proofs.Lookup.Element
import CodeIndex.Proofs.Lookup.Enclosing
import CodeIndex.Proofs.Path.Canonical
import CodeIndex.Proofs.Registry.Batch
import CodeIndex.Proofs.Registry.Coherence
import CodeIndex.Proofs.Registry.Idle
import CodeIndex.Proofs.Registry.LoadOnce
import CodeIndex.Proofs.Registry.Progress
import CodeIndex.Proofs.Registry.Retry
import CodeIndex.Proofs.Registry.Steady
import CodeIndex.Proofs.Session.Indifference
import CodeIndex.Proofs.Session.Naming
import CodeIndex.Proofs.Session.Reachable
import CodeIndex.Proofs.Session.Soundness
import CodeIndex.Proofs.Session.Steady
import CodeIndex.Proofs.Syntax.Build
import CodeIndex.Proofs.Syntax.Descent
import CodeIndex.Proofs.Syntax.Dump
import CodeIndex.Proofs.Syntax.Faithful
import CodeIndex.Proofs.Syntax.Listing
import CodeIndex.Proofs.Syntax.Outline
import CodeIndex.Proofs.Syntax.Thin
import CodeIndex.Proofs.Syntax.Visit
import CodeIndex.Proofs.Text.Newline
import CodeIndex.Proofs.Text.Strict
import CodeIndex.Proofs.Text.Utf8
import CodeIndex.Proofs.Tool.Boundary
import CodeIndex.Proofs.Tool.Function
import CodeIndex.Proofs.Tool.Report
import CodeIndex.Proofs.Tool.Usage
import CodeIndex.Proofs.Tool.Validation
import CodeIndex.Registry
import CodeIndex.Session
import CodeIndex.Settings
import CodeIndex.Syntax.Build
import CodeIndex.Syntax.Concrete
import CodeIndex.Syntax.Dump
import CodeIndex.Syntax.Listing
import CodeIndex.Syntax.Node
import CodeIndex.Syntax.Thin
import CodeIndex.Syntax.Traversal
import CodeIndex.Syntax.Tree
import CodeIndex.Table
import CodeIndex.Text.Case
import CodeIndex.Text.CaseTable
import CodeIndex.Text.PrintableTable
import CodeIndex.Text.Quoted
import CodeIndex.Text.Space
import CodeIndex.Text.Utf8
import CodeIndex.Tool.Answer
import CodeIndex.Tool.Boundary
import CodeIndex.Tool.Function
import CodeIndex.Tool.Request
