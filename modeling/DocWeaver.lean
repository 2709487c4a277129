import DocWeaver.Cli.App
import DocWeaver.Cli.Args
import DocWeaver.Cli.Clock
import DocWeaver.Cli.Help
import DocWeaver.Config.Json
import DocWeaver.Config.Value
import DocWeaver.Config.Manager
import DocWeaver.Config.Validate
import DocWeaver.Config.Yaml
import DocWeaver.Console.Cells
import DocWeaver.Console.Layout
import DocWeaver.Coverage.Verdict
import DocWeaver.Data.Json
import DocWeaver.Data.Slice
import DocWeaver.Extract.Context
import DocWeaver.Extract.Declarations
import DocWeaver.Files.Disk
import DocWeaver.Files.Path
import DocWeaver.Files.Walk
import DocWeaver.Generate.Anthropic
import DocWeaver.Generate.Client
import DocWeaver.Generate.Prompt
import DocWeaver.Hosting.GitHub
import DocWeaver.Hosting.PatchRanges
import DocWeaver.Main
import DocWeaver.Model.Change
import DocWeaver.Model.Config
import DocWeaver.Model.Declaration
import DocWeaver.Model.Json
import DocWeaver.Model.Run
import DocWeaver.Numeric.Binary64
import DocWeaver.Patch.Comment
import DocWeaver.Patch.Edit
import DocWeaver.Patch.Writer
import DocWeaver.Pipeline.Run
import DocWeaver.Pipeline.Sink
import DocWeaver.Report.Markdown
import DocWeaver.Syntax.ErrorSite
import DocWeaver.Syntax.Grammar
import DocWeaver.Syntax.Outline
import DocWeaver.Syntax.Program
import DocWeaver.Syntax.Reader
import DocWeaver.Syntax.Scan
import DocWeaver.Syntax.Types
import DocWeaver.Text.Base64
import DocWeaver.Text.Blank
import DocWeaver.Text.Diff
import DocWeaver.Text.Digits
import DocWeaver.Text.Glob
import DocWeaver.Text.Lines
import DocWeaver.Text.LineTable
import DocWeaver.Text.Numbers
import DocWeaver.Text.Quote
import DocWeaver.Text.Utf8
import DocWeaver.Proofs.Patch.Splice
import DocWeaver.Proofs.Extract.DocumentOrder
import DocWeaver.Proofs.Patch.Disjoint
import DocWeaver.Proofs.Patch.ReadBack
import DocWeaver.Proofs.Generate.Results
import DocWeaver.Proofs.Pipeline.FilePatch
import DocWeaver.Proofs.Text.LineNumbers
import DocWeaver.Proofs.Text.Utf8RoundTrip
import DocWeaver.Proofs.Extract.RangeLines
import DocWeaver.Proofs.Coverage.IncrementalScope
import DocWeaver.Proofs.Text.SplitOn
import DocWeaver.Proofs.Pipeline.RunErrors
import DocWeaver.Proofs.Text.CharOffsets
import DocWeaver.Proofs.Extract.WellFormed
import DocWeaver.Proofs.Generate.Steps
import DocWeaver.Proofs.Generate.Books
import DocWeaver.Proofs.Generate.RunContract
import DocWeaver.Proofs.Text.LineBreaks
import DocWeaver.Proofs.Generate.CleanText
import DocWeaver.Proofs.Patch.CommentRoundTrip
import DocWeaver.Proofs.Generate.RetryPolicy
import DocWeaver.Proofs.Files.WalkPaths
import DocWeaver.Proofs.Pipeline.Accounting
import DocWeaver.Proofs.Pipeline.FailureReport
import DocWeaver.Proofs.Text.AsciiBytes
import DocWeaver.Proofs.Extract.ContextWindow
import DocWeaver.Proofs.Pipeline.PublishProtocol
import DocWeaver.Proofs.Extract.Anchors
import DocWeaver.Proofs.Patch.TextSplice
import DocWeaver.Proofs.Patch.LineEndings
import DocWeaver.Proofs.Hosting.Refusals
import DocWeaver.Proofs.Config.Entries
import DocWeaver.Proofs.Config.Failures
import DocWeaver.Proofs.Config.Layers
import DocWeaver.Proofs.Pipeline.DryRun
import DocWeaver.Proofs.Hosting.MergedRanges
import DocWeaver.Proofs.Hosting.PullRequestFiles
import DocWeaver.Proofs.Files.WalkOrder
import DocWeaver.Proofs.Report.SummaryLayout
import DocWeaver.Proofs.Pipeline.Summary
