import CodeSurvey.Cache.Basic
import CodeSurvey.Cache.Digest
import CodeSurvey.Cache.Key
import CodeSurvey.CallGraph
import CodeSurvey.CommandLine.Arguments
import CodeSurvey.CommandLine.Flag
import CodeSurvey.CommandLine.Help
import CodeSurvey.Config
import CodeSurvey.Config.Field
import CodeSurvey.Config.File
import CodeSurvey.Config.Loader
import CodeSurvey.Config.Running
import CodeSurvey.Config.Setting
import CodeSurvey.Config.Validation
import CodeSurvey.Documentation.NameWords
import CodeSurvey.Documentation.Template
import CodeSurvey.Documentation.Undocumented
import CodeSurvey.Error
import CodeSurvey.Features
import CodeSurvey.Grammar
import CodeSurvey.Grammar.Basic
import CodeSurvey.Grammar.Braced
import CodeSurvey.Grammar.Indented
import CodeSurvey.Grammar.Scripted
import CodeSurvey.Grammar.Typed
import CodeSurvey.Json.Basic
import CodeSurvey.Json.Order
import CodeSurvey.Json.Parser
import CodeSurvey.Json.Printer
import CodeSurvey.Json.Sorted
import CodeSurvey.Language
import CodeSurvey.Log
import CodeSurvey.Main
import CodeSurvey.Metric.Cognitive
import CodeSurvey.Metric.Complexity
import CodeSurvey.Metric.Decision
import CodeSurvey.Metric.Nesting
import CodeSurvey.Number.Amount
import CodeSurvey.Number.Binary
import CodeSurvey.Number.Decimal
import CodeSurvey.Number.Double
import CodeSurvey.Number.Numeral
import CodeSurvey.Number.Shortest
import CodeSurvey.Pattern.Basic
import CodeSurvey.Pattern.Match
import CodeSurvey.Performance.BracedRules
import CodeSurvey.Performance.Estimate
import CodeSurvey.Performance.Finding
import CodeSurvey.Performance.IndentedLoop
import CodeSurvey.Performance.IndentedRules
import CodeSurvey.Performance.Library
import CodeSurvey.Performance.LoopBody
import CodeSurvey.Performance.Optimization
import CodeSurvey.Performance.Report
import CodeSurvey.Performance.Rule
import CodeSurvey.Refactoring.Duplicate
import CodeSurvey.Refactoring.Opportunity
import CodeSurvey.Report
import CodeSurvey.Server.FileTree
import CodeSurvey.Server.Launch
import CodeSurvey.Server.Run
import CodeSurvey.Server.Telemetry
import CodeSurvey.Session
import CodeSurvey.Source.Block
import CodeSurvey.Source.Brackets
import CodeSurvey.Source.Element
import CodeSurvey.Source.Param
import CodeSurvey.Source.Routine
import CodeSurvey.Text.Base64
import CodeSurvey.Text.Basic
import CodeSurvey.Text.Blank
import CodeSurvey.Text.Case
import CodeSurvey.Text.CaseTable
import CodeSurvey.Text.Digit
import CodeSurvey.Text.Integer
import CodeSurvey.Text.Printable
import CodeSurvey.Text.Quoted
import CodeSurvey.Text.Symbol
import CodeSurvey.Text.Word
import CodeSurvey.Tool.Argument
import CodeSurvey.Tool.Call
import CodeSurvey.Tool.ErrorCall
import CodeSurvey.Tool.Result
import CodeSurvey.Trace
import CodeSurvey.Yaml.Document
import CodeSurvey.Yaml.Flaw
import CodeSurvey.Yaml.Graph
import CodeSurvey.Yaml.Kind
import CodeSurvey.Yaml.Lexer
import CodeSurvey.Yaml.Merge
import CodeSurvey.Yaml.Moment
import CodeSurvey.Yaml.Place
import CodeSurvey.Yaml.Reading
import CodeSurvey.Yaml.Scalar
import CodeSurvey.Yaml.Scheme
import CodeSurvey.Yaml.Token
import CodeSurvey.Yaml.Value
import CodeSurvey.Proofs.Cache.Key
import CodeSurvey.Proofs.Cache.Recency
import CodeSurvey.Proofs.Cache.Run
import CodeSurvey.Proofs.Cache.Safety
import CodeSurvey.Proofs.Cache.Step
import CodeSurvey.Proofs.CallGraph
import CodeSurvey.Proofs.Config.Loading
import CodeSurvey.Proofs.Config.Validation
import CodeSurvey.Proofs.Documentation.Comment
import CodeSurvey.Proofs.Documentation.NameWords
import CodeSurvey.Proofs.Metric.Additive
import CodeSurvey.Proofs.Metric.BraceBalance
import CodeSurvey.Proofs.Metric.Cognitive
import CodeSurvey.Proofs.Metric.Constructs
import CodeSurvey.Proofs.Metric.DoLoop
import CodeSurvey.Proofs.Metric.InPlace
import CodeSurvey.Proofs.Metric.Operator
import CodeSurvey.Proofs.Metric.Reindent
import CodeSurvey.Proofs.Pattern.Captured
import CodeSurvey.Proofs.Pattern.Every
import CodeSurvey.Proofs.Pattern.Excerpt
import CodeSurvey.Proofs.Pattern.First
import CodeSurvey.Proofs.Pattern.Line
import CodeSurvey.Proofs.Pattern.Narrow
import CodeSurvey.Proofs.Pattern.Outcomes
import CodeSurvey.Proofs.Pattern.Part
import CodeSurvey.Proofs.Pattern.Parts
import CodeSurvey.Proofs.Pattern.Plain
import CodeSurvey.Proofs.Pattern.Recall
import CodeSurvey.Proofs.Pattern.Seam
import CodeSurvey.Proofs.Pattern.Search
import CodeSurvey.Proofs.Pattern.Settle
import CodeSurvey.Proofs.Pattern.Spelling
import CodeSurvey.Proofs.Pattern.Stops
import CodeSurvey.Proofs.Pattern.Unnoticed
import CodeSurvey.Proofs.Pattern.Unrolled
import CodeSurvey.Proofs.Pattern.WholeWords
import CodeSurvey.Proofs.Pattern.Width
import CodeSurvey.Proofs.Pattern.Words
import CodeSurvey.Proofs.Performance.Disabled
import CodeSurvey.Proofs.Performance.FindingLines
import CodeSurvey.Proofs.Performance.LargeArrays
import CodeSurvey.Proofs.Performance.LoopBodies
import CodeSurvey.Proofs.Performance.LoopChain
import CodeSurvey.Proofs.Performance.LoopComment
import CodeSurvey.Proofs.Performance.LoopForest
import CodeSurvey.Proofs.Performance.LoopLines
import CodeSurvey.Proofs.Performance.LoopNesting
import CodeSurvey.Proofs.Performance.LoopRules
import CodeSurvey.Proofs.Performance.LoopSearch
import CodeSurvey.Proofs.Performance.PartTime
import CodeSurvey.Proofs.Performance.Recursion
import CodeSurvey.Proofs.Refactoring.Duplicate
import CodeSurvey.Proofs.Refactoring.Window
import CodeSurvey.Proofs.RoundTrip.Indented
import CodeSurvey.Proofs.RoundTrip.Params
import CodeSurvey.Proofs.RoundTrip.Scripted
import CodeSurvey.Proofs.RoundTrip.Signature
import CodeSurvey.Proofs.Server.CacheRoom
import CodeSurvey.Proofs.Session.Agreement
import CodeSurvey.Proofs.Session.Provenance
import CodeSurvey.Proofs.Session.Separation
import CodeSurvey.Proofs.Session.Staleness
import CodeSurvey.Proofs.Session.Transparency
import CodeSurvey.Proofs.Source.Block
import CodeSurvey.Proofs.Source.BlockEnd
import CodeSurvey.Proofs.Source.BlockTree
import CodeSurvey.Proofs.Source.BraceBody
import CodeSurvey.Proofs.Source.Brackets
import CodeSurvey.Proofs.Source.IndentedBody
import CodeSurvey.Proofs.Source.Method
import CodeSurvey.Proofs.Source.MethodName
import CodeSurvey.Proofs.Source.ParamText
import CodeSurvey.Proofs.Source.Pieces
import CodeSurvey.Proofs.Source.Placement
import CodeSurvey.Proofs.Source.SameSignature
import CodeSurvey.Proofs.Source.Spread
import CodeSurvey.Proofs.Source.Throws
import CodeSurvey.Proofs.Source.TopLevel
import CodeSurvey.Proofs.Text.Case
import CodeSurvey.Proofs.Text.LineCut
import CodeSurvey.Proofs.Text.Lines
import CodeSurvey.Proofs.Text.NameChars
import CodeSurvey.Proofs.Text.Reindented
import CodeSurvey.Proofs.Text.Trim
import CodeSurvey.Proofs.Text.Words
import CodeSurvey.Proofs.Trace
