import PathRules.Text
import PathRules.Text.Letters
import PathRules.Glob.Token
import PathRules.Glob.Source
import PathRules.Glob.Frontier
import PathRules.Glob.Covering
import PathRules.Glob.Matcher
import PathRules.Glob.Cache
import PathRules.Frontmatter
import PathRules.ChangedFiles
import PathRules.Path
import PathRules.Fault
import PathRules.Notice
import PathRules.Log.Pattern
import PathRules.Log
import PathRules.Disk
import PathRules.Plan
import PathRules.Document
import PathRules.RulesLocation
import PathRules.Selection
import PathRules.Toml.Value
import PathRules.Toml.Draft
import PathRules.Toml.Reader
import PathRules.Toml.Number
import PathRules.Toml.Quoted
import PathRules.Toml.Settled
import PathRules.Toml.Document
import PathRules.Config
import PathRules.Report.Markdown
import PathRules.Report.Json
import PathRules.Arguments
import PathRules.Session
import PathRules.Main
import PathRules.Proofs.Outcomes
import PathRules.Proofs.Text.ByteOrder
import PathRules.Proofs.Text.Keyed
import PathRules.Proofs.Text.Splitting
import PathRules.Proofs.Text.Lines
import PathRules.Proofs.Glob.Cutting
import PathRules.Proofs.Glob.Memory
import PathRules.Proofs.Glob.Scanning
import PathRules.Proofs.Glob.Joining
import PathRules.Proofs.Glob.Exchange
import PathRules.Proofs.Glob.Segments
import PathRules.Proofs.Glob.Meaning
import PathRules.Proofs.Glob.Expression
import PathRules.Proofs.Glob.ReadBack
import PathRules.Proofs.Glob.Decoding
import PathRules.Proofs.Document.Search
import PathRules.Proofs.Frontmatter.Stages
import PathRules.Proofs.Frontmatter.Block
import PathRules.Proofs.Frontmatter.Layout
import PathRules.Proofs.Document.FirstMatch
import PathRules.Proofs.ChangedFiles.Acceptance
import PathRules.Proofs.Text.LineEnds
import PathRules.Proofs.Frontmatter.Blanks
import PathRules.Proofs.Frontmatter.CarriageReturns
import PathRules.Proofs.ChangedFiles.Listing
import PathRules.Proofs.Json.Grammar
import PathRules.Proofs.Json.Layout
import PathRules.Proofs.Report.Json
import PathRules.Proofs.Report.Markdown
import PathRules.Proofs.Plan.Result
import PathRules.Proofs.Selection.Discovery
import PathRules.Proofs.Disk.Entries
import PathRules.Proofs.Disk.Rearranged
import PathRules.Proofs.Selection.Listing
import PathRules.Proofs.Selection.Division
import PathRules.Proofs.Selection.Union
import PathRules.Proofs.Toml.Keys
import PathRules.Proofs.Toml.Settling
import PathRules.Proofs.Config.Lookup
import PathRules.Proofs.Config.Repository
import PathRules.Proofs.Config.Settings
import PathRules.Proofs.Config.RulesTable
import PathRules.Proofs.Config.Reading
import PathRules.Proofs.Config.Overrides
import PathRules.Proofs.Selection.Extensions
import PathRules.Proofs.Arguments.ConfigOption
import PathRules.Proofs.Arguments.Words
import PathRules.Proofs.Arguments.Steps
import PathRules.Proofs.Arguments.Environment
import PathRules.Proofs.Arguments.Arrangement
import PathRules.Proofs.Session.Stages
import PathRules.Proofs.Session.Success
import PathRules.Proofs.Session.Failure
import PathRules.Proofs.Session.Overriding
import PathRules.Proofs.Selection.Extensions
