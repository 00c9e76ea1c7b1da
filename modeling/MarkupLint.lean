import MarkupLint.CommandLine.Command
import MarkupLint.CommandLine.Flags
import MarkupLint.CommandLine.Lint
import MarkupLint.CommandLine.Run
import MarkupLint.ConfigFile
import MarkupLint.Diagnosis
import MarkupLint.Documents
import MarkupLint.Duration
import MarkupLint.Engine
import MarkupLint.Failure
import MarkupLint.FileSystem
import MarkupLint.Json.Codec
import MarkupLint.Json.Reader
import MarkupLint.Json.Value
import MarkupLint.Json.Writer
import MarkupLint.LintOutput
import MarkupLint.Log
import MarkupLint.Main
import MarkupLint.Markup.Attribute
import MarkupLint.Markup.Outline
import MarkupLint.Markup.Source
import MarkupLint.Markup.Token
import MarkupLint.Number.Binary64
import MarkupLint.Number.Power
import MarkupLint.Number.Shortest
import MarkupLint.Number.Word
import MarkupLint.Path.Address
import MarkupLint.Path.Basic
import MarkupLint.Path.Glob
import MarkupLint.Path.Uri
import MarkupLint.Pattern.CharSet
import MarkupLint.Pattern.LineEntry
import MarkupLint.Pattern.LineFormat
import MarkupLint.Pattern.Property
import MarkupLint.Pattern.Reader
import MarkupLint.Pattern.Regex
import MarkupLint.Proofs.BannedNames
import MarkupLint.Proofs.CleanPath
import MarkupLint.Proofs.ClosedSettings
import MarkupLint.Proofs.CommandMarks
import MarkupLint.Proofs.ConfigChanges
import MarkupLint.Proofs.ConfigSearch
import MarkupLint.Proofs.Course
import MarkupLint.Proofs.DelimitedAttributes
import MarkupLint.Proofs.DiagnosticRanges
import MarkupLint.Proofs.Digits
import MarkupLint.Proofs.Duplicates
import MarkupLint.Proofs.EntryMessages
import MarkupLint.Proofs.FetchFailures
import MarkupLint.Proofs.FileChange
import MarkupLint.Proofs.FileEvents
import MarkupLint.Proofs.FileLinting
import MarkupLint.Proofs.FileTree
import MarkupLint.Proofs.FileUri
import MarkupLint.Proofs.GuardedLint
import MarkupLint.Proofs.GuardedPlaces
import MarkupLint.Proofs.GuardedScan
import MarkupLint.Proofs.IssueCodec
import MarkupLint.Proofs.IssuePlaces
import MarkupLint.Proofs.JsonTexts
import MarkupLint.Proofs.LeadingLines
import MarkupLint.Proofs.Lists
import MarkupLint.Proofs.LiveRuns
import MarkupLint.Proofs.MarkerSearch
import MarkupLint.Proofs.MarkupOffsets
import MarkupLint.Proofs.NamingStyles
import MarkupLint.Proofs.NumericOptions
import MarkupLint.Proofs.OptionKinds
import MarkupLint.Proofs.PassCourse
import MarkupLint.Proofs.PassOutcome
import MarkupLint.Proofs.PlaceOrder
import MarkupLint.Proofs.Places
import MarkupLint.Proofs.PublicationOrder
import MarkupLint.Proofs.RecordCodecs
import MarkupLint.Proofs.Revalidation
import MarkupLint.Proofs.RuleIndependence
import MarkupLint.Proofs.RuleReports
import MarkupLint.Proofs.ScanSteps
import MarkupLint.Proofs.ServerCourse
import MarkupLint.Proofs.SettingsCodec
import MarkupLint.Proofs.SettingsCourse
import MarkupLint.Proofs.SettingsFreshness
import MarkupLint.Proofs.SettingsOwners
import MarkupLint.Proofs.SingleFlight
import MarkupLint.Proofs.StaleResults
import MarkupLint.Proofs.StyleReports
import MarkupLint.Proofs.TokenEnds
import MarkupLint.Proofs.TokenPieces
import MarkupLint.Proofs.Tokenizer
import MarkupLint.Proofs.Utf8Reading
import MarkupLint.Proofs.VerbatimLines
import MarkupLint.Proofs.WatcherBatches
import MarkupLint.Proofs.WatcherSteps
import MarkupLint.Proofs.WrittenTags
import MarkupLint.Protocol.Diagnostic
import MarkupLint.Protocol.Document
import MarkupLint.Protocol.Progress
import MarkupLint.Protocol.Workspace
import MarkupLint.Rule.Config
import MarkupLint.Rule.Issue
import MarkupLint.Rule.Lint
import MarkupLint.Rule.Message
import MarkupLint.Rule.NameStyle
import MarkupLint.Rule.Options
import MarkupLint.Server.Frame
import MarkupLint.Server.Handle
import MarkupLint.Server.Message
import MarkupLint.Server.Settle
import MarkupLint.Server.State
import MarkupLint.Server.Step
import MarkupLint.Session.Basic
import MarkupLint.Session.Call
import MarkupLint.Session.Capabilities
import MarkupLint.Settings
import MarkupLint.Shell.Arithmetic
import MarkupLint.Shell.Builtin
import MarkupLint.Shell.Command
import MarkupLint.Shell.Condition
import MarkupLint.Shell.Editor
import MarkupLint.Shell.Expand
import MarkupLint.Shell.Expression
import MarkupLint.Shell.Files
import MarkupLint.Shell.Filter
import MarkupLint.Shell.Lines
import MarkupLint.Shell.Pattern
import MarkupLint.Shell.Print
import MarkupLint.Shell.Reader
import MarkupLint.Shell.Run
import MarkupLint.Shell.Search
import MarkupLint.Shell.State
import MarkupLint.Shell.Token
import MarkupLint.Shell.Utility
import MarkupLint.Shell.Word
import MarkupLint.Table
import MarkupLint.Text.Ascii
import MarkupLint.Text.Blank
import MarkupLint.Text.Bytes
import MarkupLint.Text.CaseFold
import MarkupLint.Text.Category
import MarkupLint.Text.CodeSet
import MarkupLint.Text.CommaList
import MarkupLint.Text.LowerCase
import MarkupLint.Text.Printable
import MarkupLint.Text.Quoted
import MarkupLint.Text.Script
import MarkupLint.Text.Utf8
import MarkupLint.Trigger
import MarkupLint.Validation.Pass
import MarkupLint.Validation.Workspace
import MarkupLint.Watcher
