import LintReport.CommandLine.Ending
import LintReport.CommandLine.Grammar
import LintReport.CommandLine.Help
import LintReport.CommandLine.Lint
import LintReport.CommandLine.Post
import LintReport.CommandLine.Reading
import LintReport.Comment.Body
import LintReport.Comment.Results
import LintReport.Diagnostic
import LintReport.Engine.Command
import LintReport.Engine.Configuration
import LintReport.Engine.Launch
import LintReport.Engine.Report
import LintReport.Engine.Script
import LintReport.Environment
import LintReport.FileTree
import LintReport.FileTree.Copy
import LintReport.FileTree.Make
import LintReport.GitHub.Client
import LintReport.GitHub.Comments
import LintReport.GitHub.Connection
import LintReport.GitHub.Request
import LintReport.Issue.Basic
import LintReport.Issue.Exclusion
import LintReport.Issue.Normalize
import LintReport.Issue.Output
import LintReport.Issue.Tally
import LintReport.Json.Basic
import LintReport.Json.Display
import LintReport.Json.Fault
import LintReport.Json.Parser
import LintReport.Json.Printer
import LintReport.Main
import LintReport.Markdown.Badge
import LintReport.Markdown.Details
import LintReport.Markdown.Link
import LintReport.Number.Binary64
import LintReport.Number.Numeral
import LintReport.Number.Power
import LintReport.Number.Quantity
import LintReport.Number.Shortest
import LintReport.Path
import LintReport.Proofs.CommandLine.Posting
import LintReport.Proofs.Comment.Numbers
import LintReport.Proofs.Effects
import LintReport.Proofs.Loop
import LintReport.Proofs.FileTree.Append
import LintReport.Proofs.FileTree.Copying
import LintReport.Proofs.FileTree.Looking
import LintReport.Proofs.FileTree.Making
import LintReport.Proofs.FileTree.Paths
import LintReport.Proofs.FileTree.Tree
import LintReport.Proofs.GitHub.Address
import LintReport.Proofs.GitHub.Backoff
import LintReport.Proofs.GitHub.Desk
import LintReport.Proofs.GitHub.Exchange
import LintReport.Proofs.GitHub.GarbledListing
import LintReport.Proofs.GitHub.Listing
import LintReport.Proofs.GitHub.LostReplies
import LintReport.Proofs.GitHub.Pages
import LintReport.Proofs.GitHub.Scheme
import LintReport.Proofs.GitHub.Service
import LintReport.Proofs.GitHub.SingleComment
import LintReport.Proofs.GitHub.Talk
import LintReport.Proofs.GitHub.Upserting
import LintReport.Proofs.Issue.Groups
import LintReport.Proofs.Issue.Normal
import LintReport.Proofs.Json.Blank
import LintReport.Proofs.Json.Integer
import LintReport.Proofs.Json.Layout
import LintReport.Proofs.Json.Quoted
import LintReport.Proofs.Json.RoundTrip
import LintReport.Proofs.Report.Commands
import LintReport.Proofs.Report.Delivery
import LintReport.Proofs.Report.ReadBack
import LintReport.Proofs.Report.Selection
import LintReport.Proofs.Report.Verdict
import LintReport.Proofs.Text.Blank
import LintReport.Proofs.Text.Lines
import LintReport.Proofs.Text.Utf8
import LintReport.Rules.Catalogue
import LintReport.Rules.Language
import LintReport.Rules.Packaged
import LintReport.Rules.Vendor
import LintReport.Scan
import LintReport.Session
import LintReport.Settings
import LintReport.Text.Blank
import LintReport.Text.Case
import LintReport.Text.Collection
import LintReport.Text.Digit
import LintReport.Text.Hex
import LintReport.Text.Line
import LintReport.Text.Markup
import LintReport.Text.Percent
import LintReport.Text.Plural
import LintReport.Text.Printable
import LintReport.Text.Quoted
import LintReport.Text.Utf8
import LintReport.WorkflowCommand
import LintReport.Yaml.Base64
import LintReport.Yaml.Calendar
import LintReport.Yaml.Character
import LintReport.Yaml.Cursor
import LintReport.Yaml.Display
import LintReport.Yaml.Document
import LintReport.Yaml.Fault
import LintReport.Yaml.Load
import LintReport.Yaml.Node
import LintReport.Yaml.Scalar
import LintReport.Yaml.Tag
import LintReport.Yaml.Token
import LintReport.Yaml.Token.Block
import LintReport.Yaml.Token.Lexer
import LintReport.Yaml.Token.Plain
import LintReport.Yaml.Token.Quoted
import LintReport.Yaml.Token.Tag
import LintReport.Yaml.Value
import LintReport.Proofs.Scan.Configured
import LintReport.Proofs.Rules.Discovery
import LintReport.Proofs.Rules.Copied
import LintReport.Proofs.Rules.Vendored
import LintReport.Proofs.GitHub.EarlyStop
import LintReport.Proofs.CommandLine.Preview
import LintReport.Proofs.CommandLine.Unreadable
import LintReport.Proofs.GitHub.AnyPath
import LintReport.Proofs.GitHub.Retries
import LintReport.Proofs.Comment.Sections
import LintReport.Proofs.Issue.Usable
import LintReport.Proofs.Engine.Guard
import LintReport.Proofs.Rules.Revendored
import LintReport.Proofs.Text.Percent
import LintReport.Proofs.Markdown.Link
import LintReport.Proofs.Issue.FirstOccurrences
import LintReport.Proofs.Issue.Exclusion
import LintReport.Proofs.Rules.Faults
import LintReport.Proofs.CommandLine.RuleFaults
import LintReport.Proofs.Comment.Structure
import LintReport.Proofs.Issue.Partition
import LintReport.Proofs.Number.Order
import LintReport.Proofs.Number.NotANumber
import LintReport.Proofs.Settings.Timeout
import LintReport.Proofs.CommandLine.Refusals
import LintReport.Proofs.Rules.Contents
import LintReport.Proofs.Rules.Additions
