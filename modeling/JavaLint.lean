import JavaLint.Analyzer
import JavaLint.Canonical
import JavaLint.Check.Concatenation
import JavaLint.Check.Convention
import JavaLint.Check.Defect
import JavaLint.Check.Efficiency
import JavaLint.Check.Method
import JavaLint.Check.Security
import JavaLint.Check.Wording
import JavaLint.CommandLine.Command
import JavaLint.CommandLine.Grammar
import JavaLint.CommandLine.Run
import JavaLint.Config
import JavaLint.FileSystem.Basic
import JavaLint.FileSystem.Discovery
import JavaLint.FileSystem.Edit
import JavaLint.Http.Body
import JavaLint.Http.Cors
import JavaLint.Http.Message
import JavaLint.Http.Server
import JavaLint.Issue
import JavaLint.Json.Basic
import JavaLint.Json.Literal
import JavaLint.Json.Printer
import JavaLint.Json.Reader
import JavaLint.Loading
import JavaLint.Log
import JavaLint.Main
import JavaLint.Numeral.Binary64
import JavaLint.Numeral.Integer
import JavaLint.Numeral.Shortest
import JavaLint.Path
import JavaLint.Proofs.Acceptance
import JavaLint.Proofs.CanonicalText
import JavaLint.Proofs.ChainShape
import JavaLint.Proofs.CipherComponents
import JavaLint.Proofs.CommandEffects
import JavaLint.Proofs.CommandReading
import JavaLint.Proofs.CommentFree
import JavaLint.Proofs.CommentRemoval
import JavaLint.Proofs.ConcatChain
import JavaLint.Proofs.Digits
import JavaLint.Proofs.DirectoryAnalysis
import JavaLint.Proofs.Discovery
import JavaLint.Proofs.Displacement
import JavaLint.Proofs.DocumentOrder
import JavaLint.Proofs.DocumentVerdict
import JavaLint.Proofs.Encoding
import JavaLint.Proofs.ErrorPosition
import JavaLint.Proofs.FileRanking
import JavaLint.Proofs.FileWriting
import JavaLint.Proofs.Findings
import JavaLint.Proofs.Grouping
import JavaLint.Proofs.Isolation
import JavaLint.Proofs.IssueListing
import JavaLint.Proofs.IssueOrder
import JavaLint.Proofs.LeadingOptions
import JavaLint.Proofs.LossyReading
import JavaLint.Proofs.MemberOrder
import JavaLint.Proofs.MethodLength
import JavaLint.Proofs.MissingOperands
import JavaLint.Proofs.NestedBodies
import JavaLint.Proofs.NullMentions
import JavaLint.Proofs.Outcome
import JavaLint.Proofs.PageMarkup
import JavaLint.Proofs.PageTemplate
import JavaLint.Proofs.PathAnalysis
import JavaLint.Proofs.Positions
import JavaLint.Proofs.ReadBack
import JavaLint.Proofs.RegistryCheck
import JavaLint.Proofs.ReplacedBytes
import JavaLint.Proofs.ReportFile
import JavaLint.Proofs.Resolution
import JavaLint.Proofs.ReviewContract
import JavaLint.Proofs.ReviewRefusal
import JavaLint.Proofs.RuleIdentifier
import JavaLint.Proofs.SearchBound
import JavaLint.Proofs.SearchPatterns
import JavaLint.Proofs.SecretContent
import JavaLint.Proofs.ServiceAgreement
import JavaLint.Proofs.StableOrder
import JavaLint.Proofs.SummaryCounts
import JavaLint.Proofs.TextSearch
import JavaLint.Proofs.Traversals
import JavaLint.Proofs.UnsizedFields
import JavaLint.Proofs.WholeWords
import JavaLint.Review.Basic
import JavaLint.Review.Document
import JavaLint.Review.Export
import JavaLint.Review.Html
import JavaLint.Review.IssueDocument
import JavaLint.Review.Markdown
import JavaLint.Review.Summary
import JavaLint.Rule
import JavaLint.Rule.Identifier
import JavaLint.Rule.Registry
import JavaLint.Schema.Basic
import JavaLint.Schema.Catalog
import JavaLint.Schema.Violation
import JavaLint.Service
import JavaLint.Settings
import JavaLint.Snapshot
import JavaLint.Text.Base64
import JavaLint.Text.Blank
import JavaLint.Text.Caseless
import JavaLint.Text.DecimalDigit
import JavaLint.Text.Lowercase
import JavaLint.Text.Printable
import JavaLint.Text.Quoted
import JavaLint.Text.Range
import JavaLint.Text.Search
import JavaLint.Text.Template
import JavaLint.Text.Utf8
import JavaLint.Text.Word
import JavaLint.Tree.Node
import JavaLint.Tree.Parse
import JavaLint.Tree.Rows
import JavaLint.Tree.Source
import JavaLint.Tree.Walk
import JavaLint.Validation
import JavaLint.Workers
