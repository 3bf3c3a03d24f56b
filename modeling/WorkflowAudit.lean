import WorkflowAudit.CommandLine.Arguments
import WorkflowAudit.CommandLine.Command
import WorkflowAudit.CommandLine.Response
import WorkflowAudit.Decimal.Binary64
import WorkflowAudit.Definition.Basic
import WorkflowAudit.Definition.Reading
import WorkflowAudit.Digest.Sha256
import WorkflowAudit.Exceptions
import WorkflowAudit.Fault
import WorkflowAudit.Glob.Basic
import WorkflowAudit.Glob.Reader
import WorkflowAudit.Glob.Set
import WorkflowAudit.Json.Basic
import WorkflowAudit.Json.Record
import WorkflowAudit.Main
import WorkflowAudit.Pattern.Compiler
import WorkflowAudit.Pattern.Screen
import WorkflowAudit.Policy.Basic
import WorkflowAudit.Policy.BuiltIn
import WorkflowAudit.Policy.Encoding
import WorkflowAudit.Policy.Reading
import WorkflowAudit.Policy.Validation
import WorkflowAudit.Reference
import WorkflowAudit.Regex.Basic
import WorkflowAudit.Regex.Class
import WorkflowAudit.Regex.Compiled
import WorkflowAudit.Regex.Encoding
import WorkflowAudit.Regex.Escape
import WorkflowAudit.Regex.Fault
import WorkflowAudit.Regex.Flags
import WorkflowAudit.Regex.Literals
import WorkflowAudit.Regex.Matching
import WorkflowAudit.Regex.NormalForm
import WorkflowAudit.Regex.Program
import WorkflowAudit.Regex.Reader
import WorkflowAudit.Regex.Size
import WorkflowAudit.Report.Basic
import WorkflowAudit.Report.Decision
import WorkflowAudit.Repository.Audit
import WorkflowAudit.Repository.Configuration
import WorkflowAudit.Repository.Discovery
import WorkflowAudit.Repository.Tree
import WorkflowAudit.Scan.Content
import WorkflowAudit.Scan.Preparation
import WorkflowAudit.Scan.References
import WorkflowAudit.Scan.Scanner
import WorkflowAudit.Scan.Workflow
import WorkflowAudit.Text.Ascii
import WorkflowAudit.Text.Blank
import WorkflowAudit.Text.Pieces
import WorkflowAudit.Unicode.Age
import WorkflowAudit.Unicode.CaseFolding
import WorkflowAudit.Unicode.CharSet
import WorkflowAudit.Unicode.GeneralCategory
import WorkflowAudit.Unicode.Property
import WorkflowAudit.Unicode.Script
import WorkflowAudit.Unicode.Segmentation
import WorkflowAudit.Verification.Ladder
import WorkflowAudit.Verification.Overlap
import WorkflowAudit.Verification.Script
import WorkflowAudit.Verification.Settings
import WorkflowAudit.Verification.Verdict
import WorkflowAudit.Violation.Basic
import WorkflowAudit.Violation.Encoding
import WorkflowAudit.Yaml.Cursor
import WorkflowAudit.Yaml.Lexer
import WorkflowAudit.Yaml.Node
import WorkflowAudit.Yaml.Number
import WorkflowAudit.Yaml.Outline
import WorkflowAudit.Yaml.Problem
import WorkflowAudit.Yaml.Record
import WorkflowAudit.Yaml.Scalar
import WorkflowAudit.Yaml.Token
import WorkflowAudit.Yaml.Value
import WorkflowAudit.Proofs.Verification.SequentialRun
import WorkflowAudit.Proofs.Verification.SharedFlight
import WorkflowAudit.Proofs.Reference.Remote
import WorkflowAudit.Proofs.Reference.Grammar
import WorkflowAudit.Proofs.Reference.Image
import WorkflowAudit.Proofs.Verification.KeptAnswers
import WorkflowAudit.Proofs.Scan.Inquiry
import WorkflowAudit.Proofs.Scan.StrictRun
import WorkflowAudit.Proofs.Regex.Escape
import WorkflowAudit.Proofs.Pattern.ClassExtent
import WorkflowAudit.Proofs.Regex.Repetition
import WorkflowAudit.Proofs.Regex.Layout
import WorkflowAudit.Proofs.Regex.LocalClass
import WorkflowAudit.Proofs.Regex.LocalReading
import WorkflowAudit.Proofs.Regex.OrderedBounds
import WorkflowAudit.Proofs.Regex.Semantics
import WorkflowAudit.Proofs.Regex.Threads
import WorkflowAudit.Proofs.Pattern.Lexemes
import WorkflowAudit.Proofs.Pattern.NestedRepetition
import WorkflowAudit.Proofs.Report.Dealing
import WorkflowAudit.Proofs.Scan.Findings
import WorkflowAudit.Proofs.Scan.Tolerance
import WorkflowAudit.Proofs.Scan.Independence
import WorkflowAudit.Proofs.Pattern.VerboseNesting
import WorkflowAudit.Proofs.Verification.ReducedKeys
import WorkflowAudit.Proofs.Scan.Transparency
import WorkflowAudit.Proofs.Definition.References
import WorkflowAudit.Proofs.CommandLine.Check
import WorkflowAudit.Proofs.Verification.Rereading
import WorkflowAudit.Proofs.Scan.FailedAnswers
import WorkflowAudit.Proofs.Scan.OneRule
import WorkflowAudit.Proofs.Scan.FirstSteps
import WorkflowAudit.Proofs.Scan.RiskyTriggers
import WorkflowAudit.Proofs.Scan.PinnedImages
import WorkflowAudit.Proofs.Pattern.PatternTree
import WorkflowAudit.Proofs.Regex.Enclosing
import WorkflowAudit.Proofs.Pattern.Enclosing
import WorkflowAudit.Proofs.Scan.Allowance
import WorkflowAudit.Proofs.Definition.Places
import WorkflowAudit.Proofs.Scan.DocumentOrder
import WorkflowAudit.Proofs.Definition.Fields
import WorkflowAudit.Proofs.Scan.SearchedFields
import WorkflowAudit.Proofs.Scan.RejectedEntries
import WorkflowAudit.Proofs.Scan.Unverified
import WorkflowAudit.Proofs.Scan.Batches
import WorkflowAudit.Proofs.Scan.FirstOccurrences
import WorkflowAudit.Proofs.Scan.Questions
import WorkflowAudit.Proofs.Scan.FirstScan
import WorkflowAudit.Proofs.Scan.Attribution
import WorkflowAudit.Proofs.Scan.UploadedPaths
import WorkflowAudit.Proofs.Violation.Fingerprints
import WorkflowAudit.Proofs.Text.Numerals
import WorkflowAudit.Proofs.Decimal.Shortest
import WorkflowAudit.Proofs.Yaml.NumberText
import WorkflowAudit.Proofs.Definition.Spellings
import WorkflowAudit.Proofs.Definition.Lookup
import WorkflowAudit.Proofs.Definition.JobIds
import WorkflowAudit.Proofs.Definition.Triggers
import WorkflowAudit.Proofs.Table
import WorkflowAudit.Proofs.Outcome
import WorkflowAudit.Proofs.Text.ByteOrder
import WorkflowAudit.Proofs.Repository.Paths
import WorkflowAudit.Proofs.Repository.Discovery
import WorkflowAudit.Proofs.Pattern.WellNested
import WorkflowAudit.Proofs.Yaml.Records
import WorkflowAudit.Proofs.Yaml.Scalars
import WorkflowAudit.Proofs.Yaml.JsonValues
import WorkflowAudit.Proofs.Yaml.JsonReaders
import WorkflowAudit.Proofs.Exceptions
import WorkflowAudit.Proofs.Policy.Reading
import WorkflowAudit.Proofs.Policy.Misspelling
import WorkflowAudit.Proofs.Policy.RoundTrip
import WorkflowAudit.Proofs.Pattern.Positions
import WorkflowAudit.Proofs.CommandLine.Mode
import WorkflowAudit.Proofs.Json.Rendering
import WorkflowAudit.Proofs.Json.SortedKeys
import WorkflowAudit.Proofs.Report.Document
import WorkflowAudit.Proofs.CommandLine.TextReport
