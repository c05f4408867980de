import RuleService.Context
import RuleService.Double.Arithmetic
import RuleService.Double.Basic
import RuleService.Double.Format
import RuleService.Double.Numeral
import RuleService.Double.Shortest
import RuleService.Engine
import RuleService.Equipment
import RuleService.Evaluation
import RuleService.Failure
import RuleService.Http.AccessLog
import RuleService.Http.Arrival
import RuleService.Http.Call
import RuleService.Http.Form
import RuleService.Http.Headers
import RuleService.Http.Peer
import RuleService.Http.Reply
import RuleService.Http.Server
import RuleService.Http.Status
import RuleService.Http.Uri
import RuleService.Json.Basic
import RuleService.Json.Fault
import RuleService.Json.Printer
import RuleService.Json.Reader
import RuleService.Json.Record
import RuleService.Launch.CommandLine
import RuleService.Launch.Log
import RuleService.Launch.Settings
import RuleService.Launch.Startup
import RuleService.Launch.Watch
import RuleService.Main
import RuleService.Named
import RuleService.Placeholder
import RuleService.Proofs.Addresses
import RuleService.Proofs.Bindings
import RuleService.Proofs.Breakdown
import RuleService.Proofs.Calls
import RuleService.Proofs.Changes
import RuleService.Proofs.Commit
import RuleService.Proofs.Configuration
import RuleService.Proofs.Confinement
import RuleService.Proofs.Conversion
import RuleService.Proofs.Counting
import RuleService.Proofs.Course
import RuleService.Proofs.Cutting
import RuleService.Proofs.Exactness
import RuleService.Proofs.Expands
import RuleService.Proofs.FirstMatch
import RuleService.Proofs.Handles
import RuleService.Proofs.HeaderMap
import RuleService.Proofs.Interpolation
import RuleService.Proofs.Journal
import RuleService.Proofs.Keeping
import RuleService.Proofs.Loading
import RuleService.Proofs.Matching
import RuleService.Proofs.Numerals
import RuleService.Proofs.Omission
import RuleService.Proofs.Outcome
import RuleService.Proofs.Oversize
import RuleService.Proofs.Overtaking
import RuleService.Proofs.Parts
import RuleService.Proofs.Pieces
import RuleService.Proofs.Placeholders
import RuleService.Proofs.Provenance
import RuleService.Proofs.Reach
import RuleService.Proofs.Reading
import RuleService.Proofs.Records
import RuleService.Proofs.Repetition
import RuleService.Proofs.Resolved
import RuleService.Proofs.Rounding
import RuleService.Proofs.Routing
import RuleService.Proofs.Runs
import RuleService.Proofs.Scopes
import RuleService.Proofs.Scoping
import RuleService.Proofs.Selection
import RuleService.Proofs.Sending
import RuleService.Proofs.SentHeaders
import RuleService.Proofs.Shadowing
import RuleService.Proofs.Sharing
import RuleService.Proofs.Simplified
import RuleService.Proofs.Sparing
import RuleService.Proofs.Stages
import RuleService.Proofs.Statements
import RuleService.Proofs.Tables
import RuleService.Proofs.Trace
import RuleService.Proofs.Traffic
import RuleService.Proofs.Transparency
import RuleService.Proofs.Watching
import RuleService.Reply.ContentType
import RuleService.Reply.Dispatch
import RuleService.Reply.Ending
import RuleService.Request
import RuleService.Response
import RuleService.Script
import RuleService.Service.Basic
import RuleService.Service.Pattern
import RuleService.Service.Rule
import RuleService.Service.Verb
import RuleService.Snippet.Engine
import RuleService.Snippet.Fault
import RuleService.Snippet.Functions.Collection
import RuleService.Snippet.Functions.Number
import RuleService.Snippet.Functions.Reply
import RuleService.Snippet.Functions.Table
import RuleService.Snippet.Functions.Text
import RuleService.Snippet.Helpers
import RuleService.Snippet.Interpreter
import RuleService.Snippet.Machine
import RuleService.Snippet.Operators
import RuleService.Snippet.Parser
import RuleService.Snippet.Simplify
import RuleService.Snippet.Syntax
import RuleService.Snippet.Token
import RuleService.Snippet.Value
import RuleService.Snippet.Variables
import RuleService.Storage.Address
import RuleService.Storage.Files
import RuleService.Storage.Objects
import RuleService.Storage.Path
import RuleService.Template.Basic
import RuleService.Template.Count
import RuleService.Template.Expansion
import RuleService.Template.Rows
import RuleService.Text.Blank
import RuleService.Text.Case
import RuleService.Text.Name
import RuleService.Text.Quoted
import RuleService.Text.Split
import RuleService.Text.Utf8
