import SearchRequest.Aggregation
import SearchRequest.Context
import SearchRequest.Decimal.Binary
import SearchRequest.Decimal.Read
import SearchRequest.Decimal.Rounded
import SearchRequest.Decimal.Shortest
import SearchRequest.Entries
import SearchRequest.Environment
import SearchRequest.Error.Basic
import SearchRequest.Error.Misuse
import SearchRequest.Error.Report
import SearchRequest.Field
import SearchRequest.Json
import SearchRequest.Log.Level
import SearchRequest.Log.Message
import SearchRequest.Log.Template
import SearchRequest.Mapping.FieldTypes
import SearchRequest.Mapping.Keyword
import SearchRequest.Operator
import SearchRequest.Options.Basic
import SearchRequest.Options.Compile
import SearchRequest.Options.Read
import SearchRequest.Options.Sort
import SearchRequest.Options.Validate
import SearchRequest.Outcome
import SearchRequest.Params
import SearchRequest.Proofs.Engine
import SearchRequest.Proofs.Outcome
import SearchRequest.Query
import SearchRequest.QueryText
import SearchRequest.Registry
import SearchRequest.Request.Builder
import SearchRequest.Request.Search
import SearchRequest.Settings
import SearchRequest.Text.Blank
import SearchRequest.Text.Case
import SearchRequest.Text.Digit
import SearchRequest.Text.Occurrence
import SearchRequest.Text.Printable
import SearchRequest.Text.Quoted
import SearchRequest.Text.Utf8
import SearchRequest.Validation.Failure
import SearchRequest.Validation.Numeral
import SearchRequest.Validation.Scalar
import SearchRequest.Validation.Validated
import SearchRequest.Value.Basic
import SearchRequest.Value.Display
import SearchRequest.Value.Dump
import SearchRequest.Value.Order
import SearchRequest.Value.Outline
import SearchRequest.Value.Parts
import SearchRequest.Value.Rows
import SearchRequest.Where.Compile
import SearchRequest.Where.Parse
import SearchRequest.Where.Payload
import SearchRequest.Where.Typed
import SearchRequest.Proofs.Meaning
import SearchRequest.Proofs.Delivery
import SearchRequest.Proofs.Scope
import SearchRequest.Proofs.Splice
import SearchRequest.Proofs.InPlace
import SearchRequest.Proofs.Document
import SearchRequest.Proofs.Session
import SearchRequest.Proofs.Accepted
import SearchRequest.Proofs.Dumped
import SearchRequest.Proofs.Reread
import SearchRequest.Proofs.TypedOptions
import SearchRequest.Proofs.Failures
import SearchRequest.Proofs.Grammar
import SearchRequest.Proofs.Respelled
import SearchRequest.Proofs.Nesting
import SearchRequest.Proofs.Contents
import SearchRequest.Proofs.Atomic
import SearchRequest.Proofs.Marker
import SearchRequest.Proofs.CallerMeta
import SearchRequest.Proofs.Refusals
import SearchRequest.Proofs.Fragments
import SearchRequest.Proofs.Complement
import SearchRequest.Proofs.NestedOptions
import SearchRequest.Proofs.NestedSort
import SearchRequest.Proofs.KeywordForm
import SearchRequest.Proofs.Refreshed
import SearchRequest.Proofs.Assembled
import SearchRequest.Proofs.Reordered
import SearchRequest.Proofs.Escaped
import SearchRequest.Proofs.QueryTerm
import SearchRequest.Proofs.Flattened
import SearchRequest.Proofs.MappingSearch
import SearchRequest.Proofs.MappingShapes
import SearchRequest.Proofs.SortList
import SearchRequest.Proofs.Rows
import SearchRequest.Proofs.GeoClauses
import SearchRequest.Proofs.Rewrapped
import SearchRequest.Proofs.Levels
import SearchRequest.Proofs.Places
import SearchRequest.Proofs.Logged
