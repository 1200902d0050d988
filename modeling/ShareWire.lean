import ShareWire.Document.Decode
import ShareWire.Document.Element
import ShareWire.Document.Encode
import ShareWire.Document.Error
import ShareWire.Document.Reference
import ShareWire.Document.Render
import ShareWire.Document.Tree
import ShareWire.Http.Config
import ShareWire.Http.Error
import ShareWire.Http.Extract
import ShareWire.Http.Header
import ShareWire.Http.Headers
import ShareWire.Http.Request
import ShareWire.Http.Response
import ShareWire.Inspect.Directive
import ShareWire.Inspect.Failure
import ShareWire.Inspect.Filter
import ShareWire.Inspect.Kind
import ShareWire.Inspect.Run
import ShareWire.Json.Basic
import ShareWire.Json.Record
import ShareWire.Keyed
import ShareWire.Listing.Basic
import ShareWire.Listing.Decode
import ShareWire.Listing.Walk
import ShareWire.Main
import ShareWire.Markup.Error
import ShareWire.Markup.Event
import ShareWire.Markup.Lexeme
import ShareWire.Markup.Reading
import ShareWire.Metadata
import ShareWire.Policy.Basic
import ShareWire.Policy.Decode
import ShareWire.Policy.Encode
import ShareWire.Proofs.Assignment
import ShareWire.Proofs.Conformance
import ShareWire.Proofs.Document.Canonical
import ShareWire.Proofs.Document.Edit
import ShareWire.Proofs.Document.Field
import ShareWire.Proofs.Document.Grammar
import ShareWire.Proofs.Document.Language
import ShareWire.Proofs.Document.Lookup
import ShareWire.Proofs.Document.OpenTags
import ShareWire.Proofs.Document.Outline
import ShareWire.Proofs.Document.Progress
import ShareWire.Proofs.Document.Reference
import ShareWire.Proofs.Document.ReferenceGrammar
import ShareWire.Proofs.Document.Rendering
import ShareWire.Proofs.Document.Schema
import ShareWire.Proofs.Document.Settled
import ShareWire.Proofs.Document.Vocabulary
import ShareWire.Proofs.Document.Weight
import ShareWire.Proofs.Fallible
import ShareWire.Proofs.Http.Agreement
import ShareWire.Proofs.Http.DateHeader
import ShareWire.Proofs.Http.Extraction
import ShareWire.Proofs.Http.Failure
import ShareWire.Proofs.Http.LegalItems
import ShareWire.Proofs.Http.Offender
import ShareWire.Proofs.Http.ReadBack
import ShareWire.Proofs.Http.Report
import ShareWire.Proofs.Http.Response
import ShareWire.Proofs.Http.Run
import ShareWire.Proofs.Http.Updater
import ShareWire.Proofs.Http.Walk
import ShareWire.Proofs.Inspect.Directive
import ShareWire.Proofs.Inspect.Filter
import ShareWire.Proofs.Inspect.Grammar
import ShareWire.Proofs.Inspect.Lossless
import ShareWire.Proofs.Inspect.Record
import ShareWire.Proofs.Inspect.Stages
import ShareWire.Proofs.Integer
import ShareWire.Proofs.Json.Grammar
import ShareWire.Proofs.Json.Layout
import ShareWire.Proofs.Json.Reader
import ShareWire.Proofs.Json.Record
import ShareWire.Proofs.Json.Shown
import ShareWire.Proofs.Listing
import ShareWire.Proofs.Listing.Walk
import ShareWire.Proofs.Markup.Construct
import ShareWire.Proofs.Markup.Doctype
import ShareWire.Proofs.Markup.Extension
import ShareWire.Proofs.Markup.Reading
import ShareWire.Proofs.Markup.Size
import ShareWire.Proofs.Markup.Truncation
import ShareWire.Proofs.Metadata
import ShareWire.Proofs.Policy.Fields
import ShareWire.Proofs.Policy.RoundTrip
import ShareWire.Proofs.Property
import ShareWire.Proofs.Service.Fields
import ShareWire.Proofs.Service.RoundTrip
import ShareWire.Proofs.Service.Stability
import ShareWire.Proofs.Text.Blank
import ShareWire.Proofs.Text.Commas
import ShareWire.Proofs.Text.Integer
import ShareWire.Proofs.Text.Numeral
import ShareWire.Proofs.Text.Slice
import ShareWire.Proofs.Text.Utf8
import ShareWire.Proofs.Time.Calendar
import ShareWire.Proofs.Time.HeaderDate
import ShareWire.Proofs.Time.Instant
import ShareWire.Proofs.Time.IsoReading
import ShareWire.Proofs.Time.IsoText
import ShareWire.Proofs.Time.Mismatch
import ShareWire.Proofs.Time.Pattern
import ShareWire.Proofs.Time.Precise
import ShareWire.Proofs.Time.Scan
import ShareWire.Proofs.Time.Weekday
import ShareWire.Proofs.Time.Year
import ShareWire.Proofs.Tolerance
import ShareWire.Proofs.Truncation
import ShareWire.Proofs.Verbatim
import ShareWire.Property.Basic
import ShareWire.Property.Record
import ShareWire.Regex.CharClass
import ShareWire.Regex.Compile
import ShareWire.Regex.Cursor
import ShareWire.Regex.Escape
import ShareWire.Regex.Fault
import ShareWire.Regex.Group
import ShareWire.Regex.Node
import ShareWire.Regex.Parse
import ShareWire.Regex.Report
import ShareWire.Service.Basic
import ShareWire.Service.Decode
import ShareWire.Service.Encode
import ShareWire.Text.Blank
import ShareWire.Text.Commas
import ShareWire.Text.Integer
import ShareWire.Text.Letter
import ShareWire.Text.Printable
import ShareWire.Text.Quoted
import ShareWire.Text.Slice
import ShareWire.Text.Utf8
import ShareWire.Time.Calendar
import ShareWire.Time.Instant
import ShareWire.Time.Internet
import ShareWire.Time.Layout
import ShareWire.Time.Mail
import ShareWire.Time.Pattern
import ShareWire.Time.Scan
import ShareWire.Time.Timestamp
