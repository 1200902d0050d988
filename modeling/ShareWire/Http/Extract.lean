import ShareWire.Document.Decode
import ShareWire.Http.Error
import ShareWire.Http.Headers
import ShareWire.Metadata
import ShareWire.Property.Basic

/-!
# Properties from headers

A response reports the properties of a resource in headers, and its metadata in headers whose names
begin with `x-ms-meta-`. Every header that reports something has to be readable, even if the record
at hand has no place for it.
-/

namespace ShareWire.Http

/-- What the names of metadata headers begin with. -/
def metadataMark : String := "x-ms-meta-"

def metadataName? (name : String) : Option String :=
  if metadataMark.toList.isPrefixOf name.toList then
    some (String.ofList (name.toList.drop metadataMark.toList.length))
  else none

def fieldText (name : HeaderName) (value : HeaderValue) : Except ExchangeError String :=
  match value.text with
  | .ok text => .ok text
  | .error fault => .error (.invalidHeader name.text (.notUtf8 fault))

def convert (p : Property) (text : String) : Except ExchangeError PropertyValue :=
  match p.conversion with
  | .text => .ok (.text text)
  | .integer =>
    match readDecimal Int64 text with
    | .ok n => .ok (.integer n)
    | .error fault => .error (.invalidHeader p.headerName (.integer text fault))
  | .timestamp =>
    match Time.Instant.ofText text with
    | .ok t => .ok (.timestamp t)
    | .error fault => .error (.invalidHeader p.headerName (.timestamp text fault))

/-- Takes one header field into a property record and metadata. -/
def takeField {α : Type} [PropertyRecord α] (found : α × Metadata)
    (field : HeaderName × HeaderValue) : Except ExchangeError (α × Metadata) :=
  match metadataName? field.1.text with
  | some name => do
    let text ← fieldText field.1 field.2
    return (found.1, found.2.insert name text)
  | none =>
    match Property.ofHeaderName? field.1.text with
    | none => .ok found
    | some p => do
      let text ← fieldText field.1 field.2
      let value ← convert p text
      return (PropertyRecord.assign found.1 p value, found.2)

/-- The properties and the metadata that headers report. -/
def extractProperties (α : Type) [PropertyRecord α] (headers : Headers) :
    Except ExchangeError (α × Metadata) :=
  headers.walk.foldlM takeField (PropertyRecord.blank, ∅)

end ShareWire.Http
