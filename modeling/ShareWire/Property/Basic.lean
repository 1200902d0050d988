import ShareWire.Time.Instant

/-!
# Properties

What response headers say about a resource. Each property is read from one header, and each kind of
resource keeps some of the properties; the others it lets go.
-/

namespace ShareWire

open Time (Instant)

inductive Property where
  | lastModified
  | etag
  | blobType
  | contentLength
  | pageBlobSequenceNumber
  /-- The number of committed blocks of an append blob. -/
  | appendBlobCommittedBlockCount
  | contentType
  | cacheControl
  | contentEncoding
  | contentDisposition
  | contentLanguage
  | contentMd5
  | leaseStatus
  | leaseState
  | leaseDuration
  | copyId
  | copySource
  | copyStatus
  | copyProgress
  | copyCompletionTime
  | copyStatusDescription
deriving DecidableEq, Repr

namespace Property

def all : List Property :=
  [.lastModified, .etag, .blobType, .contentLength, .pageBlobSequenceNumber,
    .appendBlobCommittedBlockCount, .contentType, .cacheControl, .contentEncoding,
    .contentDisposition, .contentLanguage, .contentMd5, .leaseStatus, .leaseState, .leaseDuration,
    .copyId, .copySource, .copyStatus, .copyProgress, .copyCompletionTime, .copyStatusDescription]

/-- The header that reports a property, in lower case. -/
def headerName : Property → String
  | .lastModified => "last-modified"
  | .etag => "etag"
  | .blobType => "x-ms-blob-type"
  | .contentLength => "content-length"
  | .pageBlobSequenceNumber => "x-ms-blob-sequence-number"
  | .appendBlobCommittedBlockCount => "x-ms-blob-committed-block-count"
  | .contentType => "content-type"
  | .cacheControl => "cache-control"
  | .contentEncoding => "content-encoding"
  | .contentDisposition => "content-disposition"
  | .contentLanguage => "content-language"
  | .contentMd5 => "content-md5"
  | .leaseStatus => "x-ms-lease-status"
  | .leaseState => "x-ms-lease-state"
  | .leaseDuration => "x-ms-lease-duration"
  | .copyId => "x-ms-copy-id"
  | .copySource => "x-ms-copy-source"
  | .copyStatus => "x-ms-copy-status"
  | .copyProgress => "x-ms-copy-progress"
  | .copyCompletionTime => "x-ms-copy-completion-time"
  | .copyStatusDescription => "x-ms-copy-status-description"

def ofHeaderName? (name : String) : Option Property :=
  all.find? fun p => p.headerName = name

inductive Part where
  | root
  | contentSettings
  | lease
  | copy
deriving DecidableEq, Repr

def part : Property → Part
  | .lastModified | .etag | .blobType | .contentLength | .pageBlobSequenceNumber
  | .appendBlobCommittedBlockCount => .root
  | .contentType | .cacheControl | .contentEncoding | .contentDisposition | .contentLanguage
  | .contentMd5 => .contentSettings
  | .leaseStatus | .leaseState | .leaseDuration => .lease
  | .copyId | .copySource | .copyStatus | .copyProgress | .copyCompletionTime
  | .copyStatusDescription => .copy

inductive Conversion where
  | text
  /-- A signed integer of 64 bits. -/
  | integer
  | timestamp
deriving DecidableEq, Repr

def conversion : Property → Conversion
  | .lastModified => .timestamp
  | .contentLength | .pageBlobSequenceNumber | .appendBlobCommittedBlockCount => .integer
  | _ => .text

end Property

inductive PropertyValue where
  | text (s : String)
  | integer (n : Int64)
  | timestamp (t : Instant)
deriving DecidableEq, Repr

structure ContentSettings where
  contentType : Option String := none
  contentEncoding : Option String := none
  contentLanguage : Option String := none
  contentDisposition : Option String := none
  cacheControl : Option String := none
  contentMd5 : Option String := none
deriving DecidableEq, Repr

/-- Puts a text into the place of a content header; other properties have no place here. -/
def ContentSettings.assign (c : ContentSettings) (p : Property) (s : String) : ContentSettings :=
  match p with
  | .contentType => { c with contentType := some s }
  | .contentEncoding => { c with contentEncoding := some s }
  | .contentLanguage => { c with contentLanguage := some s }
  | .contentDisposition => { c with contentDisposition := some s }
  | .cacheControl => { c with cacheControl := some s }
  | .contentMd5 => { c with contentMd5 := some s }
  | _ => c

def ContentSettings.get? (c : ContentSettings) (p : Property) : Option String :=
  match p with
  | .contentType => c.contentType
  | .contentEncoding => c.contentEncoding
  | .contentLanguage => c.contentLanguage
  | .contentDisposition => c.contentDisposition
  | .cacheControl => c.cacheControl
  | .contentMd5 => c.contentMd5
  | _ => none

structure LeaseProperties where
  status : Option String := none
  state : Option String := none
  duration : Option String := none
deriving DecidableEq, Repr

def LeaseProperties.assign (l : LeaseProperties) (p : Property) (s : String) : LeaseProperties :=
  match p with
  | .leaseStatus => { l with status := some s }
  | .leaseState => { l with state := some s }
  | .leaseDuration => { l with duration := some s }
  | _ => l

def LeaseProperties.get? (l : LeaseProperties) (p : Property) : Option String :=
  match p with
  | .leaseStatus => l.status
  | .leaseState => l.state
  | .leaseDuration => l.duration
  | _ => none

/-- The last copy that had the resource as its target. -/
structure CopyProperties where
  id : Option String := none
  source : Option String := none
  status : Option String := none
  progress : Option String := none
  completionTime : Option String := none
  statusDescription : Option String := none
deriving DecidableEq, Repr

def CopyProperties.assign (c : CopyProperties) (p : Property) (s : String) : CopyProperties :=
  match p with
  | .copyId => { c with id := some s }
  | .copySource => { c with source := some s }
  | .copyStatus => { c with status := some s }
  | .copyProgress => { c with progress := some s }
  | .copyCompletionTime => { c with completionTime := some s }
  | .copyStatusDescription => { c with statusDescription := some s }
  | _ => c

def CopyProperties.get? (c : CopyProperties) (p : Property) : Option String :=
  match p with
  | .copyId => c.id
  | .copySource => c.source
  | .copyStatus => c.status
  | .copyProgress => c.progress
  | .copyCompletionTime => c.completionTime
  | .copyStatusDescription => c.statusDescription
  | _ => none

class PropertyRecord (α : Type) where
  /-- The record of a resource about which nothing was reported. -/
  blank : α
  /-- Puts a value into the place of a property. A record without that place, and a place for values
  of another form, let the value go. -/
  assign : α → Property → PropertyValue → α
  get? : α → Property → Option PropertyValue

end ShareWire
