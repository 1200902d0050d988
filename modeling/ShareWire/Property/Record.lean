import ShareWire.Property.Basic

/-!
# Property records

The properties of the four kinds of resources: blobs, files, shares and directories.
-/

namespace ShareWire

open Time (Instant)

structure BlobProperties where
  blobType : Option String := none
  lastModified : Option Instant := none
  etag : Option String := none
  contentLength : Option Int64 := none
  contentSettings : ContentSettings := {}
  lease : LeaseProperties := {}
  copy : CopyProperties := {}
  pageBlobSequenceNumber : Option Int64 := none
  /-- The number of committed blocks of an append blob. -/
  appendBlobCommittedBlockCount : Option Int64 := none
deriving DecidableEq, Repr

def BlobProperties.assign (b : BlobProperties) (p : Property) (v : PropertyValue) :
    BlobProperties :=
  match p, v with
  | .lastModified, .timestamp t => { b with lastModified := some t }
  | .etag, .text s => { b with etag := some s }
  | .blobType, .text s => { b with blobType := some s }
  | .contentLength, .integer n => { b with contentLength := some n }
  | .pageBlobSequenceNumber, .integer n => { b with pageBlobSequenceNumber := some n }
  | .appendBlobCommittedBlockCount, .integer n =>
    { b with appendBlobCommittedBlockCount := some n }
  | p, .text s =>
    match p.part with
    | .contentSettings => { b with contentSettings := b.contentSettings.assign p s }
    | .lease => { b with lease := b.lease.assign p s }
    | .copy => { b with copy := b.copy.assign p s }
    | .root => b
  | _, _ => b

def BlobProperties.get? (b : BlobProperties) (p : Property) : Option PropertyValue :=
  match p with
  | .lastModified => b.lastModified.map .timestamp
  | .etag => b.etag.map .text
  | .blobType => b.blobType.map .text
  | .contentLength => b.contentLength.map .integer
  | .pageBlobSequenceNumber => b.pageBlobSequenceNumber.map .integer
  | .appendBlobCommittedBlockCount => b.appendBlobCommittedBlockCount.map .integer
  | p =>
    match p.part with
    | .contentSettings => (b.contentSettings.get? p).map .text
    | .lease => (b.lease.get? p).map .text
    | .copy => (b.copy.get? p).map .text
    | .root => none

instance : PropertyRecord BlobProperties where
  blank := {}
  assign := BlobProperties.assign
  get? := BlobProperties.get?

structure FileProperties where
  lastModified : Option Instant := none
  etag : Option String := none
  contentLength : Option Int64 := none
  contentSettings : ContentSettings := {}
  copy : CopyProperties := {}
deriving DecidableEq, Repr

def FileProperties.assign (f : FileProperties) (p : Property) (v : PropertyValue) :
    FileProperties :=
  match p, v with
  | .lastModified, .timestamp t => { f with lastModified := some t }
  | .etag, .text s => { f with etag := some s }
  | .contentLength, .integer n => { f with contentLength := some n }
  | p, .text s =>
    match p.part with
    | .contentSettings => { f with contentSettings := f.contentSettings.assign p s }
    | .copy => { f with copy := f.copy.assign p s }
    | .lease | .root => f
  | _, _ => f

def FileProperties.get? (f : FileProperties) (p : Property) : Option PropertyValue :=
  match p with
  | .lastModified => f.lastModified.map .timestamp
  | .etag => f.etag.map .text
  | .contentLength => f.contentLength.map .integer
  | p =>
    match p.part with
    | .contentSettings => (f.contentSettings.get? p).map .text
    | .copy => (f.copy.get? p).map .text
    | .lease | .root => none

instance : PropertyRecord FileProperties where
  blank := {}
  assign := FileProperties.assign
  get? := FileProperties.get?

structure ShareProperties where
  lastModified : Option Instant := none
  etag : Option String := none
  /-- The greatest size of the share; no header reports it. -/
  quota : Option Int64 := none
deriving DecidableEq, Repr

def ShareProperties.assign (s : ShareProperties) (p : Property) (v : PropertyValue) :
    ShareProperties :=
  match p, v with
  | .lastModified, .timestamp t => { s with lastModified := some t }
  | .etag, .text tag => { s with etag := some tag }
  | _, _ => s

def ShareProperties.get? (s : ShareProperties) (p : Property) : Option PropertyValue :=
  match p with
  | .lastModified => s.lastModified.map .timestamp
  | .etag => s.etag.map .text
  | _ => none

instance : PropertyRecord ShareProperties where
  blank := {}
  assign := ShareProperties.assign
  get? := ShareProperties.get?

structure DirectoryProperties where
  lastModified : Option Instant := none
  etag : Option String := none
deriving DecidableEq, Repr

def DirectoryProperties.assign (d : DirectoryProperties) (p : Property) (v : PropertyValue) :
    DirectoryProperties :=
  match p, v with
  | .lastModified, .timestamp t => { d with lastModified := some t }
  | .etag, .text s => { d with etag := some s }
  | _, _ => d

def DirectoryProperties.get? (d : DirectoryProperties) (p : Property) : Option PropertyValue :=
  match p with
  | .lastModified => d.lastModified.map .timestamp
  | .etag => d.etag.map .text
  | _ => none

instance : PropertyRecord DirectoryProperties where
  blank := {}
  assign := DirectoryProperties.assign
  get? := DirectoryProperties.get?

end ShareWire
