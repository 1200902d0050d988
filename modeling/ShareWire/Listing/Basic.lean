import ShareWire.Metadata
import ShareWire.Property.Record
import ShareWire.Text.Utf8

/-!
# Listings

What the service answers to enumerations: pages of shares, of the entries of a directory, the valid
ranges of a file, and the usage of a share.
-/

namespace ShareWire

structure Share where
  name : String
  /-- Its metadata; present if the listing was to include it. -/
  metadata : Option Metadata
  properties : ShareProperties
deriving DecidableEq, Repr

structure ShareList where
  shares : List Share
  /-- Where the next page begins; absent on the last page. -/
  nextMarker : Option String
deriving DecidableEq, Repr

structure Directory where
  /-- The name of the directory inside its parent. -/
  name : String
deriving DecidableEq, Repr

/-- A file inside a share. In a listing it has a name and a size only. -/
structure File where
  name : String
  content : Option Bytes
  properties : FileProperties
  metadata : Metadata
deriving DecidableEq, Repr

structure Entries where
  files : List File
  directories : List Directory
  /-- Where the next page begins; absent on the last page. -/
  nextMarker : Option String
deriving DecidableEq, Repr

structure FileRange where
  start : UInt64
  last : UInt64
deriving DecidableEq, Repr

abbrev Ranges := List FileRange

structure ShareStats where
  shareUsage : Int64
deriving DecidableEq, Repr

end ShareWire
