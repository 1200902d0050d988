import ShareWire.Document.Decode
import ShareWire.Listing.Basic

/-!
# Reading listings
-/

namespace ShareWire

/-- Where the next page begins; an empty marker means that there is none. -/
def readNextMarker (e : Element) : Option String :=
  e.filledText? "NextMarker"

def readMetadata (e : Element) : Metadata :=
  Metadata.ofList (e.children.map fun entry => (entry.name, entry.text))

instance : FromElement ShareProperties where
  ofElement e := do
    let lastModified ← readTimestamp (← e.requiredText "Last-Modified")
    let etag ← e.requiredText "Etag"
    let quota ← readInteger Int64 (← e.requiredText "Quota")
    return { lastModified := some lastModified, etag := some etag, quota := some quota }

instance : FromElement Share where
  ofElement e := do
    let name ← e.requiredText "Name"
    let metadata := (e.child? "Metadata").map readMetadata
    let properties ← ofElement (← e.require "Properties")
    return { name, metadata, properties }

instance : FromElement ShareList where
  ofElement e := do
    let shares ← (← e.require "Shares").all Share "Share"
    return { shares, nextMarker := readNextMarker e }

instance : FromElement File where
  ofElement e := do
    let properties ← e.require "Properties"
    let length ← readInteger Int64 (← properties.requiredText "Content-Length")
    let name ← e.requiredText "Name"
    return { name, content := none, properties := { contentLength := some length }, metadata := ∅ }

instance : FromElement Directory where
  ofElement e := do
    let name ← e.requiredText "Name"
    return { name }

instance : FromElement Entries where
  ofElement e := do
    let entries ← e.require "Entries"
    let files ← entries.all File "File"
    let directories ← entries.all Directory "Directory"
    return { files, directories, nextMarker := readNextMarker e }

instance : FromElement FileRange where
  ofElement e := do
    let start ← readInteger UInt64 (← e.requiredText "Start")
    let last ← readInteger UInt64 (← e.requiredText "End")
    return { start, last }

instance : FromElement Ranges where
  ofElement e := e.all FileRange "Range"

instance : FromElement ShareStats where
  ofElement e := do
    let shareUsage ← readInteger Int64 (← e.requiredText "ShareUsage")
    return { shareUsage }

end ShareWire
