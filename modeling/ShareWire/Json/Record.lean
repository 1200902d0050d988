import ShareWire.Json.Basic
import ShareWire.Listing.Basic
import ShareWire.Policy.Basic
import ShareWire.Service.Basic
import ShareWire.Text.Integer
import ShareWire.Time.Layout

/-!
# Records as JSON

The JSON form of every record. A record becomes an object with all its fields in a fixed order;
absent values are null, instants are texts, and the content of a file is left out.
-/

namespace ShareWire

open Text (FixedWidth)

def integerJson {α : Type} [FixedWidth α] (n : α) : Json :=
  .int (FixedWidth.toInt n)

instance : HasJson Int32 := ⟨integerJson⟩

instance : HasJson Int64 := ⟨integerJson⟩

instance : HasJson UInt64 := ⟨integerJson⟩

instance : HasJson Time.Instant := ⟨fun t => .str t.isoPrecise⟩

instance : HasJson Metadata where
  json m := .obj (m.entries.map fun entry => (entry.1, .str entry.2))

instance : HasJson RetentionPolicy where
  json p := .obj [("enabled", json p.enabled), ("days", json p.days)]

instance : HasJson Logging where
  json l :=
    .obj [("version", json l.version), ("delete", json l.delete), ("read", json l.read),
      ("write", json l.write), ("retention_policy", json l.retentionPolicy)]

instance : HasJson Metrics where
  json m :=
    .obj [("version", json m.version), ("enabled", json m.enabled),
      ("include_apis", json m.includeApis), ("retention_policy", json m.retentionPolicy)]

instance : HasJson CorsRule where
  json r :=
    .obj [("allowed_origins", json r.allowedOrigins), ("allowed_methods", json r.allowedMethods),
      ("max_age_in_seconds", json r.maxAgeInSeconds), ("exposed_headers", json r.exposedHeaders),
      ("allowed_headers", json r.allowedHeaders)]

instance : HasJson ServiceProperties where
  json p :=
    .obj [("logging", json p.logging), ("hour_metrics", json p.hourMetrics),
      ("minute_metrics", json p.minuteMetrics), ("cors", json p.cors),
      ("target_version", json p.targetVersion)]

instance : HasJson AccessPolicy where
  json p :=
    .obj [("start", json p.start), ("expiry", json p.expiry), ("permission", json p.permission)]

instance : HasJson SignedIdentifiers where
  json s := .obj (s.entries.map fun entry => (entry.1, json entry.2))

instance : HasJson ContentSettings where
  json c :=
    .obj [("content_type", json c.contentType), ("content_encoding", json c.contentEncoding),
      ("content_language", json c.contentLanguage),
      ("content_disposition", json c.contentDisposition), ("cache_control", json c.cacheControl),
      ("content_md5", json c.contentMd5)]

instance : HasJson LeaseProperties where
  json l :=
    .obj [("status", json l.status), ("state", json l.state), ("duration", json l.duration)]

instance : HasJson CopyProperties where
  json c :=
    .obj [("id", json c.id), ("source", json c.source), ("status", json c.status),
      ("progress", json c.progress), ("completion_time", json c.completionTime),
      ("status_description", json c.statusDescription)]

instance : HasJson BlobProperties where
  json b :=
    .obj [("blob_type", json b.blobType), ("last_modified", json b.lastModified),
      ("etag", json b.etag), ("content_length", json b.contentLength),
      ("content_settings", json b.contentSettings), ("lease", json b.lease), ("copy", json b.copy),
      ("page_blob_sequence_number", json b.pageBlobSequenceNumber),
      ("append_blob_committed_block_count", json b.appendBlobCommittedBlockCount)]

instance : HasJson FileProperties where
  json f :=
    .obj [("last_modified", json f.lastModified), ("etag", json f.etag),
      ("content_length", json f.contentLength), ("content_settings", json f.contentSettings),
      ("copy", json f.copy)]

instance : HasJson ShareProperties where
  json s :=
    .obj [("last_modified", json s.lastModified), ("etag", json s.etag), ("quota", json s.quota)]

instance : HasJson DirectoryProperties where
  json d := .obj [("last_modified", json d.lastModified), ("etag", json d.etag)]

instance : HasJson Share where
  json s :=
    .obj [("name", json s.name), ("metadata", json s.metadata), ("properties", json s.properties)]

instance : HasJson ShareList where
  json l := .obj [("shares", json l.shares), ("next_marker", json l.nextMarker)]

instance : HasJson Directory where
  json d := .obj [("name", json d.name)]

instance : HasJson File where
  json f :=
    .obj [("name", json f.name), ("properties", json f.properties), ("metadata", json f.metadata)]

instance : HasJson Entries where
  json e :=
    .obj [("files", json e.files), ("directories", json e.directories),
      ("next_marker", json e.nextMarker)]

instance : HasJson FileRange where
  json r := .obj [("start", json r.start), ("end", json r.last)]

instance : HasJson ShareStats where
  json s := .obj [("share_usage", json s.shareUsage)]

end ShareWire
