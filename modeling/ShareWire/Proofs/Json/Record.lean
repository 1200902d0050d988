import ShareWire.Json.Record
import ShareWire.Proofs.Json.Shown
import ShareWire.Proofs.Metadata
import ShareWire.Proofs.Text.Integer

/-!
# Records from JSON

Readers of records in their JSON form, field by field: integers within the bounds of their types, null for
what is absent, and timestamps for instants. Main statements: what is read of the JSON form of a record is
the record, except that its instants are those that clocks show and files come without their contents.
-/

namespace ShareWire

open Text (FixedWidth LawfulFixedWidth)
open Time (Instant bind_some)

/-! ## Readers -/

class FromJson (α : Type) where
  ofJson? : Json → Option α

export FromJson (ofJson?)

def Json.field? {α : Type} [FromJson α] (j : Json) (name : String) : Option α :=
  match j with
  | .obj members => (members.lookup name).bind ofJson?
  | _ => none

/-- The values of an object with their names, in order. -/
def Json.entries? (α : Type) [FromJson α] : Json → Option (List (String × α))
  | .obj members => members.mapM fun (name, j) => (ofJson? j).map (name, ·)
  | _ => none

/-- The value of a type of fixed width that an integer within its bounds denotes. -/
def integerOfJson? (α : Type) [FixedWidth α] : Json → Option α
  | .int n =>
    if FixedWidth.least α ≤ n ∧ n ≤ FixedWidth.greatest α then some (FixedWidth.ofInt n) else none
  | _ => none

instance : FromJson String where
  ofJson?
    | .str s => some s
    | _ => none

instance : FromJson Bool where
  ofJson?
    | .bool b => some b
    | _ => none

instance : FromJson Int32 := ⟨integerOfJson? Int32⟩

instance : FromJson Int64 := ⟨integerOfJson? Int64⟩

instance : FromJson UInt64 := ⟨integerOfJson? UInt64⟩

instance : FromJson Instant where
  ofJson?
    | .str s => (Instant.ofText s).toOption
    | _ => none

instance {α : Type} [FromJson α] : FromJson (Option α) where
  ofJson?
    | .null => some none
    | j => (ofJson? j).map some

instance {α : Type} [FromJson α] : FromJson (List α) where
  ofJson?
    | .arr items => items.mapM ofJson?
    | _ => none

instance : FromJson Metadata where
  ofJson? j := (j.entries? String).map .ofList

instance : FromJson RetentionPolicy where
  ofJson? j := do return { enabled := ← j.field? "enabled", days := ← j.field? "days" }

instance : FromJson Logging where
  ofJson? j := do
    return {
      version := ← j.field? "version"
      delete := ← j.field? "delete"
      read := ← j.field? "read"
      write := ← j.field? "write"
      retentionPolicy := ← j.field? "retention_policy" }

instance : FromJson Metrics where
  ofJson? j := do
    return {
      version := ← j.field? "version"
      enabled := ← j.field? "enabled"
      includeApis := ← j.field? "include_apis"
      retentionPolicy := ← j.field? "retention_policy" }

instance : FromJson CorsRule where
  ofJson? j := do
    return {
      allowedOrigins := ← j.field? "allowed_origins"
      allowedMethods := ← j.field? "allowed_methods"
      maxAgeInSeconds := ← j.field? "max_age_in_seconds"
      exposedHeaders := ← j.field? "exposed_headers"
      allowedHeaders := ← j.field? "allowed_headers" }

instance : FromJson ServiceProperties where
  ofJson? j := do
    return {
      logging := ← j.field? "logging"
      hourMetrics := ← j.field? "hour_metrics"
      minuteMetrics := ← j.field? "minute_metrics"
      cors := ← j.field? "cors"
      targetVersion := ← j.field? "target_version" }

instance : FromJson AccessPolicy where
  ofJson? j := do
    return {
      start := ← j.field? "start"
      expiry := ← j.field? "expiry"
      permission := ← j.field? "permission" }

instance : FromJson SignedIdentifiers where
  ofJson? j := (j.entries? AccessPolicy).map .ofList

instance : FromJson ContentSettings where
  ofJson? j := do
    return {
      contentType := ← j.field? "content_type"
      contentEncoding := ← j.field? "content_encoding"
      contentLanguage := ← j.field? "content_language"
      contentDisposition := ← j.field? "content_disposition"
      cacheControl := ← j.field? "cache_control"
      contentMd5 := ← j.field? "content_md5" }

instance : FromJson CopyProperties where
  ofJson? j := do
    return {
      id := ← j.field? "id"
      source := ← j.field? "source"
      status := ← j.field? "status"
      progress := ← j.field? "progress"
      completionTime := ← j.field? "completion_time"
      statusDescription := ← j.field? "status_description" }

instance : FromJson FileProperties where
  ofJson? j := do
    return {
      lastModified := ← j.field? "last_modified"
      etag := ← j.field? "etag"
      contentLength := ← j.field? "content_length"
      contentSettings := ← j.field? "content_settings"
      copy := ← j.field? "copy" }

instance : FromJson ShareProperties where
  ofJson? j := do
    return {
      lastModified := ← j.field? "last_modified"
      etag := ← j.field? "etag"
      quota := ← j.field? "quota" }

instance : FromJson Share where
  ofJson? j := do
    return {
      name := ← j.field? "name"
      metadata := ← j.field? "metadata"
      properties := ← j.field? "properties" }

instance : FromJson ShareList where
  ofJson? j := do return { shares := ← j.field? "shares", nextMarker := ← j.field? "next_marker" }

instance : FromJson Directory where
  ofJson? j := do return { name := ← j.field? "name" }

/-- The content of a file is nowhere in its JSON form. -/
instance : FromJson File where
  ofJson? j := do
    return {
      name := ← j.field? "name"
      content := none
      properties := ← j.field? "properties"
      metadata := ← j.field? "metadata" }

instance : FromJson Entries where
  ofJson? j := do
    return {
      files := ← j.field? "files"
      directories := ← j.field? "directories"
      nextMarker := ← j.field? "next_marker" }

instance : FromJson FileRange where
  ofJson? j := do return { start := ← j.field? "start", last := ← j.field? "end" }

instance : FromJson ShareStats where
  ofJson? j := do return { shareUsage := ← j.field? "share_usage" }

/-! ## Laws -/

/-- Types whose values are read back from their JSON forms. -/
class LawfulJson (α : Type) [HasJson α] [FromJson α] : Prop where
  ofJson?_json (a : α) : ofJson? (json a) = some a

export LawfulJson (ofJson?_json)

/-- Types whose values are read back with the instants that clocks show, and whose JSON forms say no more
than these. -/
class ClockJson (α : Type) [HasJson α] [FromJson α] [Dated α] : Prop where
  ofJson?_json_dated (a : α) : ofJson? (json a) = some (mapInstants Instant.onClock a)
  json_mapInstants (a : α) : json (mapInstants Instant.onClock a) = json a

export ClockJson (ofJson?_json_dated json_mapInstants)

/-- Types whose values are present, so that none of their JSON forms is null. -/
class PresentJson (α : Type) [HasJson α] : Prop where
  json_ne_null (a : α) : json a ≠ .null

export PresentJson (json_ne_null)

theorem field?_of_lookup {α : Type} [FromJson α] {members : List (String × Json)} {name : String}
    {j : Json} {a : α} (h : members.lookup name = some j) (ha : ofJson? j = some a) :
    (Json.obj members).field? name = some a := by
  rw [Json.field?, h, Option.bind_some, ha]

theorem mapM_some {α β γ : Type} {f : α → Option β} {g : γ → α} {h : γ → β} {l : List γ}
    (hl : ∀ c ∈ l, f (g c) = some (h c)) : (l.map g).mapM f = some (l.map h) := by
  induction l with
  | nil => rfl
  | cons c l ih =>
    rw [List.map_cons, List.mapM_cons]
    exact bind_some (hl c List.mem_cons_self)
      (bind_some (ih fun d hd => hl d (List.mem_cons_of_mem c hd)) rfl)

section

variable {α : Type} [HasJson α] [FromJson α] {f : α → α}

theorem ofJson?_json_list (h : ∀ a : α, ofJson? (json a) = some (f a)) (l : List α) :
    ofJson? (json l) = some (l.map f) :=
  mapM_some fun a _ => h a

/-- Absence is null, and nothing else is. -/
theorem ofJson?_json_option [PresentJson α] (h : ∀ a : α, ofJson? (json a) = some (f a))
    (o : Option α) : ofJson? (json o) = some (o.map f) := by
  cases o with
  | none => rfl
  | some a =>
    have hread := h a
    have hpresent := json_ne_null a
    show ofJson? (json a) = some (some (f a))
    cases hj : json a with
    | null => exact absurd hj hpresent
    | bool | int | str | arr | obj =>
      rw [hj] at hread
      show (ofJson? _).map some = _
      rw [hread]
      rfl

theorem entries?_map (h : ∀ a : α, ofJson? (json a) = some (f a)) (l : List (String × α)) :
    (Json.obj (l.map fun entry => (entry.1, json entry.2))).entries? α =
      some (l.map fun (name, a) => (name, f a)) :=
  mapM_some fun entry _ => congrArg (Option.map (entry.1, ·)) (h entry.2)

end

section

variable {α : Type} [HasJson α] [FromJson α] [LawfulJson α]

theorem field?_json {members : List (String × Json)} {name : String} {a : α}
    (h : members.lookup name = some (json a)) : (Json.obj members).field? name = some a :=
  field?_of_lookup h (ofJson?_json a)

instance : LawfulJson (List α) where
  ofJson?_json l := (ofJson?_json_list (f := id) ofJson?_json l).trans (congrArg some l.map_id)

instance [PresentJson α] : LawfulJson (Option α) where
  ofJson?_json o := (ofJson?_json_option (f := id) ofJson?_json o).trans (congrArg some (congrFun Option.map_id o))

end

section

variable {α : Type} [HasJson α] [FromJson α] [Dated α] [ClockJson α]

theorem field?_json_dated {members : List (String × Json)} {name : String} {a : α}
    (h : members.lookup name = some (json a)) :
    (Json.obj members).field? name = some (mapInstants Instant.onClock a) :=
  field?_of_lookup h (ofJson?_json_dated a)

instance : ClockJson (List α) where
  ofJson?_json_dated := ofJson?_json_list ofJson?_json_dated
  json_mapInstants _ :=
    congrArg Json.arr (List.map_map.trans (List.map_congr_left fun a _ => json_mapInstants a))

instance [PresentJson α] : ClockJson (Option α) where
  ofJson?_json_dated := ofJson?_json_option ofJson?_json_dated
  json_mapInstants
    | none => rfl
    | some a => json_mapInstants a

end

theorem integerOfJson?_integerJson {α : Type} [FixedWidth α] [LawfulFixedWidth α] (n : α) :
    integerOfJson? α (integerJson n) = some n := by
  rw [integerJson, integerOfJson?,
    if_pos ⟨LawfulFixedWidth.least_le n, LawfulFixedWidth.le_greatest n⟩, LawfulFixedWidth.ofInt_toInt]

instance : LawfulJson String := ⟨fun _ => rfl⟩

instance : LawfulJson Bool := ⟨fun _ => rfl⟩

instance : LawfulJson Int32 := ⟨integerOfJson?_integerJson⟩

instance : LawfulJson Int64 := ⟨integerOfJson?_integerJson⟩

instance : LawfulJson UInt64 := ⟨integerOfJson?_integerJson⟩

instance : ClockJson Instant where
  ofJson?_json_dated t := by
    show (Instant.ofText t.isoPrecise).toOption = some t.onClock
    rw [t.ofText_isoPrecise]
    rfl
  json_mapInstants t := congrArg Json.str t.isoPrecise_onClock

instance : LawfulJson Metadata where
  ofJson?_json m := by
    have hentries := entries?_map (f := id) ofJson?_json m.entries
    show ((Json.obj (m.entries.map fun entry => (entry.1, json entry.2))).entries? String).map _ = _
    rw [hentries, Option.map_some]
    exact congrArg some ((congrArg Metadata.ofList m.entries.map_id).trans m.ofList_entries)

instance : PresentJson String := ⟨fun _ => nofun⟩

instance : PresentJson Bool := ⟨fun _ => nofun⟩

instance : PresentJson Int32 := ⟨fun _ => nofun⟩

instance : PresentJson Int64 := ⟨fun _ => nofun⟩

instance : PresentJson Instant := ⟨fun _ => nofun⟩

instance : PresentJson Metadata := ⟨fun _ => nofun⟩

instance {α : Type} [HasJson α] : PresentJson (List α) := ⟨fun _ => nofun⟩

/-! ## Records without instants -/

instance : LawfulJson RetentionPolicy where
  ofJson?_json _ := bind_some (field?_json rfl) (bind_some (field?_json rfl) rfl)

instance : LawfulJson Logging where
  ofJson?_json _ :=
    bind_some (field?_json rfl) <| bind_some (field?_json rfl) <| bind_some (field?_json rfl) <|
      bind_some (field?_json rfl) <| bind_some (field?_json rfl) rfl

instance : PresentJson Logging := ⟨fun _ => nofun⟩

instance : LawfulJson Metrics where
  ofJson?_json _ :=
    bind_some (field?_json rfl) <| bind_some (field?_json rfl) <| bind_some (field?_json rfl) <|
      bind_some (field?_json rfl) rfl

instance : PresentJson Metrics := ⟨fun _ => nofun⟩

instance : LawfulJson CorsRule where
  ofJson?_json _ :=
    bind_some (field?_json rfl) <| bind_some (field?_json rfl) <| bind_some (field?_json rfl) <|
      bind_some (field?_json rfl) <| bind_some (field?_json rfl) rfl

instance : LawfulJson ServiceProperties where
  ofJson?_json _ :=
    bind_some (field?_json rfl) <| bind_some (field?_json rfl) <| bind_some (field?_json rfl) <|
      bind_some (field?_json rfl) <| bind_some (field?_json rfl) rfl

instance : LawfulJson ContentSettings where
  ofJson?_json _ :=
    bind_some (field?_json rfl) <| bind_some (field?_json rfl) <| bind_some (field?_json rfl) <|
      bind_some (field?_json rfl) <| bind_some (field?_json rfl) <| bind_some (field?_json rfl) rfl

instance : LawfulJson CopyProperties where
  ofJson?_json _ :=
    bind_some (field?_json rfl) <| bind_some (field?_json rfl) <| bind_some (field?_json rfl) <|
      bind_some (field?_json rfl) <| bind_some (field?_json rfl) <| bind_some (field?_json rfl) rfl

instance : LawfulJson Directory where
  ofJson?_json _ := bind_some (field?_json rfl) rfl

instance : LawfulJson FileRange where
  ofJson?_json _ := bind_some (field?_json rfl) (bind_some (field?_json rfl) rfl)

instance : LawfulJson ShareStats where
  ofJson?_json _ := bind_some (field?_json rfl) rfl

/-! ## Records with instants -/

instance : ClockJson AccessPolicy where
  ofJson?_json_dated _ :=
    bind_some (field?_json_dated rfl) <| bind_some (field?_json_dated rfl) <|
      bind_some (field?_json rfl) rfl
  json_mapInstants p := by
    have hstart : json (p.start.map Instant.onClock) = json p.start := json_mapInstants p.start
    have hexpiry : json (p.expiry.map Instant.onClock) = json p.expiry := json_mapInstants p.expiry
    show Json.obj [(_, json (p.start.map Instant.onClock)), (_, json (p.expiry.map Instant.onClock)), _] = _
    rw [hstart, hexpiry]
    rfl

instance : ClockJson SignedIdentifiers where
  ofJson?_json_dated s := by
    have hentries := entries?_map (f := AccessPolicy.mapInstants Instant.onClock) ofJson?_json_dated
      s.entries
    show ((Json.obj (s.entries.map fun entry => (entry.1, json entry.2))).entries? AccessPolicy).map _ = _
    rw [hentries, Option.map_some]
    exact congrArg some (s.mapInstants Instant.onClock).ofList_entries
  json_mapInstants s := by
    refine congrArg Json.obj (List.map_map.trans (List.map_congr_left fun entry _ => ?_))
    exact congrArg (Prod.mk entry.1) (json_mapInstants entry.2)

instance : ClockJson ShareProperties where
  ofJson?_json_dated _ :=
    bind_some (field?_json_dated rfl) <| bind_some (field?_json rfl) <| bind_some (field?_json rfl) rfl
  json_mapInstants p := by
    show Json.obj [(_, json (mapInstants Instant.onClock p.lastModified)), _, _] = _
    rw [json_mapInstants]
    rfl

instance : ClockJson Share where
  ofJson?_json_dated _ :=
    bind_some (field?_json rfl) <| bind_some (field?_json rfl) <| bind_some (field?_json_dated rfl) rfl
  json_mapInstants s := by
    show Json.obj [_, _, (_, json (mapInstants Instant.onClock s.properties))] = _
    rw [json_mapInstants]
    rfl

instance : ClockJson ShareList where
  ofJson?_json_dated _ := bind_some (field?_json_dated rfl) (bind_some (field?_json rfl) rfl)
  json_mapInstants l := by
    show Json.obj [(_, json (mapInstants Instant.onClock l.shares)), _] = _
    rw [json_mapInstants]
    rfl

instance : ClockJson FileProperties where
  ofJson?_json_dated _ :=
    bind_some (field?_json_dated rfl) <| bind_some (field?_json rfl) <| bind_some (field?_json rfl) <|
      bind_some (field?_json rfl) <| bind_some (field?_json rfl) rfl
  json_mapInstants p := by
    show Json.obj [(_, json (mapInstants Instant.onClock p.lastModified)), _, _, _, _] = _
    rw [json_mapInstants]
    rfl

/-! ## Files -/

theorem File.ofJson?_json (f : File) :
    ofJson? (json f) = some (mapInstants Instant.onClock f.withoutContent) :=
  bind_some (field?_json rfl) <| bind_some (field?_json_dated rfl) <| bind_some (field?_json rfl) rfl

/-- Nothing of the content shows. -/
theorem File.json_shown (f : File) :
    json (mapInstants Instant.onClock f.withoutContent) = json f := by
  show Json.obj [_, (_, json (mapInstants Instant.onClock f.properties)), _] = _
  rw [json_mapInstants]
  rfl

theorem Entries.ofJson?_json (e : Entries) :
    ofJson? (json e) = some (mapInstants Instant.onClock e.withoutContents) := by
  have hfiles : ofJson? (json e.files) =
      some (mapInstants Instant.onClock (e.files.map File.withoutContent)) := by
    show _ = some ((e.files.map File.withoutContent).map (mapInstants Instant.onClock))
    rw [List.map_map]
    exact ofJson?_json_list File.ofJson?_json e.files
  exact bind_some (field?_of_lookup rfl hfiles) <| bind_some (field?_json rfl) <|
    bind_some (field?_json rfl) rfl

theorem Entries.json_shown (e : Entries) :
    json (mapInstants Instant.onClock e.withoutContents) = json e := by
  have hfiles : json (mapInstants Instant.onClock (e.files.map File.withoutContent)) = json e.files := by
    show Json.arr (((e.files.map File.withoutContent).map (mapInstants Instant.onClock)).map json) = _
    rw [List.map_map, List.map_map]
    exact congrArg Json.arr (List.map_congr_left fun f _ => f.json_shown)
  show Json.obj [(_, json (mapInstants Instant.onClock (e.files.map File.withoutContent))), _, _] = _
  rw [hfiles]
  rfl

end ShareWire
