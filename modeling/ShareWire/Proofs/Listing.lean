import ShareWire.Proofs.Conformance
import ShareWire.Proofs.Document.Lookup
import ShareWire.Proofs.Http.Response
import ShareWire.Proofs.Metadata

/-!
# What listings say

The records of a listing stand for the elements of its document, one for each and in their order. An
entry that is malformed makes the whole listing an error, so that no page is ever shorter than what the
service sent.
-/

namespace ShareWire

open Text (Denotes FixedWidth)
open Time (Instant)

/-! ## Fields -/

namespace Element

/-- The first child of the name has a text that denotes the integer. -/
def HoldsInteger (e : Element) (name : String) (type : IntegerType) (n : Int) : Prop :=
  ∃ text, e.childText? name = some text ∧ Denotes type.least type.greatest text n

def HoldsInstant (e : Element) (name : String) (t : Instant) : Prop :=
  ∃ text, e.childText? name = some text ∧ Instant.ofText text = .ok t

/-- Where the next page begins: there is none if the marker is missing or blank, and otherwise it is the
text of the marker as it is. -/
structure Continues (e : Element) (marker : Option String) : Prop where
  none_iff : marker = none ↔ ∀ text, e.childText? "NextMarker" = some text →
    ∀ c ∈ text.toList, Text.isBlank c = true
  verbatim : ∀ text, marker = some text → e.childText? "NextMarker" = some text

theorem child?_of_require {e c : Element} {name : String} (h : e.require name = .ok c) :
    e.child? name = some c := by
  rw [require] at h
  split at h
  · next hc => rw [hc, Except.ok.inj h]
  · cases h

theorem childText?_of_requiredText {e : Element} {name text : String}
    (h : e.requiredText name = .ok text) : e.childText? name = some text := by
  obtain ⟨c, hc, rfl⟩ := exists_of_map_ok h
  rw [childText?, child?_of_require hc, Option.map_some]

theorem holdsInteger_of_readInteger {α : Type} [FixedWidth α] {type : IntegerType}
    [type.Implements α] {e : Element} {name text : String} {n : α}
    (htext : e.requiredText name = .ok text) (h : readInteger α text = .ok n) :
    e.HoldsInteger name type (FixedWidth.toInt n) :=
  ⟨text, childText?_of_requiredText htext, (readInteger_eq_ok_iff type).1 h⟩

theorem holdsInstant_of_readTimestamp {e : Element} {name text : String} {t : Instant}
    (htext : e.requiredText name = .ok text) (h : readTimestamp text = .ok t) :
    e.HoldsInstant name t := by
  refine ⟨text, childText?_of_requiredText htext, ?_⟩
  rw [readTimestamp] at h
  split at h
  · next u hu => rw [hu, Except.ok.inj h]
  · cases h

theorem continues_readNextMarker (e : Element) : e.Continues (readNextMarker e) where
  none_iff := by
    simp only [readNextMarker, filledText?, Option.filter_eq_none_iff, Text.allBlank]
    simp
  verbatim text h := by
    rw [readNextMarker, filledText?, Option.filter_eq_some_iff] at h
    exact h.1

/-- Records stand for the elements of a name, each for one, in their order. Other elements may stand
anywhere between them. -/
inductive Listed {α : Type} (R : Element → α → Prop) (name : String) : List Element → List α → Prop where
  | nil : Listed R name [] []
  | named {c : Element} {a : α} {children : List Element} {records : List α} : c.name = name → R c a →
      Listed R name children records → Listed R name (c :: children) (a :: records)
  | other {c : Element} {children : List Element} {records : List α} : c.name ≠ name →
      Listed R name children records → Listed R name (c :: children) records

theorem listed_of_forall₂ {α : Type} {R : Element → α → Prop} {name : String} {children : List Element}
    {records : List α} (h : List.Forall₂ R (children.filter (·.name = name)) records) :
    Listed R name children records := by
  induction children generalizing records with
  | nil =>
    cases h
    exact .nil
  | cons c children ih =>
    rw [List.filter_cons] at h
    split at h
    · next hname =>
      cases h with
      | cons hc hrest => exact .named (of_decide_eq_true hname) hc (ih hrest)
    · next hname => exact .other (mt decide_eq_true hname) (ih h)

theorem listed_of_all {α : Type} [FromElement α] {R : Element → α → Prop} {e : Element}
    {name : String} {records : List α} (hR : ∀ c a, ofElement c = .ok a → R c a)
    (h : e.all α name = .ok records) : Listed R name e.children records :=
  listed_of_forall₂ ((mapM_ok_iff.1 h).imp fun c a => hR c a)

theorem getLast?_childrenNamed_eq_some_iff {e c : Element} {name : String} :
    (e.childrenNamed name).getLast? = some c ↔ ∃ before after, e.children = before ++ c :: after ∧
      c.name = name ∧ ∀ later ∈ after, later.name ≠ name := by
  rw [childrenNamed, List.getLast?_filter, List.find?_eq_some_iff_append]
  constructor
  · rintro ⟨hname, after, before, hreverse, hafter⟩
    refine ⟨before.reverse, after.reverse, ?_, of_decide_eq_true hname, ?_⟩
    · rw [← List.reverse_reverse e.children, hreverse]
      simp
    · simpa using hafter
  · rintro ⟨before, after, hchildren, hname, hafter⟩
    refine ⟨decide_eq_true hname, after.reverse, before.reverse, ?_, ?_⟩
    · rw [hchildren]
      simp
    · simpa using hafter

end Element

/-! ## Records -/

/-- The metadata has the names of the children and no others. Each name has the text of the last child
of that name. -/
def Metadata.StandsFor (e : Element) (m : Metadata) : Prop :=
  ∀ name text, m.get? name = some text ↔ ∃ before c after, e.children = before ++ c :: after ∧
    c.name = name ∧ (∀ later ∈ after, later.name ≠ name) ∧ c.text = text

structure ShareProperties.StandsFor (e : Element) (p : ShareProperties) : Prop where
  lastModified : ∃ t, p.lastModified = some t ∧ e.HoldsInstant "Last-Modified" t
  etag : ∃ text, p.etag = some text ∧ e.childText? "Etag" = some text
  quota : ∃ n, p.quota = some n ∧ e.HoldsInteger "Quota" .int64 n.toInt

structure Share.StandsFor (e : Element) (s : Share) : Prop where
  name : e.childText? "Name" = some s.name
  metadata : Option.Rel Metadata.StandsFor (e.child? "Metadata") s.metadata
  properties : ∃ c, e.child? "Properties" = some c ∧ ShareProperties.StandsFor c s.properties

/-- A file of a listing has a name and a size and nothing else. -/
structure File.StandsFor (e : Element) (f : File) : Prop where
  name : e.childText? "Name" = some f.name
  properties : ∃ c n, e.child? "Properties" = some c ∧ c.HoldsInteger "Content-Length" .int64 n.toInt ∧
    f.properties = { contentLength := some n }
  content : f.content = none
  metadata : f.metadata = ∅

def Directory.StandsFor (e : Element) (d : Directory) : Prop :=
  e.childText? "Name" = some d.name

structure FileRange.StandsFor (e : Element) (r : FileRange) : Prop where
  start : e.HoldsInteger "Start" .uint64 r.start.toNat
  last : e.HoldsInteger "End" .uint64 r.last.toNat

theorem Metadata.get?_readMetadata (e : Element) (name : String) :
    (readMetadata e).get? name = (e.childrenNamed name).getLast?.map Element.text := by
  rw [readMetadata, get?_ofList, Element.childrenNamed, List.filter_map, List.getLast?_map,
    Option.map_map]
  rfl

theorem Metadata.standsFor_readMetadata (e : Element) : StandsFor e (readMetadata e) := by
  intro name text
  simp only [get?_readMetadata, Option.map_eq_some_iff, Element.getLast?_childrenNamed_eq_some_iff]
  constructor
  · rintro ⟨c, ⟨before, after, hchildren, hname, hafter⟩, htext⟩
    exact ⟨before, c, after, hchildren, hname, hafter, htext⟩
  · rintro ⟨before, c, after, hchildren, hname, hafter, htext⟩
    exact ⟨c, ⟨before, after, hchildren, hname, hafter⟩, htext⟩

theorem ShareProperties.standsFor_of_ofElement (e : Element) (p : ShareProperties)
    (h : ofElement e = .ok p) : StandsFor e p := by
  obtain ⟨modified, hmodified, h⟩ := exists_of_bind_ok h
  obtain ⟨t, ht, h⟩ := exists_of_bind_ok h
  obtain ⟨etag, hetag, h⟩ := exists_of_bind_ok h
  obtain ⟨quota, hquota, h⟩ := exists_of_bind_ok h
  obtain ⟨n, hn, h⟩ := exists_of_bind_ok h
  obtain rfl := Except.ok.inj h
  exact ⟨⟨t, rfl, Element.holdsInstant_of_readTimestamp hmodified ht⟩,
    ⟨etag, rfl, Element.childText?_of_requiredText hetag⟩,
    ⟨n, rfl, Element.holdsInteger_of_readInteger hquota hn⟩⟩

theorem Share.standsFor_of_ofElement (e : Element) (s : Share) (h : ofElement e = .ok s) :
    StandsFor e s := by
  obtain ⟨name, hname, h⟩ := exists_of_bind_ok h
  obtain ⟨c, hc, h⟩ := exists_of_bind_ok h
  obtain ⟨properties, hproperties, h⟩ := exists_of_bind_ok h
  obtain rfl := Except.ok.inj h
  refine ⟨Element.childText?_of_requiredText hname, ?_,
    c, Element.child?_of_require hc, ShareProperties.standsFor_of_ofElement c properties hproperties⟩
  cases e.child? "Metadata" with
  | none => exact .none
  | some m => exact .some (Metadata.standsFor_readMetadata m)

theorem File.standsFor_of_ofElement (e : Element) (f : File) (h : ofElement e = .ok f) :
    StandsFor e f := by
  obtain ⟨c, hc, h⟩ := exists_of_bind_ok h
  obtain ⟨length, hlength, h⟩ := exists_of_bind_ok h
  obtain ⟨n, hn, h⟩ := exists_of_bind_ok h
  obtain ⟨name, hname, h⟩ := exists_of_bind_ok h
  obtain rfl := Except.ok.inj h
  exact ⟨Element.childText?_of_requiredText hname, ⟨c, n, Element.child?_of_require hc,
    Element.holdsInteger_of_readInteger hlength hn, rfl⟩, rfl, rfl⟩

theorem Directory.standsFor_of_ofElement (e : Element) (d : Directory) (h : ofElement e = .ok d) :
    StandsFor e d := by
  obtain ⟨name, hname, h⟩ := exists_of_bind_ok h
  obtain rfl := Except.ok.inj h
  exact Element.childText?_of_requiredText hname

theorem FileRange.standsFor_of_ofElement (e : Element) (r : FileRange) (h : ofElement e = .ok r) :
    StandsFor e r := by
  obtain ⟨start, hstart, h⟩ := exists_of_bind_ok h
  obtain ⟨n, hn, h⟩ := exists_of_bind_ok h
  obtain ⟨last, hlast, h⟩ := exists_of_bind_ok h
  obtain ⟨m, hm, h⟩ := exists_of_bind_ok h
  obtain rfl := Except.ok.inj h
  exact ⟨Element.holdsInteger_of_readInteger hstart hn, Element.holdsInteger_of_readInteger hlast hm⟩

/-! ## Pages -/

structure ShareList.StandsFor (root : Element) (page : ShareList) : Prop where
  shares : ∃ c, root.child? "Shares" = some c ∧
    Element.Listed Share.StandsFor "Share" c.children page.shares
  nextMarker : root.Continues page.nextMarker

/-- Files and directories are listed apart, each in their order. -/
structure Entries.StandsFor (root : Element) (page : Entries) : Prop where
  entries : ∃ c, root.child? "Entries" = some c ∧
    Element.Listed File.StandsFor "File" c.children page.files ∧
    Element.Listed Directory.StandsFor "Directory" c.children page.directories
  nextMarker : root.Continues page.nextMarker

def Ranges.StandsFor (root : Element) (ranges : Ranges) : Prop :=
  Element.Listed FileRange.StandsFor "Range" root.children ranges

def ShareStats.StandsFor (root : Element) (stats : ShareStats) : Prop :=
  root.HoldsInteger "ShareUsage" .int64 stats.shareUsage.toInt

theorem ShareList.standsFor_of_ofElement (root : Element) (page : ShareList)
    (h : ofElement root = .ok page) : StandsFor root page := by
  obtain ⟨c, hc, h⟩ := exists_of_bind_ok h
  obtain ⟨shares, hshares, h⟩ := exists_of_bind_ok h
  obtain rfl := Except.ok.inj h
  exact ⟨⟨c, Element.child?_of_require hc,
    Element.listed_of_all Share.standsFor_of_ofElement hshares⟩, root.continues_readNextMarker⟩

theorem Entries.standsFor_of_ofElement (root : Element) (page : Entries)
    (h : ofElement root = .ok page) : StandsFor root page := by
  obtain ⟨c, hc, h⟩ := exists_of_bind_ok h
  obtain ⟨files, hfiles, h⟩ := exists_of_bind_ok h
  obtain ⟨directories, hdirectories, h⟩ := exists_of_bind_ok h
  obtain rfl := Except.ok.inj h
  exact ⟨⟨c, Element.child?_of_require hc,
    Element.listed_of_all File.standsFor_of_ofElement hfiles,
    Element.listed_of_all Directory.standsFor_of_ofElement hdirectories⟩,
    root.continues_readNextMarker⟩

theorem Ranges.standsFor_of_ofElement (root : Element) (ranges : Ranges)
    (h : ofElement root = .ok ranges) : StandsFor root ranges :=
  Element.listed_of_all FileRange.standsFor_of_ofElement h

theorem ShareStats.standsFor_of_ofElement (root : Element) (stats : ShareStats)
    (h : ofElement root = .ok stats) : StandsFor root stats := by
  obtain ⟨usage, husage, h⟩ := exists_of_bind_ok h
  obtain ⟨n, hn, h⟩ := exists_of_bind_ok h
  obtain rfl := Except.ok.inj h
  exact Element.holdsInteger_of_readInteger husage hn

/-! ## Malformed entries -/

def ShareList.Malformed (root : Element) : Prop :=
  ∃ c, root.child? "Shares" = some c ∧
    ∃ entry ∈ c.children, entry.name = "Share" ∧ ¬ Share.schema.Valid entry

def Entries.Malformed (root : Element) : Prop :=
  ∃ c, root.child? "Entries" = some c ∧
    ∃ entry ∈ c.children, entry.name = "File" ∧ ¬ File.schema.Valid entry ∨
      entry.name = "Directory" ∧ ¬ Directory.schema.Valid entry

def Ranges.Malformed (root : Element) : Prop :=
  ∃ entry ∈ root.children, entry.name = "Range" ∧ ¬ FileRange.schema.Valid entry

def ShareStats.Malformed (root : Element) : Prop :=
  ¬ ShareStats.schema.Valid root

theorem ShareList.not_valid_of_malformed (root : Element) (h : Malformed root) :
    ¬ schema.Valid root := by
  obtain ⟨d, hd, entry, hentry, hname, hinvalid⟩ := h
  intro ⟨⟨c, hc, hvalid, _⟩, _⟩
  obtain rfl := Option.some.inj (hc.symm.trans hd)
  exact hinvalid (hvalid entry hentry hname)

theorem Entries.not_valid_of_malformed (root : Element) (h : Malformed root) :
    ¬ schema.Valid root := by
  obtain ⟨d, hd, entry, hentry, h⟩ := h
  intro ⟨⟨c, hc, hfiles, hdirectories, _⟩, _⟩
  obtain rfl := Option.some.inj (hc.symm.trans hd)
  rcases h with ⟨hname, hinvalid⟩ | ⟨hname, hinvalid⟩
  · exact hinvalid (hfiles entry hentry hname)
  · exact hinvalid (hdirectories entry hentry hname)

theorem Ranges.not_valid_of_malformed (root : Element) (h : Malformed root) :
    ¬ schema.Valid root := by
  obtain ⟨entry, hentry, hname, hinvalid⟩ := h
  intro ⟨hvalid, _⟩
  exact hinvalid (hvalid entry hentry hname)

namespace Http.Response

/-! ## Responses -/

/-- A reader of the listings in responses that loses nothing: a page is what the whole body stands for,
and where an entry is malformed there is no page. -/
structure Faithful {α : Type} (read : Response → Except ExchangeError (Outcome α))
    (StandsFor : Element → α → Prop) (Malformed : Element → Prop) : Prop where
  unparsed : ∀ response, response.body = none → read response = .ok (.unparsed response)
  parsed : ∀ response body outcome, response.body = some body → read response = .ok outcome →
    ∃ root record, Element.parse body = .ok root ∧ outcome = .parsed record ∧ StandsFor root record
  malformed : ∀ response body root, response.body = some body → Element.parse body = .ok root →
    Malformed root → ∃ error, read response = .error error
  /-- Neither the status nor the headers are looked at. -/
  bodyOnly : ∀ first second body, first.body = some body → second.body = some body →
    read first = read second

theorem faithful_read {α : Type} [FromElement α] {schema : Schema}
    {StandsFor : Element → α → Prop} {Malformed : Element → Prop}
    (hfits : schema.Fits (ofElement (α := α)))
    (hstands : ∀ root record, ofElement root = .ok record → StandsFor root record)
    (hmalformed : ∀ root, Malformed root → ¬ schema.Valid root) :
    Faithful (Response.read α) StandsFor Malformed where
  unparsed _ hbody := read_unparsed hbody
  parsed response body outcome hbody h := by
    obtain ⟨root, record, hroot, hrecord, houtcome⟩ := exists_of_read_ok hbody h
    exact ⟨root, record, hroot, houtcome, hstands root record hrecord⟩
  malformed response body root hbody hroot h := by
    obtain ⟨error, herror⟩ := hfits.exists_error (hmalformed root h)
    exact ⟨_, read_error hbody ((fromXml_of_parse hroot).trans herror)⟩
  bodyOnly first second body hfirst hsecond := by
    rw [read, read, hfirst, hsecond]

/-- Listings lose, repeat and reorder nothing. -/
theorem readListings_faithful :
    Faithful readShares ShareList.StandsFor ShareList.Malformed ∧
    Faithful readEntries Entries.StandsFor Entries.Malformed ∧
    Faithful readRanges Ranges.StandsFor Ranges.Malformed ∧
    Faithful readShareStats ShareStats.StandsFor ShareStats.Malformed :=
  ⟨faithful_read ShareList.fits ShareList.standsFor_of_ofElement ShareList.not_valid_of_malformed,
    faithful_read Entries.fits Entries.standsFor_of_ofElement Entries.not_valid_of_malformed,
    faithful_read Ranges.fits Ranges.standsFor_of_ofElement Ranges.not_valid_of_malformed,
    faithful_read ShareStats.fits ShareStats.standsFor_of_ofElement fun _ h => h⟩

/-- Directories between the files, a second name and a blank marker change nothing. -/
theorem readListings_faithful_interleaved :
    let body := ["<R><Entries><File><Name> a </Name><Name>b</Name>",
      "<Properties><Content-Length>+7</Content-Length></Properties></File>",
      "<Directory><Name>d</Name></Directory><File><Name>c</Name>",
      "<Properties><Content-Length>-0</Content-Length></Properties></File></Entries>",
      "<NextMarker> </NextMarker><File/></R>"].flatMap Text.encode
    let file (name : String) (length : Int64) : File :=
      ⟨name, none, { contentLength := some length }, ∅⟩
    let page : Entries := ⟨[file " a " 7, file "c" 0], [⟨"d"⟩], none⟩
    readEntries { status := 200, body := some body } = .ok (.parsed page) ∧
      ∃ root, Element.parse body = .ok root ∧ Entries.StandsFor root page := by
  intro body file page
  have hread : readEntries { status := 200, body := some body } = .ok (.parsed page) := by
    decide +kernel
  obtain ⟨root, record, hroot, hrecord, hstands⟩ :=
    readListings_faithful.2.1.parsed _ body _ rfl hread
  obtain rfl := Outcome.parsed.inj hrecord
  exact ⟨hread, root, hroot, hstands⟩

end Http.Response

end ShareWire
