import ShareWire.Proofs.Document.Rendering
import ShareWire.Proofs.Http.ReadBack
import ShareWire.Proofs.Listing

/-!
# Listings and headers agree

A share says when it was last modified, and a file how long it is, in a listing and in the headers of a
response. Main statement: of the same texts the two readers accept the same ones, and they give the same
values, however the texts are written in the document.
-/

namespace ShareWire

open Text (encode)
open Time (Instant)
open Http (ExchangeError HeaderName HeaderValue Headers Readable Reports extractProperties)

/-- Both readers accept or neither does, and if they do, what they give is related. -/
structure Concur {ε φ α β : Type} (R : α → β → Prop) (x : Except ε α) (y : Except φ β) : Prop where
  accepts : (∃ a, x = .ok a) ↔ ∃ b, y = .ok b
  agree : ∀ a b, x = .ok a → y = .ok b → R a b

/-! ## Elements of listings -/

namespace Element

/-- A share with a name and a valid quota, and the texts of two more properties. -/
structure ListsShare (e : Element) (modified etag : String) : Prop where
  name : ∃ name, e.childText? "Name" = some name
  properties : ∃ p, e.child? "Properties" = some p ∧
    p.childText? "Last-Modified" = some modified ∧ p.childText? "Etag" = some etag ∧
    ∃ n, p.HoldsInteger "Quota" .int64 n

/-- A file with a name, and the text of its length. -/
structure ListsFile (e : Element) (length : String) : Prop where
  name : ∃ name, e.childText? "Name" = some name
  properties : ∃ p, e.child? "Properties" = some p ∧ p.childText? "Content-Length" = some length

variable {e : Element} {modified etag length : String}

theorem exists_child?_of_childText? {name text : String} (h : e.childText? name = some text) :
    ∃ c, e.child? name = some c ∧ c.text = text :=
  Option.map_eq_some_iff.1 h

/-- A share of a listing is accepted if its time is. -/
theorem ListsShare.accepts_iff (h : e.ListsShare modified etag) :
    (∃ s : Share, ofElement e = .ok s) ↔ ∃ t, Instant.ofText modified = .ok t := by
  obtain ⟨name, hname⟩ := h.name
  obtain ⟨p, hp, hmodified, hetag, n, quota, hquota, hn⟩ := h.properties
  obtain ⟨nameChild, hnameChild, -⟩ := exists_child?_of_childText? hname
  obtain ⟨modifiedChild, hmodifiedChild, rfl⟩ := exists_child?_of_childText? hmodified
  obtain ⟨etagChild, hetagChild, -⟩ := exists_child?_of_childText? hetag
  obtain ⟨quotaChild, hquotaChild, rfl⟩ := exists_child?_of_childText? hquota
  rw [Share.fits.ok_iff]
  constructor
  · rintro ⟨-, -, ⟨q, hq, ⟨c, hc, hvalid⟩, -⟩, -⟩
    obtain rfl := Option.some.inj (hp.symm.trans hq)
    obtain rfl := Option.some.inj (hmodifiedChild.symm.trans hc)
    exact hvalid
  · intro hvalid
    exact ⟨⟨nameChild, hnameChild, trivial⟩, fun _ _ => trivial,
      ⟨p, hp, ⟨modifiedChild, hmodifiedChild, hvalid⟩, ⟨etagChild, hetagChild, trivial⟩,
        ⟨quotaChild, hquotaChild, n, hn⟩, trivial⟩, trivial⟩

theorem ListsShare.eq_of_ofElement (h : e.ListsShare modified etag) {s : Share}
    (hs : ofElement e = .ok s) : ∃ t, Instant.ofText modified = .ok t ∧
      s.properties.lastModified = some t ∧ s.properties.etag = some etag := by
  obtain ⟨p, hp, hmodified, hetag, -⟩ := h.properties
  obtain ⟨q, hq, hstands⟩ := (Share.standsFor_of_ofElement e s hs).properties
  obtain rfl := Option.some.inj (hp.symm.trans hq)
  obtain ⟨t, ht, text, htext, hinstant⟩ := hstands.lastModified
  obtain ⟨tag, htag, htagText⟩ := hstands.etag
  obtain rfl := Option.some.inj (hmodified.symm.trans htext)
  obtain rfl := Option.some.inj (hetag.symm.trans htagText)
  exact ⟨t, hinstant, ht, htag⟩

/-- A file of a listing is accepted if its length is. -/
theorem ListsFile.accepts_iff (h : e.ListsFile length) :
    (∃ f : File, ofElement e = .ok f) ↔ ∃ n, readDecimal Int64 length = .ok n := by
  obtain ⟨name, hname⟩ := h.name
  obtain ⟨p, hp, hlength⟩ := h.properties
  obtain ⟨nameChild, hnameChild, -⟩ := exists_child?_of_childText? hname
  obtain ⟨lengthChild, hlengthChild, rfl⟩ := exists_child?_of_childText? hlength
  have hinteger : (∃ n, readDecimal Int64 lengthChild.text = .ok n) ↔
      (Schema.integer .int64).Valid lengthChild := by
    simp only [← readInteger_eq_ok_iff_readDecimal]
    exact Schema.Fits.integer.ok_iff lengthChild
  rw [File.fits.ok_iff, hinteger]
  constructor
  · rintro ⟨⟨q, hq, ⟨c, hc, hvalid⟩, -⟩, -⟩
    obtain rfl := Option.some.inj (hp.symm.trans hq)
    obtain rfl := Option.some.inj (hlengthChild.symm.trans hc)
    exact hvalid
  · intro hvalid
    exact ⟨⟨p, hp, ⟨lengthChild, hlengthChild, hvalid⟩, trivial⟩,
      ⟨nameChild, hnameChild, trivial⟩, trivial⟩

theorem ListsFile.eq_of_ofElement (h : e.ListsFile length) {f : File} (hf : ofElement e = .ok f) :
    ∃ n, readDecimal Int64 length = .ok n ∧ f.properties.contentLength = some n := by
  obtain ⟨p, hp, hlength⟩ := h.properties
  obtain ⟨q, n, hq, ⟨text, htext, hn⟩, hproperties⟩ := (File.standsFor_of_ofElement e f hf).properties
  obtain rfl := Option.some.inj (hp.symm.trans hq)
  obtain rfl := Option.some.inj (hlength.symm.trans htext)
  refine ⟨n, readInteger_eq_ok_iff_readDecimal.1 ((readInteger_eq_ok_iff .int64).2 hn), ?_⟩
  rw [hproperties]

/-! ## Documents of listings -/

/-- The properties are texts, without children of their own. -/
def PlainProperties (e : Element) : Prop :=
  ∀ p, e.child? "Properties" = some p → ∀ c ∈ p.children, c.children = []

theorem settled_name (e : Element) : e.settled.name = e.name := by
  cases e
  rfl

theorem settledAll_eq_map (es : List Element) : settledAll es = es.map settled := by
  induction es with
  | nil => rfl
  | cons e es ih => rw [settledAll, ih, List.map_cons]

theorem child?_settled (e : Element) (name : String) :
    e.settled.child? name = (e.child? name).map settled := by
  obtain ⟨own, text, children⟩ := e
  show (settledAll children).find? (fun c => c.name = name) = _
  rw [settledAll_eq_map, List.find?_map]
  simp only [Function.comp_def, settled_name]
  rfl

/-- A leaf keeps its text. -/
theorem childText?_settled {p : Element} (h : ∀ c ∈ p.children, c.children = []) (name : String) :
    p.settled.childText? name = p.childText? name := by
  rw [childText?, childText?, child?_settled, Option.map_map]
  cases hc : p.child? name with
  | none => rfl
  | some c =>
    have hleaf : c.children = [] := h c (mem_of_child? hc)
    obtain ⟨own, text, children⟩ := c
    obtain rfl : children = [] := hleaf
    rfl

theorem exists_childText?_settled {name text : String} (h : e.childText? name = some text) :
    ∃ text, e.settled.childText? name = some text := by
  obtain ⟨c, hc, -⟩ := exists_child?_of_childText? h
  exact ⟨c.settled.text, by rw [childText?, child?_settled, hc, Option.map_some, Option.map_some]⟩

theorem ListsShare.settled (h : e.ListsShare modified etag) (hplain : e.PlainProperties) :
    e.settled.ListsShare modified etag := by
  obtain ⟨name, hname⟩ := h.name
  obtain ⟨p, hp, hmodified, hetag, n, quota, hquota, hn⟩ := h.properties
  have htext := childText?_settled (hplain p hp)
  refine ⟨exists_childText?_settled hname, p.settled, ?_, ?_, ?_, n, quota, ?_, hn⟩
  · rw [child?_settled, hp, Option.map_some]
  · rw [htext, hmodified]
  · rw [htext, hetag]
  · rw [htext, hquota]

theorem ListsFile.settled (h : e.ListsFile length) (hplain : e.PlainProperties) :
    e.settled.ListsFile length := by
  obtain ⟨name, hname⟩ := h.name
  obtain ⟨p, hp, hlength⟩ := h.properties
  refine ⟨exists_childText?_settled hname, p.settled, ?_, ?_⟩
  · rw [child?_settled, hp, Option.map_some]
  · rw [childText?_settled (hplain p hp), hlength]

theorem parse_byteOrderMark {input : Bytes} (h : input.head? ≠ some 0xEF) :
    parse (byteOrderMark ++ input) = parse input := by
  rw [parse, parse, Markup.Reading.ofBytes, Markup.Reading.ofBytes, dropByteOrderMark_append,
    Markup.dropByteOrderMark_of_head h]

end Element

/-- A record of a listing and the outcome of another reader: they concur for every element that lists
certain texts, for every document with such an element, and for every way to write one as a document. -/
structure ReadsLike {φ β : Type} (α : Type) [FromElement α] (Lists : Element → Prop) (R : α → β → Prop)
    (outcome : Except φ β) : Prop where
  element (e : Element) : Lists e → Concur R (ofElement e : Except DocumentError α) outcome
  document (body : Bytes) (e : Element) : Element.parse body = .ok e → Lists e →
    Concur R (fromXml α body) outcome
  rendering (body : Bytes) (e : Element) : Rendering e body → e.PlainProperties → Lists e →
    Concur R (fromXml α body) outcome

theorem ReadsLike.of_element {φ α β : Type} [FromElement α] {Lists : Element → Prop} {R : α → β → Prop}
    {outcome : Except φ β}
    (helement : ∀ e, Lists e → Concur R (ofElement e : Except DocumentError α) outcome)
    (hsettled : ∀ e, Lists e → e.PlainProperties → Lists e.settled) :
    ReadsLike α Lists R outcome := by
  have hdocument (body : Bytes) (e : Element) (hparse : Element.parse body = .ok e) (he : Lists e) :
      Concur R (fromXml α body) outcome := by
    rw [fromXml_of_parse hparse]
    exact helement e he
  refine ⟨helement, hdocument, fun body e hrendering hplain he => ?_⟩
  obtain @⟨mark, prolog, written, epilog, hmark, hprolog, hwritten, hepilog⟩ := hrendering
  have hread := hwritten.parse hprolog hepilog
  have hlists := hsettled e he hplain
  -- With a byte order mark the same bytes are read behind it.
  rcases hmark with rfl | rfl
  · exact hdocument _ _ hread hlists
  · refine hdocument _ _ ?_ hlists
    rw [Element.parse_byteOrderMark (hprolog.head_ne (hwritten.head_ne epilog)), hread]

/-! ## Headers -/

namespace Http

def HeaderName.lastModified : HeaderName := ⟨"last-modified", by decide, by decide, by decide⟩

def HeaderName.etag : HeaderName := ⟨"etag", by decide, by decide, by decide⟩

variable {field : HeaderName × HeaderValue} {s modified etag length : String} {h : Headers}

/-- Whether a field can be read is up to the text of its value. -/
theorem readable_iff (hs : field.2.bytes = encode s) : Readable field ↔
    (Reports field.1.text → (field.1.text ∈ integerHeaders → ∃ n, readDecimal Int64 s = .ok n) ∧
      (field.1.text = instantHeader → ∃ t, Instant.ofText s = .ok t)) := by
  refine forall_congr' fun _ => ⟨fun ⟨text, htext, hvalue⟩ => ?_, fun hvalue => ⟨s, hs, hvalue⟩⟩
  obtain rfl : text = s := by
    have hdecode : Text.decode (encode text) = .ok s := by rw [← htext, hs, Text.decode_encode]
    exact Except.ok.inj ((Text.decode_encode text).symm.trans hdecode)
  exact hvalue

theorem Headers.lastText?_of_filter {name : String}
    (hfield : (h.fields.filter fun other => other.1.text = name) = [field])
    (hs : field.2.bytes = encode s) : h.lastText? name = some s := by
  have htext : field.2.text = .ok s := Text.decode_eq_ok_iff.2 hs
  rw [lastText?, hfield, List.getLast?_singleton, Option.bind_some, htext]
  rfl

theorem extracts_share : Extracts ShareProperties .ofHeaders :=
  extracts_of_reported fun _ => rfl

theorem extracts_file : Extracts FileProperties .ofHeaders :=
  extracts_of_reported fun _ => rfl

/-- A record that is extracted is the one that the headers stand for. -/
theorem Extracts.fst_eq {α : Type} [PropertyRecord α] {ofHeaders : Headers → α}
    (hextracts : Extracts α ofHeaders) {found : α × Metadata}
    (hfound : extractProperties α h = .ok found) : found.1 = ofHeaders h := by
  obtain ⟨metadata, hresult, -⟩ := hextracts.ok h ((hextracts.succeeds h).1 ⟨found, hfound⟩)
  rw [← Except.ok.inj (hresult.symm.trans hfound)]

/-- The two headers of a share, in either order. -/
def Headers.ReportsShare (h : Headers) (modified etag : String) : Prop :=
  ∃ modifiedValue etagValue, HeaderValue.ofText? modified = some modifiedValue ∧
    HeaderValue.ofText? etag = some etagValue ∧
    h.fields.Perm [(.lastModified, modifiedValue), (.etag, etagValue)]

def Headers.ReportsFile (h : Headers) (length : String) : Prop :=
  ∃ lengthValue, HeaderValue.ofText? length = some lengthValue ∧
    h.fields = [(.contentLength, lengthValue)]

theorem Headers.ReportsShare.readable_iff (hshare : h.ReportsShare modified etag) :
    (∀ field ∈ h.fields, Readable field) ↔ ∃ t, Instant.ofText modified = .ok t := by
  obtain ⟨modifiedValue, etagValue, hmodified, hetag, hfields⟩ := hshare
  have hmodifiedBytes := HeaderValue.bytes_of_ofText? hmodified
  have hetagBytes := HeaderValue.bytes_of_ofText? hetag
  have hall : (∀ field ∈ h.fields, Readable field) ↔
      Readable (.lastModified, modifiedValue) ∧ Readable (.etag, etagValue) := by
    simp only [hfields.mem_iff, List.forall_mem_cons, List.not_mem_nil, false_imp_iff, implies_true,
      and_true]
  have hnames : Reports HeaderName.lastModified.text ∧
      HeaderName.lastModified.text ∉ integerHeaders ∧ HeaderName.lastModified.text = instantHeader ∧
      HeaderName.etag.text ∉ integerHeaders ∧ HeaderName.etag.text ≠ instantHeader := by decide
  obtain ⟨hreports, hinteger, hinstant, hetagInteger, hetagInstant⟩ := hnames
  -- A tag can be any text, so the time decides.
  have hread : Readable (.etag, etagValue) := (Http.readable_iff hetagBytes).2 fun _ =>
    ⟨fun hname => absurd hname hetagInteger, fun hname => absurd hname hetagInstant⟩
  rw [hall, and_iff_left hread, Http.readable_iff hmodifiedBytes]
  exact ⟨fun hvalue => (hvalue hreports).2 hinstant,
    fun hvalue _ => ⟨fun hname => absurd hname hinteger, fun _ => hvalue⟩⟩

theorem Headers.ReportsShare.lastText? (hshare : h.ReportsShare modified etag) :
    h.lastText? "last-modified" = some modified ∧ h.lastText? "etag" = some etag := by
  obtain ⟨modifiedValue, etagValue, hmodified, hetag, hfields⟩ := hshare
  have hfilter (name : String) := hfields.filter fun field => field.1.text = name
  constructor
  · exact lastText?_of_filter (List.perm_singleton.1 (hfilter "last-modified"))
      (HeaderValue.bytes_of_ofText? hmodified)
  · exact lastText?_of_filter (List.perm_singleton.1 (hfilter "etag"))
      (HeaderValue.bytes_of_ofText? hetag)

theorem Headers.ReportsFile.readable_iff (hfile : h.ReportsFile length) :
    (∀ field ∈ h.fields, Readable field) ↔ ∃ n, readDecimal Int64 length = .ok n := by
  obtain ⟨lengthValue, hlength, hfields⟩ := hfile
  have hbytes := HeaderValue.bytes_of_ofText? hlength
  have hnames : Reports HeaderName.contentLength.text ∧
      HeaderName.contentLength.text ∈ integerHeaders ∧
      HeaderName.contentLength.text ≠ instantHeader := by decide
  obtain ⟨hreports, hinteger, hinstant⟩ := hnames
  rw [hfields, List.forall_mem_singleton, Http.readable_iff hbytes]
  exact ⟨fun hvalue => (hvalue hreports).1 hinteger,
    fun hvalue _ => ⟨fun _ => hvalue, fun hname => absurd hname hinstant⟩⟩

theorem Headers.ReportsFile.lastText? (hfile : h.ReportsFile length) :
    h.lastText? "content-length" = some length := by
  obtain ⟨lengthValue, hlength, hfields⟩ := hfile
  have hfilter : (h.fields.filter fun field => field.1.text = "content-length") =
      [(.contentLength, lengthValue)] := by
    rw [hfields]
    rfl
  exact lastText?_of_filter hfilter (HeaderValue.bytes_of_ofText? hlength)

theorem Headers.ReportsShare.eq_of_extractProperties (hshare : h.ReportsShare modified etag)
    {found : ShareProperties × Metadata} (hfound : extractProperties ShareProperties h = .ok found) :
    found.1.lastModified = (Instant.ofText modified).toOption ∧ found.1.etag = some etag := by
  obtain ⟨hmodified, hetag⟩ := hshare.lastText?
  rw [extracts_share.fst_eq hfound]
  refine ⟨?_, hetag⟩
  show h.lastInstant? "last-modified" = _
  rw [lastInstant?, hmodified, Option.bind_some]

theorem Headers.ReportsFile.eq_of_extractProperties (hfile : h.ReportsFile length)
    {found : FileProperties × Metadata} (hfound : extractProperties FileProperties h = .ok found) :
    found.1.contentLength = (readDecimal Int64 length).toOption := by
  rw [extracts_file.fst_eq hfound]
  show h.lastInteger? "content-length" = _
  rw [lastInteger?, hfile.lastText?, Option.bind_some]

end Http

/-! ## Main statement -/

open Http in
/-- A share of a listing and its headers, and a file of a listing and its header, are accepted for the
same texts. Then the shares have the same time and the same tag, and the files the same length. This
holds for elements, for documents with such elements, and for all ways to write them. -/
theorem listing_agrees_with_headers :
    (∀ (modified etag : String) (h : Headers), h.ReportsShare modified etag →
      ReadsLike Share (fun e => e.ListsShare modified etag)
        (fun share found => share.properties.lastModified = found.1.lastModified ∧
          share.properties.etag = found.1.etag)
        (extractProperties ShareProperties h)) ∧
    ∀ (length : String) (h : Headers), h.ReportsFile length →
      ReadsLike File (fun e => e.ListsFile length)
        (fun file found => file.properties.contentLength = found.1.contentLength)
        (extractProperties FileProperties h) := by
  constructor
  · intro modified etag h hshare
    refine .of_element (fun e he => ⟨?_, fun share found hlisted hfound => ?_⟩)
      fun e he hplain => he.settled hplain
    · rw [he.accepts_iff, extracts_share.succeeds, hshare.readable_iff]
    · obtain ⟨t, ht, hmodified, hetag⟩ := he.eq_of_ofElement hlisted
      obtain ⟨hfoundModified, hfoundEtag⟩ := hshare.eq_of_extractProperties hfound
      rw [hmodified, hetag, hfoundModified, hfoundEtag, ht]
      exact ⟨rfl, rfl⟩
  · intro length h hfile
    refine .of_element (fun e he => ⟨?_, fun file found hlisted hfound => ?_⟩)
      fun e he hplain => he.settled hplain
    · rw [he.accepts_iff, extracts_file.succeeds, hfile.readable_iff]
    · obtain ⟨n, hn, hlength⟩ := he.eq_of_ofElement hlisted
      rw [hlength, hfile.eq_of_extractProperties hfound, hn]
      rfl

open Http in
/-- A time and a tag with the headers in the other order, and a length with a sign and white space. The
documents write some of the characters as references or in a section. -/
theorem listing_agrees_with_headers_escaped :
    let listed := encode ("<Share><Name>a</Name> <Properties><Last-Modified>Wed, 01 Jul 2015 08:49:37 " ++
      "GM&#84;</Last-Modified><Etag>&quot;1&quot;</Etag><Quota>5</Quota></Properties></Share>")
    let measured := encode ("<File><Name>a</Name> <Properties><Content-Length> &#x2B;<![CDATA[7]]> " ++
      "</Content-Length></Properties></File>")
    (∃ (modified etag : HeaderValue) (share : Share) (found : ShareProperties × Metadata),
      fromXml Share listed = .ok share ∧
      extractProperties ShareProperties ⟨[(.etag, etag), (.lastModified, modified)]⟩ = .ok found ∧
      share.properties.lastModified = found.1.lastModified ∧
      share.properties.etag = found.1.etag) ∧
    ∃ (length : HeaderValue) (file : File) (found : FileProperties × Metadata),
      fromXml File measured = .ok file ∧
      extractProperties FileProperties ⟨[(.contentLength, length)]⟩ = .ok found ∧
      file.properties.contentLength = found.1.contentLength := by
  intro listed measured
  constructor
  · let time := "Wed, 01 Jul 2015 08:49:37 GMT"
    let headers : Headers := ⟨[(.etag, ⟨encode "\"1\"", by decide⟩),
      (.lastModified, ⟨encode time, by decide⟩)]⟩
    have hshare : headers.ReportsShare time "\"1\"" :=
      ⟨_, _, HeaderValue.ofText?_of_legal _, HeaderValue.ofText?_of_legal _, .swap ..⟩
    have htexts : (Element.parse listed).map (fun e => (e.childText? "Name",
        (e.child? "Properties").map fun p =>
          (p.childText? "Last-Modified", p.childText? "Etag", p.childText? "Quota"))) =
        .ok (some "a", some (some time, some "\"1\"", some "5")) := by
      decide +kernel
    obtain ⟨e, hparse, htexts⟩ := exists_of_map_ok htexts
    obtain ⟨p, hp, hfields⟩ := Option.map_eq_some_iff.1 (congrArg Prod.snd htexts)
    have hquota : readInteger Int64 "5" = .ok 5 := by decide +kernel
    have he : e.ListsShare time "\"1\"" := ⟨⟨"a", congrArg Prod.fst htexts⟩, p, hp,
      congrArg Prod.fst hfields, congrArg (·.2.1) hfields, _, "5", congrArg (·.2.2) hfields,
      (readInteger_eq_ok_iff .int64).1 hquota⟩
    have hconcur := (listing_agrees_with_headers.1 _ _ headers hshare).document _ e hparse he
    have haccepted : (extractProperties ShareProperties headers).map (fun found => found.1.etag) =
        .ok (some "\"1\"") := by
      decide +kernel
    obtain ⟨found, hfound, -⟩ := exists_of_map_ok haccepted
    obtain ⟨share, hlisted⟩ := hconcur.accepts.2 ⟨found, hfound⟩
    exact ⟨_, _, share, found, hlisted, hfound, hconcur.agree share found hlisted hfound⟩
  · let headers : Headers := ⟨[(.contentLength, ⟨encode " +7 ", by decide⟩)]⟩
    have hfile : headers.ReportsFile " +7 " := ⟨_, rfl, rfl⟩
    have htexts : (Element.parse measured).map (fun e => (e.childText? "Name",
        (e.child? "Properties").map fun p => p.childText? "Content-Length")) =
        .ok (some "a", some (some " +7 ")) := by
      decide +kernel
    obtain ⟨e, hparse, htexts⟩ := exists_of_map_ok htexts
    obtain ⟨p, hp, hlength⟩ := Option.map_eq_some_iff.1 (congrArg Prod.snd htexts)
    have he : e.ListsFile " +7 " := ⟨⟨"a", congrArg Prod.fst htexts⟩, p, hp, hlength⟩
    have hconcur := (listing_agrees_with_headers.2 " +7 " headers hfile).document _ e hparse he
    have haccepted : (extractProperties FileProperties headers).map
        (fun found => found.1.contentLength) = .ok (some 7) := by
      decide +kernel
    obtain ⟨found, hfound, -⟩ := exists_of_map_ok haccepted
    obtain ⟨file, hlisted⟩ := hconcur.accepts.2 ⟨found, hfound⟩
    exact ⟨_, file, found, hlisted, hfound, hconcur.agree file found hlisted hfound⟩

end ShareWire
