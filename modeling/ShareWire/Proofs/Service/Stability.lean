import ShareWire.Proofs.Fallible
import ShareWire.Proofs.Service.RoundTrip

/-!
# Settings that were read

Settings that come out of a document have the form that the round trip keeps: comma lists are split,
and texts that may be absent are not blank. So they can be written and read again without a change,
whatever the document looked like.
-/

namespace ShareWire

open Markup
open Text (allBlank encode joinCommas joinCommas_splitCommas separable_splitCommas splitCommas)

/-! ## Fields -/

theorem Element.allBlank_of_filledText? {e : Element} {name text : String}
    (h : e.filledText? name = some text) : allBlank text = false := by
  have hfilter := (Option.filter_eq_some_iff.1 h).2
  simpa using hfilter

theorem Element.exists_of_optional {α : Type} [FromElement α] {e : Element} {name : String}
    {o : Option α} (h : e.optional α name = .ok o) {a : α} (ha : a ∈ o) :
    ∃ c : Element, ofElement c = .ok a := by
  unfold Element.optional at h
  split at h
  · cases h
    cases ha
  · next c _ =>
    obtain ⟨b, hb, rfl⟩ := exists_of_map_ok h
    obtain rfl := Option.some.inj ha
    exact ⟨c, hb⟩

/-! ## Records -/

namespace CorsRule

theorem faithfulHeaders_filledText? (e : Element) (name : String) :
    FaithfulHeaders ((e.filledText? name).map splitCommas) := by
  intro entries hentries
  obtain ⟨text, htext, rfl⟩ := Option.map_eq_some_iff.1 hentries
  rw [joinCommas_splitCommas]
  exact ⟨Element.allBlank_of_filledText? htext, (separable_splitCommas text).2⟩

/-- A rule that was read has split lists and no blank ones. -/
theorem faithful_of_ofElement {e : Element} {r : CorsRule} (h : ofElement e = .ok r) :
    r.Faithful := by
  obtain ⟨origins, _, h⟩ := exists_of_bind_ok h
  obtain ⟨methods, _, h⟩ := exists_of_bind_ok h
  obtain ⟨age, _, h⟩ := exists_of_bind_ok h
  obtain ⟨seconds, _, h⟩ := exists_of_bind_ok h
  obtain rfl := Except.ok.inj h
  exact ⟨separable_splitCommas origins, separable_splitCommas methods,
    faithfulHeaders_filledText? e _, faithfulHeaders_filledText? e _⟩

theorem faithful_of_ofElement_list {e : Element} {rules : List CorsRule}
    (h : ofElement e = .ok rules) : ∀ r ∈ rules, r.Faithful := by
  intro r hr
  obtain ⟨c, _, hc⟩ := exists_mem_of_mapM_ok h hr
  exact faithful_of_ofElement hc

end CorsRule

namespace ServiceProperties

theorem faithful_of_ofElement {e : Element} {p : ServiceProperties} (h : ofElement e = .ok p) :
    p.Faithful := by
  obtain ⟨logging, _, h⟩ := exists_of_bind_ok h
  obtain ⟨hourMetrics, _, h⟩ := exists_of_bind_ok h
  obtain ⟨minuteMetrics, _, h⟩ := exists_of_bind_ok h
  obtain ⟨cors, hcors, h⟩ := exists_of_bind_ok h
  obtain rfl := Except.ok.inj h
  constructor
  · intro rules hrules
    obtain ⟨c, hc⟩ := Element.exists_of_optional hcors hrules
    exact CorsRule.faithful_of_ofElement_list hc
  · exact fun _ hs => Element.allBlank_of_filledText? hs

theorem faithful_of_fromXml {body : Bytes} {p : ServiceProperties}
    (h : fromXml ServiceProperties body = .ok p) : p.Faithful := by
  obtain ⟨root, _, hroot⟩ := exists_of_bind_ok h
  exact faithful_of_ofElement hroot

theorem fromXml_toDocument (p : ServiceProperties) :
    fromXml ServiceProperties (encode p.toDocument) = .ok p.readBack :=
  fromXml_toXml (by decide) p.toElements_eq p.canonical_of_mem_fields (p.ofElement_fields _ _)

end ServiceProperties

/-! ## Reading again -/

/-- Settings that were read from any document are written as a document from which the same settings
are read. -/
theorem fromXml_toDocument_of_fromXml {body : Bytes} {p : ServiceProperties}
    (h : fromXml ServiceProperties body = .ok p) :
    fromXml ServiceProperties (encode p.toDocument) = .ok p := by
  have hread := p.fromXml_toDocument
  rw [ServiceProperties.readBack_eq_self_iff.2 (ServiceProperties.faithful_of_fromXml h)] at hread
  exact hread

/-- A document with an unknown element, a second version, a character data section, padding and a blank
header list. -/
theorem fromXml_toDocument_of_fromXml_padded :
    fromXml ServiceProperties (["<Any><New/><Cors> <CorsRule>", "<AllowedOrigins></AllowedOrigins>",
        "<AllowedMethods>GET,,<![CDATA[&]]>", "</AllowedMethods><MaxAgeInSeconds>",
        " +5\n</MaxAgeInSeconds><AllowedHeaders>", " </AllowedHeaders></CorsRule></Cors>",
        "<DefaultServiceVersion> 1</DefaultServiceVersion>", "<DefaultServiceVersion/></Any>"].flatMap
          encode) =
      .ok ⟨none, none, none, some [⟨[""], ["GET", "", "&"], 5, none, none⟩], some " 1"⟩ ∧
    fromXml ServiceProperties (encode (ServiceProperties.toDocument
      ⟨none, none, none, some [⟨[""], ["GET", "", "&"], 5, none, none⟩], some " 1"⟩)) =
      .ok ⟨none, none, none, some [⟨[""], ["GET", "", "&"], 5, none, none⟩], some " 1"⟩ := by
  refine ⟨?hread, fromXml_toDocument_of_fromXml ?hread⟩
  decide +kernel

end ShareWire
