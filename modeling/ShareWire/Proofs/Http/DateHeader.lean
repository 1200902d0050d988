import ShareWire.Proofs.Http.Failure
import ShareWire.Proofs.Text.Utf8
import ShareWire.Proofs.Time.HeaderDate

/-!
# Date headers of requests

The date header of a request can always be written, and whoever reads it gets the instant back to the
second. Main statement: the text of a header date is a header value, it denotes its instant, and in the
years of four digits it has one fixed form.
-/

namespace ShareWire.Http

open Text (encode)
open Time (FallsOn Instant)

/-! ## Visible texts as values -/

theorem isValueByte_ofNat {n : Nat} (h : 0x20 ≤ n ∧ n ≤ 0x7E) : isValueByte (UInt8.ofNat n) = true := by
  have hn : (UInt8.ofNat n).toNat = n := Text.toNat_ofNat_of_lt (by omega)
  have hdelete : UInt8.ofNat n ≠ 127 := fun he => by
    rw [he] at hn
    simp at hn
    omega
  have hspace : 32 ≤ UInt8.ofNat n := UInt8.le_iff_toNat_le.2 (by rw [hn]; exact h.1)
  simp [isValueByte, hspace, hdelete]

theorem HeaderValue.exists_ofText? {s : String} (h : ∀ c ∈ s.toList, ' ' ≤ c ∧ c ≤ '~') :
    ∃ value : HeaderValue, ofText? s = some value ∧ value.bytes = encode s := by
  have hrange : ∀ c ∈ s.toList, 0x20 ≤ c.toNat ∧ c.toNat ≤ 0x7E := fun c hc => h c hc
  have hlegal : (encode s).all isValueByte = true := by
    rw [Text.encode_of_ascii fun c hc => by have := hrange c hc; omega, List.all_map,
      List.all_eq_true]
    exact fun c hc => isValueByte_ofNat (hrange c hc)
  exact ⟨⟨encode s, hlegal⟩, dif_pos hlegal, rfl⟩

/-! ## Signing -/

theorem ne_date_of_namesCommonField {error : ExchangeError} (h : NamesCommonField error)
    (fault : HeaderFault) : error ≠ .invalidHeader "x-ms-date" fault := by
  rintro rfl
  rcases h with h | h | ⟨key, h⟩
  · exact absurd h (by decide)
  · exact absurd h (by decide)
  · have hmark : metadataMark.toList <+: "x-ms-date".toList :=
      ⟨key.toList, by rw [← String.toList_append, ← h]⟩
    exact absurd hmark (by decide)

/-- A request whose date is a header value fails in its common fields or is refused by its signer. -/
theorem signRequest_error {t : Instant} {value : HeaderValue}
    (hvalue : HeaderValue.ofText? t.httpDate = some value) {updater : Updater} {signer : Signer}
    {request : Request} {error : ExchangeError}
    (h : (request.apply (signRequest updater signer t)).1 = .error error) :
    (request.apply updater.run).1 = .error error ∨ IsRefusal error := by
  have hlater : FailsOnly IsRefusal (do
      appendField .date (← valueOf "x-ms-date" t.httpDate)
      appendField .contentType octetStream
      runSigner signer) := by
    have hdate : valueOf "x-ms-date" t.httpDate = pure value := by
      rw [valueOf, hvalue]
    rw [hdate]
    refine (FailsOnly.pure _).bind fun _ => (failsOnly_appendField _ _).bind fun _ => ?_
    exact (failsOnly_appendField _ _).bind fun _ => failsOnly_runSigner signer
  rcases hupdater : updater.run.run.run request with ⟨found | _, later⟩
  · rw [Request.apply, signRequest, run_bind_error hupdater] at h
    obtain rfl := Except.error.inj h
    exact .inl (by rw [Request.apply, hupdater])
  · rw [Request.apply, signRequest, run_bind_ok hupdater] at h
    exact .inr (hlater later error h)

/-! ## Header dates -/

/-- The header date of any instant is read as the second that clocks show, which is the instant without its
fraction unless that is a leap second inside a minute. The date is visible ASCII, so it is a header value,
and no request fails for its date. It names the day of the week on which the date falls, and from year 0 to
9999 it has 29 bytes of one form. -/
theorem httpDate_denotes (t : Instant) :
    Instant.ofText t.httpDate = .ok t.toSecond ∧
    (t.toSecond = t.truncated ↔ t.LeapEndsMinute) ∧
    (∀ c ∈ t.httpDate.toList, ' ' ≤ c ∧ c ≤ '~') ∧
    (∃ value : HeaderValue, HeaderValue.ofText? t.httpDate = some value) ∧
    (∀ (updater : Updater) (signer : Signer) (request : Request) (error : ExchangeError),
      (request.apply (signRequest updater signer t)).1 = .error error →
        ((request.apply updater.run).1 = .error error ∨ IsRefusal error) ∧
        ∀ fault, error ≠ .invalidHeader "x-ms-date" fault) ∧
    (∀ day, FallsOn t.date day ↔ day = t.weekday) ∧
    (0 ≤ t.date.year ∧ t.date.year ≤ 9999 →
      (encode t.httpDate).length = 29 ∧ t.httpDate.toList = t.fields.headerForm t.weekday) := by
  have hvisible : ∀ c ∈ t.httpDate.toList, ' ' ≤ c ∧ c ≤ '~' := fun c => t.visible_of_mem_httpDate
  obtain ⟨value, hvalue, _⟩ := HeaderValue.exists_ofText? hvisible
  refine ⟨t.ofText_httpDate, Instant.toSecond_eq_truncated_iff, hvisible, ⟨value, hvalue⟩, ?_,
    fun day => t.fallsOn_date_iff, ?_⟩
  · intro updater signer request error h
    have hcause := signRequest_error hvalue h
    refine ⟨hcause, fun fault => ?_⟩
    rcases hcause with hupdater | hrefusal
    · exact ne_date_of_namesCommonField (failsOnly_updater updater request error hupdater) fault
    · rintro rfl
      exact hrefusal
  · intro hyear
    have hform := Instant.httpDate_eq_headerForm hyear
    have hascii : ∀ c ∈ t.httpDate.toList, c.toNat < 0x80 := fun c hc =>
      Nat.lt_of_le_of_lt (show c.toNat ≤ 0x7E from (hvisible c hc).2) (by decide)
    refine ⟨?_, hform⟩
    rw [Text.encode_of_ascii hascii, List.length_map, hform, t.length_headerForm]

/-- The middle of the leap second at the end of the year 2016, a Saturday, on a request that its signer
refuses. -/
theorem httpDate_denotes_leap :
    let t : Instant := ⟨1483228799, 1500000000, by decide, by decide, by decide⟩
    let refused := Request.apply ⟨"GET", "/", ∅, ∅, []⟩ (signRequest .none (throw "no key") t)
    t.httpDate = "Sat, 31 Dec 2016 23:59:60 GMT" ∧
    Instant.ofText t.httpDate = .ok ⟨1483228799, 1000000000, by decide, by decide, by decide⟩ ∧
    (encode t.httpDate).length = 29 ∧ FallsOn ⟨2016, 12, 31⟩ .saturday ∧
    refused.1 = .error (.signing "no key") ∧ refused.1 ≠ .error (.invalidHeader "x-ms-date" .badValue) := by
  intro t refused
  have hdate : t.date = ⟨2016, 12, 31⟩ := by decide
  have hrefused : refused.1 = .error (.signing "no key") := by decide +kernel
  obtain ⟨hread, _, _, _, hsigned, hfalls, hform⟩ := httpDate_denotes t
  obtain ⟨_, hother⟩ := hsigned .none (throw "no key") ⟨"GET", "/", ∅, ∅, []⟩ _ hrefused
  refine ⟨by decide +kernel, hread, (hform (by decide)).1, ?_, hrefused, ?_⟩
  · rw [← hdate]
    exact (hfalls .saturday).2 (by decide)
  · rw [hrefused]
    exact fun h => hother .badValue (Except.error.inj h)

/-- The header date of a leap second inside a minute is that of the second that follows. -/
theorem httpDate_inside_minute :
    let t : Instant := ⟨86164, 1333333333, by decide, by decide, by decide⟩
    t.httpDate = "Thu, 01 Jan 1970 23:56:05 GMT" ∧
    Instant.ofText t.httpDate = .ok ⟨86165, 0, by decide, by decide, by decide⟩ ∧
    Instant.ofText t.httpDate ≠ .ok t.truncated := by
  intro t
  have hsecond : t.toSecond = ⟨86165, 0, by decide, by decide, by decide⟩ := by decide +kernel
  have hinside : t.toSecond ≠ t.truncated := by decide +kernel
  rw [t.ofText_httpDate, hsecond]
  exact ⟨by decide +kernel, rfl, fun h => hinside (hsecond.trans (Except.ok.inj h))⟩

end ShareWire.Http
