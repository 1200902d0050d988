import ShareWire.Http.Response
import ShareWire.Proofs.Fallible

/-!
# Bodies of responses

What is read from a response depends on its body alone: on the tree of the body, and on the record that
the tree is read as.
-/

namespace ShareWire

variable {α : Type} [FromElement α] {body other : Bytes}

theorem fromXml_of_parse_error {error : DocumentError} (h : Element.parse body = .error error) :
    fromXml α body = .error error := by
  rw [fromXml, h]
  rfl

theorem fromXml_of_parse {root : Element} (h : Element.parse body = .ok root) :
    fromXml α body = ofElement root := by
  rw [fromXml, h]
  rfl

theorem fromXml_congr (h : Element.parse body = Element.parse other) :
    fromXml α body = fromXml α other := by
  rw [fromXml, h, ← fromXml]

namespace Http.Response

variable {response : Response}

theorem read_unparsed (h : response.body = none) : response.read α = .ok (.unparsed response) := by
  rw [read, h]

theorem read_congr (hbody : response.body = some body) (h : fromXml α body = fromXml α other) :
    response.read α = Response.read α { response with body := some other } := by
  rw [read, read, hbody]
  simp only [h]

theorem read_error {error : DocumentError} (hbody : response.body = some body)
    (h : fromXml α body = .error error) : response.read α = .error (.document error) := by
  rw [read, hbody]
  simp only [h]

theorem exists_of_read_ok {outcome : Outcome α} (hbody : response.body = some body)
    (h : response.read α = .ok outcome) : ∃ root record, Element.parse body = .ok root ∧
      ofElement root = .ok record ∧ outcome = .parsed record := by
  rw [read, hbody] at h
  simp only at h
  split at h
  · next record hrecord =>
    obtain ⟨root, hroot, hrecord⟩ := exists_of_bind_ok hrecord
    exact ⟨root, record, hroot, hrecord, (Except.ok.inj h).symm⟩
  · cases h

end Http.Response

end ShareWire
