import ShareWire.Document.Encode
import ShareWire.Proofs.Document.Canonical
import ShareWire.Proofs.Text.Commas

/-!
# Fields

The elements that the writer makes of single values, as trees.
-/

namespace ShareWire.Element

theorem ofBool_eq (name : String) (b : Bool) : ofBool name b = ⟨name, toString b, []⟩ := by
  cases b <;> rfl

theorem record_eq {α : Type} [ToElements α] {fields : α → List Element}
    (h : ∀ value, toElements value = fields value) (name : String) :
    record name = fun value => ⟨name, "", fields value⟩ := by
  funext value
  rw [record, h]

theorem ofEntries_eq (name : String) (entries : Option (List String)) :
    ofEntries name entries = ⟨name, ",".intercalate (entries.getD []), []⟩ := by
  rw [ofEntries, Text.joinCommas_eq]
  rfl

end ShareWire.Element
