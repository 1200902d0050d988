import ShareWire.Proofs.Policy.Fields
import ShareWire.Proofs.Service.Fields

/-!
# Verbatim documents

What a document holds is the record that was written and nothing else. No string of a record, whatever
markup it has, adds, hides or moves an element.
-/

namespace ShareWire

open Text (encode)
open Markup

end ShareWire
