/-!
# Comma lists

Lists of texts inside one text, with commas between the entries. Entries are kept as written, so an
entry that has a comma of its own comes back as two.
-/

namespace ShareWire.Text

/-- The parts of a text between its commas; there is always at least one. -/
def splitAtCommas : List Char → List (List Char)
  | [] => [[]]
  | c :: cs =>
    if c = ',' then [] :: splitAtCommas cs
    else
      match splitAtCommas cs with
      | [] => [[c]]
      | word :: words => (c :: word) :: words

def splitCommas (s : String) : List String :=
  (splitAtCommas s.toList).map String.ofList

def joinCommas (entries : List String) : String :=
  String.ofList ([','].intercalate (entries.map String.toList))

end ShareWire.Text
