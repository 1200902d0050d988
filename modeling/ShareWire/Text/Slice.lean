/-!
# Slices

Pieces of a text between two places. A place is told by its distance from the start in bytes, and there is
none inside a character.
-/

namespace ShareWire.Text

def byteLength : List Char → Nat
  | [] => 0
  | c :: cs => c.utf8Size + byteLength cs

/-- What stands before a place and what stands behind it. -/
def splitAtPlace? : Nat → List Char → Option (List Char × List Char)
  | 0, cs => some ([], cs)
  | _ + 1, [] => none
  | place + 1, c :: cs =>
    if c.utf8Size ≤ place + 1 then
      (splitAtPlace? (place + 1 - c.utf8Size) cs).map fun (before, behind) => (c :: before, behind)
    else none

def slice? (cs : List Char) (start stop : Nat) : Option (List Char) := do
  let (before, _) ← splitAtPlace? stop cs
  let (_, slice) ← splitAtPlace? start before
  return slice

end ShareWire.Text
