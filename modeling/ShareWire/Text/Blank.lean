/-!
# White space

The white space of the Unicode property `White_Space`, and trimming by it.
-/

namespace ShareWire.Text

/-- The characters with the Unicode property `White_Space`, as inclusive ranges of code points. -/
def blankRanges : List (Nat × Nat) :=
  [(0x09, 0x0D), (0x20, 0x20), (0x85, 0x85), (0xA0, 0xA0), (0x1680, 0x1680), (0x2000, 0x200A),
    (0x2028, 0x2029), (0x202F, 0x202F), (0x205F, 0x205F), (0x3000, 0x3000)]

def isBlank (c : Char) : Bool :=
  blankRanges.any fun (low, high) => low ≤ c.toNat && c.toNat ≤ high

def trimStart (cs : List Char) : List Char :=
  cs.dropWhile isBlank

def trimEnd (cs : List Char) : List Char :=
  (cs.reverse.dropWhile isBlank).reverse

def trim (cs : List Char) : List Char :=
  trimEnd (trimStart cs)

def allBlank (s : String) : Bool :=
  s.toList.all isBlank

/-- Case folding of a single ASCII letter; every other character stands for itself. -/
def lowerAscii (c : Char) : Char :=
  if 'A' ≤ c && c ≤ 'Z' then Char.ofNat (c.toNat + 32) else c

def equalsIgnoringCase (cs ds : List Char) : Bool :=
  cs.map lowerAscii == ds.map lowerAscii

end ShareWire.Text
