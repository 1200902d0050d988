/-!
# UTF-8 text

Bytes as they travel, and the strict decoder that turns them into text. A sequence that is not the
shortest form of a Unicode scalar value is refused, with the place where it starts and the number of
bytes that could still have begun a character.
-/

namespace ShareWire

abbrev Bytes := List UInt8

namespace Text

/-- Where and how a byte sequence stops being UTF-8. -/
inductive Utf8Error where
  /-- The bytes from `index` on begin no character; `length` of them are at fault. -/
  | invalid (index length : Nat)
  /-- The input ends inside the character that starts at `index`. -/
  | incomplete (index : Nat)
deriving DecidableEq, Repr

def Utf8Error.message : Utf8Error → String
  | .invalid index length => s!"invalid utf-8 sequence of {length} bytes from index {index}"
  | .incomplete index => s!"incomplete utf-8 byte sequence from index {index}"

def encode (s : String) : Bytes :=
  s.toList.flatMap String.utf8EncodeChar

/-- A continuation byte, `80` to `BF`. -/
def isTail (b : UInt8) : Bool :=
  0x80 ≤ b && b ≤ 0xBF

/-- Whether `b` may follow the lead byte of a three-byte character: overlong forms and surrogates
are shut out here. -/
def isSecondOfThree (lead b : UInt8) : Bool :=
  if lead = 0xE0 then 0xA0 ≤ b && b ≤ 0xBF
  else if lead = 0xED then 0x80 ≤ b && b ≤ 0x9F
  else isTail b

/-- Whether `b` may follow the lead byte of a four-byte character: overlong forms and values above
`10FFFF` are shut out here. -/
def isSecondOfFour (lead b : UInt8) : Bool :=
  if lead = 0xF0 then 0x90 ≤ b && b ≤ 0xBF
  else if lead = 0xF4 then 0x80 ≤ b && b ≤ 0x8F
  else isTail b

def tailBits (b : UInt8) : Nat :=
  b.toNat % 64

def charOfTwo (a b : UInt8) : Char :=
  Char.ofNat (a.toNat % 32 * 64 + tailBits b)

def charOfThree (a b c : UInt8) : Char :=
  Char.ofNat (a.toNat % 16 * 4096 + tailBits b * 64 + tailBits c)

def charOfFour (a b c d : UInt8) : Char :=
  Char.ofNat (a.toNat % 8 * 262144 + tailBits b * 4096 + tailBits c * 64 + tailBits d)

/-- Decodes bytes whose first one stands at `index` of the whole input. -/
def decodeFrom (index : Nat) : Bytes → Except Utf8Error (List Char)
  | [] => .ok []
  | a :: rest =>
    if a < 0x80 then
      (decodeFrom (index + 1) rest).map (Char.ofNat a.toNat :: ·)
    else if 0xC2 ≤ a && a ≤ 0xDF then
      match rest with
      | [] => .error (.incomplete index)
      | b :: rest =>
        if isTail b then (decodeFrom (index + 2) rest).map (charOfTwo a b :: ·)
        else .error (.invalid index 1)
    else if 0xE0 ≤ a && a ≤ 0xEF then
      match rest with
      | [] => .error (.incomplete index)
      | b :: rest =>
        if isSecondOfThree a b then
          match rest with
          | [] => .error (.incomplete index)
          | c :: rest =>
            if isTail c then (decodeFrom (index + 3) rest).map (charOfThree a b c :: ·)
            else .error (.invalid index 2)
        else .error (.invalid index 1)
    else if 0xF0 ≤ a && a ≤ 0xF4 then
      match rest with
      | [] => .error (.incomplete index)
      | b :: rest =>
        if isSecondOfFour a b then
          match rest with
          | [] => .error (.incomplete index)
          | c :: rest =>
            if isTail c then
              match rest with
              | [] => .error (.incomplete index)
              | d :: rest =>
                if isTail d then (decodeFrom (index + 4) rest).map (charOfFour a b c d :: ·)
                else .error (.invalid index 3)
            else .error (.invalid index 2)
        else .error (.invalid index 1)
    else .error (.invalid index 1)

def decode (bytes : Bytes) : Except Utf8Error String :=
  (decodeFrom 0 bytes).map String.ofList

end Text

end ShareWire
