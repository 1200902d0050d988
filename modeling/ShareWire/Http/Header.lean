import ShareWire.Text.Blank
import ShareWire.Text.Utf8

/-!
# Header fields

Names and values of header fields. A name is a token in lower case, a value is bytes without control
characters; neither can end a line.
-/

namespace ShareWire.Http

open Text (lowerAscii)

def isNameChar (c : Char) : Bool :=
  ('a' ≤ c && c ≤ 'z') || c.isDigit || "!#$%&'*+-.^_`|~".toList.contains c

def greatestNameLength : Nat := 65535

/-- The name of a header field, in lower case. -/
structure HeaderName where
  text : String
  nonempty : text.toList ≠ []
  short : text.toList.length ≤ greatestNameLength
  token : text.toList.all isNameChar = true
deriving DecidableEq, Repr

namespace HeaderName

def ofText? (s : String) : Option HeaderName :=
  let name := String.ofList (s.toList.map lowerAscii)
  if h : name.toList ≠ [] ∧ name.toList.length ≤ greatestNameLength ∧
      name.toList.all isNameChar = true then
    some ⟨name, h.1, h.2.1, h.2.2⟩
  else none

def authorization : HeaderName := ⟨"authorization", by decide, by decide, by decide⟩

def contentLength : HeaderName := ⟨"content-length", by decide, by decide, by decide⟩

def contentType : HeaderName := ⟨"content-type", by decide, by decide, by decide⟩

def userAgent : HeaderName := ⟨"user-agent", by decide, by decide, by decide⟩

def date : HeaderName := ⟨"x-ms-date", by decide, by decide, by decide⟩

def version : HeaderName := ⟨"x-ms-version", by decide, by decide, by decide⟩

end HeaderName

/-- A byte of a header value: anything but control characters, the tab allowed. -/
def isValueByte (b : UInt8) : Bool :=
  b = 9 || (32 ≤ b && b ≠ 127)

structure HeaderValue where
  bytes : Bytes
  /-- No byte is a control character other than the tab. -/
  legal : bytes.all isValueByte = true
deriving DecidableEq, Repr

namespace HeaderValue

def ofBytes? (bytes : Bytes) : Option HeaderValue :=
  if h : bytes.all isValueByte = true then some ⟨bytes, h⟩ else none

def ofText? (s : String) : Option HeaderValue :=
  ofBytes? (Text.encode s)

def text (v : HeaderValue) : Except Text.Utf8Error String :=
  Text.decode v.bytes

theorem isValueByte_of_isDigit {c : Char} (h : c.isDigit = true) :
    (String.utf8EncodeChar c).all isValueByte = true := by
  simp only [Char.isDigit, Bool.and_eq_true, decide_eq_true_eq] at h
  have h1 : 48 ≤ c.toNat := UInt32.le_iff_toNat_le.1 h.1
  have h2 : c.toNat ≤ 57 := UInt32.le_iff_toNat_le.1 h.2
  have small (n : Nat) (h1 : 48 ≤ n) (h2 : n ≤ 57) : isValueByte (UInt8.ofNat n) = true := by
    have : n = 48 ∨ n = 49 ∨ n = 50 ∨ n = 51 ∨ n = 52 ∨ n = 53 ∨ n = 54 ∨ n = 55 ∨ n = 56 ∨
        n = 57 := by omega
    rcases this with h | h | h | h | h | h | h | h | h | h <;> subst h <;> decide
  have h127 : c.toNat ≤ 127 := by omega
  have he : String.utf8EncodeChar c = [UInt8.ofNat c.toNat] := by
    simp [String.utf8EncodeChar, h127]
  simp [he, small _ h1 h2]

theorem legal_encode_toString (n : Nat) :
    (Text.encode (toString n)).all isValueByte = true := by
  have hd : (toString n).toList = Nat.toDigits 10 n := by
    simp [Nat.toString_eq_repr]
  rw [Text.encode, hd, List.all_flatMap, List.all_eq_true]
  intro c hc
  exact isValueByte_of_isDigit (Nat.isDigit_of_mem_toDigits (by decide) (by decide) hc)

def ofNat (n : Nat) : HeaderValue :=
  ⟨Text.encode (toString n), legal_encode_toString n⟩

end HeaderValue

end ShareWire.Http
