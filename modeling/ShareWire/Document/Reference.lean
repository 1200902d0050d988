import ShareWire.Document.Error

/-!
# References

A reference stands for one character: by number, decimal or hexadecimal, or by one of five names. No
document declares names of its own.
-/

namespace ShareWire.Reference

open Text (Base readInteger)

def named? (body : String) : Option Char :=
  if body = "lt" then some '<'
  else if body = "gt" then some '>'
  else if body = "amp" then some '&'
  else if body = "apos" then some '\x27'
  else if body = "quot" then some '\x22'
  else none

def numbered (body : String) (base : Base) (digits : List Char) : Except ValueError Char :=
  match readInteger UInt32 base digits with
  | .error fault => .error (.referenceNumber body fault)
  | .ok n =>
    if n.toNat.isValidChar then .ok (Char.ofNat n.toNat) else .error (.notCharacter body)

def resolve (body : String) : Except ValueError Char :=
  match body.toList with
  | '#' :: 'x' :: digits => numbered body .hexadecimal digits
  | '#' :: digits => numbered body .decimal digits
  | _ =>
    match named? body with
    | some c => .ok c
    | none => .error (.unknownEntity body)

end ShareWire.Reference
