import ShareWire.Regex.Compile
import ShareWire.Text.Letter
import ShareWire.Text.Slice

/-!
# Directives of log filters

A directive names a level, or a target, a span in brackets with fields in braces, and a level behind
an equals sign. White space around a directive is passed over when it is read, but its pieces are cut
from the whole text, by their distance from the start. So white space in front shifts the pieces, and one
that then begins or ends inside a character stops the program.
-/

namespace ShareWire.Inspect

open Text (byteLength equalsIgnoringCase isAlphanumeric slice?)
open Regex (CompileFault compileFault?)

def levelWords : List String :=
  ["off", "error", "warn", "info", "debug", "trace"]

def greatestLevel : UInt64 := 5

/-- Whether a text names a level, by a word in any case or by a number. -/
def namesLevel (cs : List Char) : Bool :=
  levelWords.any (fun word => equalsIgnoringCase cs word.toList) ||
    match Text.readInteger UInt64 .decimal cs with
    | .ok n => n ≤ greatestLevel
    | .error _ => false

def levelMessage : String :=
  "error parsing level filter: expected one of " ++
    ", ".intercalate (levelWords.map fun word => "\"" ++ word ++ "\"") ++ ", or a number 0-5"

inductive DirectiveFault where
  | form
  | level
  | field (fault : CompileFault)
deriving DecidableEq, Repr

/-- How the reading of a directive ends, unless the directive can be followed. -/
inductive Obstacle where
  | fault (fault : DirectiveFault)
  /-- A piece begins or ends inside a character. -/
  | cut
deriving DecidableEq, Repr

def DirectiveFault.message : DirectiveFault → String
  | .form => "invalid filter directive"
  | .level => levelMessage
  | .field fault => "invalid field filter: " ++ fault.message

def DirectiveFault.causes : DirectiveFault → List String
  | .form => []
  | .level => [levelMessage]
  | .field fault => fault.message :: fault.causes

def passSign : List Char → List Char
  | '+' :: cs | '-' :: cs => cs
  | cs => cs

/-- Whether a text is the exponent of a decimal, perhaps missing. -/
def isExponent : List Char → Bool
  | [] => true
  | e :: cs => (e = 'e' || e = 'E') && (passSign cs).all Char.isDigit && !(passSign cs).isEmpty

/-- Whether a text is a decimal number without a sign. -/
def isMagnitude (cs : List Char) : Bool :=
  let digits := cs.takeWhile Char.isDigit
  match cs.dropWhile Char.isDigit with
  | '.' :: rest =>
    !(digits.isEmpty && (rest.takeWhile Char.isDigit).isEmpty) &&
      isExponent (rest.dropWhile Char.isDigit)
  | rest => !digits.isEmpty && isExponent rest

def numberWords : List String :=
  ["inf", "infinity", "nan"]

/-- Whether a text is a number with a sign or without, perhaps infinite or no number. -/
def isNumber (cs : List Char) : Bool :=
  numberWords.any (fun word => equalsIgnoringCase (passSign cs) word.toList) ||
    isMagnitude (passSign cs)

/-- The value that a field is to have: what stands between its first two equals signs. -/
def fieldValue? (field : List Char) : Option (List Char) :=
  match field.dropWhile (· ≠ '=') with
  | [] => none
  | _ :: rest => some (rest.takeWhile (· ≠ '='))

def checkField (field : List Char) : Except Obstacle PUnit :=
  match fieldValue? field with
  | none => .ok ()
  | some value =>
    if isNumber value then .ok ()
    else
      match compileFault? (String.ofList value) with
      | none => .ok ()
      | some fault => .error (.fault (.field fault))

/-- The part of a directive that is being read, with the place where it begins. -/
inductive DirectivePart where
  | nothing
  | target (start : Nat)
  | span (start : Nat)
  | field (start : Nat)
  | fields
  | behindSpan
  | level (start : Nat)
deriving DecidableEq, Repr

def piece (text : List Char) (start stop : Nat) : Except Obstacle (List Char) :=
  match slice? text start stop with
  | some cs => .ok cs
  | none => .error .cut

/-- Checks a level, which may be left out. -/
def checkLevel (cs : List Char) : Except Obstacle PUnit :=
  if cs.isEmpty || namesLevel cs then .ok () else .error (.fault .level)

/-- Whether a directive can start with a character, unless it starts with a span. -/
def startsTarget (c : Char) : Bool :=
  c = '-' || c = ':' || c = '_' || isAlphanumeric c

/-- Reads a character at a place. What a part is cut to is used for fields and levels only, but every part is
cut where it ends, except for a target that ends the directive. -/
def DirectivePart.step (text : List Char) (place : Nat) (c : Char) :
    DirectivePart → Except Obstacle DirectivePart
  | .nothing =>
    if c = '[' then .ok (.span (place + 1))
    else if startsTarget c then .ok (.target place)
    else .error (.fault .form)
  | .target start => do
    if c = '=' then
      let _ ← piece text start place
      return .level (place + 1)
    if c = '[' then
      let _ ← piece text start place
      return .span (place + 1)
    return .target start
  | .span start => do
    if c = ']' then
      let _ ← piece text start place
      return .behindSpan
    if c = '\x7b' then
      let _ ← piece text start place
      return .field (place + 1)
    return .span start
  | .field start => do
    if c ≠ '\x7d' then return .field start
    let field ← piece text start place
    if field.isEmpty then throw (.fault .form)
    checkField field
    return .fields
  | .fields => if c = ']' then .ok .behindSpan else .error (.fault .form)
  | .behindSpan => if c = '=' then .ok (.level (place + 1)) else .error (.fault .form)
  | .level start => .ok (.level start)

def DirectivePart.finish (text : List Char) : DirectivePart → Except Obstacle PUnit
  | .target _ | .behindSpan => .ok ()
  | .level start => do checkLevel (← piece text start (byteLength text))
  | .nothing | .span _ | .field _ | .fields => .error (.fault .form)

def DirectivePart.read (text : List Char) (place : Nat) (part : DirectivePart) :
    List Char → Except Obstacle PUnit
  | [] => part.finish text
  | c :: cs => do DirectivePart.read text (place + c.utf8Size) (← part.step text place c) cs

def checkDirective (directive : List Char) : Except Obstacle PUnit :=
  DirectivePart.nothing.read directive 0 (Text.trim directive)

end ShareWire.Inspect
