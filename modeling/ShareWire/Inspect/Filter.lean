import ShareWire.Inspect.Directive
import ShareWire.Text.Commas

/-!
# Log filters

A log filter is a comma list of directives, where empty ones are passed over. A filter is followed
only if all of its directives can be, or leniently, where the others are noted and left out. Both ways
stop at a directive that is cut inside a character.
-/

namespace ShareWire.Inspect

def directives (filter : String) : List (List Char) :=
  (Text.splitAtCommas filter.toList).filter fun directive => !directive.isEmpty

def checkDirectives : List (List Char) → Except Obstacle PUnit
  | [] => .ok ()
  | directive :: rest => do
    checkDirective directive
    checkDirectives rest

def checkFilter (filter : String) : Except Obstacle PUnit :=
  checkDirectives (directives filter)

def note (directive : List Char) (fault : DirectiveFault) : String :=
  "ignoring `" ++ String.ofList directive ++ "`: " ++ fault.message ++ "\n"

/-- What is noted of directives, behind what is noted already. The notes are an error if the program stops
behind them. -/
def noteDirectives (noted : String) : List (List Char) → Except String String
  | [] => .ok noted
  | directive :: rest =>
    match checkDirective directive with
    | .ok _ => noteDirectives noted rest
    | .error (.fault fault) => noteDirectives (noted ++ note directive fault) rest
    | .error .cut => .error noted

def noteFilter (filter : String) : Except String String :=
  noteDirectives "" (directives filter)

end ShareWire.Inspect
