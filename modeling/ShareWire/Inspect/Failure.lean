import ShareWire.Inspect.Filter
import ShareWire.Inspect.Kind

/-!
# Failures of an inspection

Each stage of an inspection fails in its own way. A failure has a message and, beneath it, the chain
of its causes, the nearest first.
-/

namespace ShareWire.Inspect

/-- Why bytes cannot be read, as the system says it. -/
structure ReadFault where
  description : String
  code : Nat
deriving DecidableEq, Repr

def ReadFault.message (f : ReadFault) : String :=
  f.description ++ " (os error " ++ toString f.code ++ ")"

inductive Failure where
  /-- The command line names no kind of document. -/
  | noKind
  /-- The command line names a kind that there is none of. -/
  | unknownKind (word : String)
  | badFilter (filter : String) (fault : DirectiveFault)
  /-- The file at a path, or the standard input, cannot be read. -/
  | unreadable (path : Option String) (fault : ReadFault)
  /-- The body cannot be shown as a record of its kind. -/
  | badBody (kind : Kind) (fault : BodyFault)
deriving DecidableEq, Repr

def usage : String :=
  "usage: azfile-inspect <" ++ "|".intercalate (Kind.all.map Kind.word) ++ "> [path]"

def BodyFault.causes : BodyFault → List String
  | .exchange error => error.causes
  | .noBody => ["response has no body"]

namespace Failure

def message : Failure → String
  | .noKind => usage
  | .unknownKind word => "unknown document kind '" ++ word ++ "'\n" ++ usage
  | .badFilter filter _ => "invalid log level filter: " ++ filter
  | .unreadable path _ => "failed to read " ++ path.getD "stdin"
  | .badBody kind _ => "failed to parse " ++ kind.title ++ " document"

def causes : Failure → List String
  | .noKind | .unknownKind _ => []
  | .badFilter _ fault => fault.message :: fault.causes
  | .unreadable _ fault => [fault.message]
  | .badBody _ fault => fault.causes

end Failure

/-- A text with blanks after each of its line ends. -/
def indentLines (width : Nat) (s : String) : String :=
  String.ofList (s.toList.flatMap fun c =>
    if c = '\n' then c :: List.replicate width ' ' else [c])

def onlyCause (s : String) : String :=
  "\n    " ++ indentLines 4 s

/-- A cause with its place in the chain, which is written in five columns. -/
def numberedCause (place : Nat) (s : String) : String :=
  let number := toString place
  "\n" ++ String.ofList (List.replicate (5 - number.length) ' ') ++ number ++ ": " ++
    indentLines 7 s

def numberedCauses (place : Nat) : List String → String
  | [] => ""
  | cause :: causes => numberedCause place cause ++ numberedCauses (place + 1) causes

def causesText : List String → String
  | [] => ""
  | [cause] => "\n\nCaused by:" ++ onlyCause cause
  | causes => "\n\nCaused by:" ++ numberedCauses 0 causes

def Failure.report (f : Failure) : String :=
  "Error: " ++ f.message ++ causesText f.causes ++ "\n"

end ShareWire.Inspect
