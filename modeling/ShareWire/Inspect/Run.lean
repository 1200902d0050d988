import ShareWire.Http.Config
import ShareWire.Inspect.Failure

/-!
# Inspections

One run of the command. The kind of the document is looked at first, then the log filter; then the
body is read and turned into JSON. The first stage that fails ends the run.

An end of a run is what the program itself puts out and says. The log, which is what the filter lets
through, and the words in which a crash is announced are no part of it.
-/

namespace ShareWire.Inspect

open Http (Config)

/-! ## Ends -/

inductive Ending where
  | shown (text : String)
  | failed (failure : Failure)
  /-- The program stops where it is. -/
  | crashed
deriving DecidableEq, Repr

structure Exit where
  /-- What was noted of the log filter before. -/
  notes : String
  ending : Ending
deriving DecidableEq, Repr

namespace Exit

def code (e : Exit) : UInt32 :=
  match e.ending with
  | .shown _ => 0
  | .failed _ => 1
  | .crashed => 101

def output (e : Exit) : String :=
  match e.ending with
  | .shown text => text
  | .failed _ | .crashed => ""

/-- The notes and the report of a failure. -/
def errors (e : Exit) : String :=
  match e.ending with
  | .shown _ | .crashed => e.notes
  | .failed failure => e.notes ++ failure.report

end Exit

/-! ## Stages -/

structure Task where
  kind : Kind
  /-- Where the body stands; the standard input if no path is given. -/
  path : Option String
  notes : String
deriving DecidableEq, Repr

def readKind : Option String → Except Failure Kind
  | none => .error .noKind
  | some word =>
    match Kind.ofWord? word with
    | some kind => .ok kind
    | none => .error (.unknownKind word)

/-- The finer filter of an environment, which takes the place of the log level. It has to be a text. -/
def finerFilter? (environment : String → Option Bytes) : Option String :=
  match (environment "RUST_LOG").map Text.decode with
  | some (.ok filter) => some filter
  | _ => none

/-- What is noted of the log filter of an environment. The log level has to be a filter that can be
followed; the finer filter is followed leniently. -/
def readFilter (environment : String → Option Bytes) : Except Exit String :=
  match finerFilter? environment with
  | some filter =>
    match noteFilter filter with
    | .ok notes => .ok notes
    | .error notes => .error ⟨notes, .crashed⟩
  | none =>
    let filter := (Config.ofEnvironment environment).logLevel
    match checkFilter filter with
    | .ok _ => .ok ""
    | .error (.fault fault) => .error ⟨"", .failed (.badFilter filter fault)⟩
    | .error .cut => .error ⟨"", .crashed⟩

/-- The task of a command line in an environment, unless the run ends before. Arguments behind the path do
not matter. -/
def Task.ofArguments (environment : String → Option Bytes) (arguments : List String) :
    Except Exit Task :=
  match readKind arguments.head? with
  | .error failure => .error ⟨"", .failed failure⟩
  | .ok kind => (readFilter environment).map fun notes => { kind, path := arguments[1]?, notes }

/-- The text that a task puts out, given what reading the body gave. -/
def Task.output (task : Task) (content : Except ReadFault Bytes) (order : WalkOrder := .kept) :
    Except Failure String :=
  match content with
  | .error fault => .error (.unreadable task.path fault)
  | .ok body =>
    match task.kind.readJson body order with
    | .ok value => .ok (value.pretty ++ "\n")
    | .error fault => .error (.badBody task.kind fault)

/-- The end of a run, given its task and what reading the body gave. -/
def Task.exit (task : Task) (content : Except ReadFault Bytes) (order : WalkOrder) : Exit where
  notes := task.notes
  ending :=
    match task.output content order with
    | .ok text => .shown text
    | .error failure => .failed failure

/-- A run in an environment, where `read` gives the bytes of the file at a path, or those of the
standard input, and metadata are walked in some order. -/
def run (environment : String → Option Bytes) (read : Option String → Except ReadFault Bytes)
    (arguments : List String) (order : WalkOrder := .kept) : Exit :=
  match Task.ofArguments environment arguments with
  | .ok task => task.exit (read task.path) order
  | .error exit => exit

end ShareWire.Inspect
