import ShareWire.Http.Extract
import ShareWire.Listing.Decode

/-!
# Responses

A listing comes as the body of a response, and a response without a body is handed back as it is. A
file comes as the body with its properties in the headers.
-/

namespace ShareWire.Http

structure Response where
  status : Nat
  headers : Headers := ∅
  /-- The body, if there is one; it may be empty. -/
  body : Option Bytes := none
deriving DecidableEq, Repr

/-- What becomes of a response that should have a listing as its body. -/
inductive Outcome (α : Type) where
  /-- There is no body; the response is as it was. -/
  | unparsed (response : Response)
  | parsed (record : α)
deriving DecidableEq, Repr

/-- Reads the body of a response, if it has one. -/
def Response.read (α : Type) [FromElement α] (response : Response) :
    Except ExchangeError (Outcome α) :=
  match response.body with
  | none => .ok (.unparsed response)
  | some body =>
    match fromXml α body with
    | .ok record => .ok (.parsed record)
    | .error fault => .error (.document fault)

def Response.readShares : Response → Except ExchangeError (Outcome ShareList) :=
  Response.read ShareList

def Response.readEntries : Response → Except ExchangeError (Outcome Entries) :=
  Response.read Entries

def Response.readRanges : Response → Except ExchangeError (Outcome Ranges) :=
  Response.read Ranges

def Response.readShareStats : Response → Except ExchangeError (Outcome ShareStats) :=
  Response.read ShareStats

/-- The file that a response carries, under a name that the caller knows. -/
def Response.file (response : Response) (name : String) : Except ExchangeError File := do
  let (properties, metadata) ← extractProperties FileProperties response.headers
  return { name, content := response.body, properties, metadata }

end ShareWire.Http
