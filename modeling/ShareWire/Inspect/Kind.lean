import ShareWire.Http.Response
import ShareWire.Json.Record
import ShareWire.Listing.Walk
import ShareWire.Policy.Decode
import ShareWire.Service.Decode

/-!
# Kinds of documents

The documents that can be inspected: each has a word on the command line, a title in messages, and a
record type that it is read as.
-/

namespace ShareWire.Inspect

open Http (ExchangeError Outcome Response)

inductive Kind where
  | serviceProperties
  | signedIdentifiers
  | shares
  | entries
  | ranges
  | shareStats
deriving DecidableEq, Repr

namespace Kind

/-- All kinds, in the order in which the usage line names them. -/
def all : List Kind :=
  [.serviceProperties, .signedIdentifiers, .shares, .entries, .ranges, .shareStats]

def word : Kind → String
  | .serviceProperties => "service-properties"
  | .signedIdentifiers => "signed-identifiers"
  | .shares => "shares"
  | .entries => "entries"
  | .ranges => "ranges"
  | .shareStats => "share-stats"

def title : Kind → String
  | .serviceProperties => "ServiceProperties"
  | .signedIdentifiers => "SignedIdentifiers"
  | .shares => "Shares"
  | .entries => "Entries"
  | .ranges => "Ranges"
  | .shareStats => "ShareStats"

def ofWord? (s : String) : Option Kind :=
  all.find? fun k => k.word = s

theorem ofWord?_word (k : Kind) : ofWord? k.word = some k := by
  cases k <;> decide

theorem word_of_ofWord? {s : String} {k : Kind} (h : ofWord? s = some k) : k.word = s := by
  simpa using List.find?_some h

end Kind

inductive BodyFault where
  /-- The body cannot be read as a document of its kind. -/
  | exchange (error : ExchangeError)
  | noBody
deriving DecidableEq, Repr

def documentJson (α : Type) [FromElement α] [HasJson α] (body : Bytes) : Except BodyFault Json :=
  match fromXml α body with
  | .ok record => .ok (json record)
  | .error fault => .error (.exchange (.document fault))

/-- The JSON form of a listing that was read from a response, whose metadata are walked first. -/
def outcomeJson {α : Type} [HasJson α] (walk : α → α) :
    Except ExchangeError (Outcome α) → Except BodyFault Json
  | .ok (.parsed record) => .ok (json (walk record))
  | .ok (.unparsed _) => .error .noBody
  | .error fault => .error (.exchange fault)

def Kind.readJson (kind : Kind) (body : Bytes) (order : WalkOrder := .kept) : Except BodyFault Json :=
  let response : Response := { status := 200, body := some body }
  match kind with
  | .serviceProperties => documentJson ServiceProperties body
  | .signedIdentifiers => documentJson SignedIdentifiers body
  | .shares => outcomeJson (ShareList.walked order) response.readShares
  | .entries => outcomeJson (Entries.walked order) response.readEntries
  | .ranges => outcomeJson id response.readRanges
  | .shareStats => outcomeJson id response.readShareStats

end ShareWire.Inspect
