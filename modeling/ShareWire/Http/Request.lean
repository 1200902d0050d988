import ShareWire.Http.Error
import ShareWire.Http.Extract
import ShareWire.Time.Layout

/-!
# Requests

A request gets its headers in steps: length, version, agent and metadata first, then date and content
type, then whatever the signer adds. A step that fails leaves behind the fields that were added before
the failure.
-/

namespace ShareWire.Http

open Time (Instant)

structure Request where
  /-- The method, its case being significant. -/
  method : String
  path : String
  headers : Headers := ∅
  metadata : Metadata := ∅
  body : Bytes := []
deriving DecidableEq, Repr

abbrev RequestM := ExceptT ExchangeError (StateM Request)

/-- What adds the common header fields of all requests. -/
inductive Updater where
  | none
  /-- Adds the length of the body, the version of the interface, the agent and the metadata. -/
  | standard (apiVersion userAgent : String)
deriving DecidableEq, Repr

/-- A signer looks at a request and changes it, usually by adding an authorization; or it refuses,
with a reason. -/
abbrev Signer := ExceptT String (StateM Request) Unit

def octetStream : HeaderValue :=
  ⟨Text.encode "application/octet-stream Charset=UTF-8", by decide⟩

def appendField (name : HeaderName) (value : HeaderValue) : RequestM PUnit :=
  modify fun request => { request with headers := request.headers.append name value }

/-- A text as the value of the field that is called `name` in errors. -/
def valueOf (name text : String) : RequestM HeaderValue :=
  match HeaderValue.ofText? text with
  | some value => pure value
  | none => throw (.invalidHeader name .badValue)

/-- Whether requests with a method carry a body. -/
def carriesBody (method : String) : Bool :=
  method = "PUT" || method = "POST" || method = "MERGE" || method = "DELETE"

def appendMetadata (entry : String × String) : RequestM PUnit := do
  let spelled := metadataMark ++ entry.1
  match HeaderName.ofText? spelled with
  | none => throw (.invalidHeader spelled .badName)
  | some name => appendField name (← valueOf spelled entry.2)

def Updater.run : Updater → RequestM PUnit
  | .none => pure ()
  | .standard apiVersion userAgent => do
    let request ← get
    if carriesBody request.method then
      appendField .contentLength (.ofNat request.body.length)
    appendField .version (← valueOf "x-ms-version" apiVersion)
    appendField .userAgent (← valueOf "user-agent" userAgent)
    request.metadata.entries.forM appendMetadata

def runSigner (signer : Signer) : RequestM PUnit := do
  let (outcome, request) := signer.run.run (← get)
  set request
  match outcome with
  | .ok _ => pure ()
  | .error reason => throw (.signing reason)

/-- Adds all header fields of a request that is sent at `now`, and has it signed. -/
def signRequest (updater : Updater) (signer : Signer) (now : Instant) : RequestM PUnit := do
  updater.run
  appendField .date (← valueOf "x-ms-date" now.httpDate)
  appendField .contentType octetStream
  runSigner signer

def Request.apply (request : Request) (change : RequestM PUnit) :
    Except ExchangeError PUnit × Request :=
  change.run.run request

end ShareWire.Http
