import ShareWire.Http.Request
import ShareWire.Json.Basic
import ShareWire.Text.Quoted
import ShareWire.Text.Utf8

/-!
# Configuration

What a client puts on every request, and how much it reports. Settings come from defaults, from the
environment, or from JSON.
-/

namespace ShareWire.Http

structure Config where
  apiVersion : String := "2015-04-05"
  userAgent : String := "azfile/0.1.0"
  logLevel : String := "info"
deriving DecidableEq, Repr

def Config.updater (c : Config) : Updater :=
  .standard c.apiVersion c.userAgent

/-- The settings of an environment; a variable that is not UTF-8 counts as unset. -/
def Config.ofEnvironment (environment : String → Option Bytes) : Config :=
  let setting (name default : String) : String :=
    match (environment name).map Text.decode with
    | some (.ok text) => text
    | _ => default
  let initial : Config := {}
  { apiVersion := setting "AZFILE_API_VERSION" initial.apiVersion
    userAgent := setting "AZFILE_USER_AGENT" initial.userAgent
    logLevel := setting "LOG_LEVEL" initial.logLevel }

/-- What a place in the JSON form of settings must hold. -/
inductive Config.Expected where
  | settings
  | text
deriving DecidableEq, Repr

inductive Config.JsonError where
  /-- A value has another type than its place asks for. -/
  | wrongType (found : Json) (expected : Expected)
  | missingField (name : String)
  | tooShort (length : Nat)
  | tooLong (length : Nat)

def Config.Expected.message : Expected → String
  | .settings => "struct FileClientConfig"
  | .text => "a string"

def Config.foundMessage : Json → String
  | .null => "null"
  | .bool b => "boolean `" ++ (if b then "true" else "false") ++ "`"
  | .int n => "integer `" ++ toString n ++ "`"
  | .str s => "string " ++ Text.quoted s
  | .arr _ => "sequence"
  | .obj _ => "map"

def Config.JsonError.message : JsonError → String
  | .wrongType found expected =>
    "invalid type: " ++ foundMessage found ++ ", expected " ++ expected.message
  | .missingField name => "missing field `" ++ name ++ "`"
  | .tooShort length =>
    "invalid length " ++ toString length ++ ", expected " ++ Expected.settings.message ++
      " with 3 elements"
  | .tooLong length =>
    "invalid length " ++ toString length ++ ", expected fewer elements in array"

def Config.settingOfJson : Json → Except JsonError String
  | .str s => .ok s
  | found => .error (.wrongType found .text)

def Config.member? (members : List (String × Json)) (name : String) :
    Except JsonError (Option String) :=
  match members.lookup name with
  | none => .ok none
  | some value => (settingOfJson value).map some

/-- A setting that was looked up, which has to be there. -/
def Config.present (name : String) : Option String → Except JsonError String
  | none => .error (.missingField name)
  | some s => .ok s

/-- The settings in an object. Types are checked in the order of the names, before it is checked
whether all members are there; other members do not matter. -/
def Config.ofMembers (members : List (String × Json)) : Except JsonError Config := do
  let apiVersion ← member? members "apiVersion"
  let logLevel ← member? members "logLevel"
  let userAgent ← member? members "userAgent"
  let apiVersion ← present "apiVersion" apiVersion
  let userAgent ← present "userAgent" userAgent
  let logLevel ← present "logLevel" logLevel
  return { apiVersion, userAgent, logLevel }

/-- The settings in a list: version, agent and log level. -/
def Config.ofItems (items : List Json) : Except JsonError Config :=
  match items with
  | version :: agent :: level :: rest => do
    let apiVersion ← settingOfJson version
    let userAgent ← settingOfJson agent
    let logLevel ← settingOfJson level
    if rest.isEmpty then return { apiVersion, userAgent, logLevel }
    else throw (.tooLong items.length)
  | items => do
    let _ ← items.mapM settingOfJson
    throw (.tooShort items.length)

def Config.ofJson : Json → Except JsonError Config
  | .obj members => ofMembers members
  | .arr items => ofItems items
  | found => .error (.wrongType found .settings)

end ShareWire.Http
