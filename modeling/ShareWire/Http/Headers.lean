import ShareWire.Http.Header

/-!
# Header maps

The header fields of a message. A name may have several values, which keep their order; the map is
walked name by name, in the order in which the names first came.
-/

namespace ShareWire.Http

/-- Header fields in the order in which they were added. -/
structure Headers where
  fields : List (HeaderName × HeaderValue)
deriving DecidableEq, Repr

namespace Headers

instance : EmptyCollection Headers := ⟨⟨[]⟩⟩

instance : Inhabited Headers := ⟨⟨[]⟩⟩

def append (h : Headers) (name : HeaderName) (value : HeaderValue) : Headers :=
  ⟨h.fields ++ [(name, value)]⟩

def values (h : Headers) (name : HeaderName) : List HeaderValue :=
  (h.fields.filter fun field => field.1 = name).map Prod.snd

/-- The names in a list of fields other than those in `seen`, each where it first comes. -/
def firstOfEach (seen : List HeaderName) :
    List (HeaderName × HeaderValue) → List HeaderName
  | [] => []
  | (name, _) :: rest =>
    if name ∈ seen then firstOfEach seen rest else name :: firstOfEach (name :: seen) rest

/-- The distinct names, in the order in which they first came. -/
def names (h : Headers) : List HeaderName :=
  firstOfEach [] h.fields

/-- All fields, the values of a name together. -/
def walk (h : Headers) : List (HeaderName × HeaderValue) :=
  h.names.flatMap fun name => (h.values name).map fun value => (name, value)

/-- Fields in which the first value of a name is replaced and its other values are removed. -/
def replaceFirst (name : HeaderName) (value : HeaderValue) :
    List (HeaderName × HeaderValue) → List (HeaderName × HeaderValue)
  | [] => [(name, value)]
  | field :: rest =>
    if field.1 = name then (name, value) :: rest.filter fun other => other.1 ≠ name
    else field :: replaceFirst name value rest

/-- Gives a name one value in place of all those that it has. -/
def insert (h : Headers) (name : HeaderName) (value : HeaderValue) : Headers :=
  ⟨replaceFirst name value h.fields⟩

end Headers

end ShareWire.Http
