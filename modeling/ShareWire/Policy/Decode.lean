import ShareWire.Document.Decode
import ShareWire.Policy.Basic

/-!
# Reading stored access policies
-/

namespace ShareWire

instance : FromElement AccessPolicy where
  ofElement e := do
    let start ← e.optionalText "Start" readTimestamp
    let expiry ← e.optionalText "Expiry" readTimestamp
    return { start, expiry, permission := e.childText? "Permission" }

def SignedIdentifiers.readEntry (e : Element) : Except DocumentError (String × AccessPolicy) := do
  let id ← e.requiredText "Id"
  let policy ← ofElement (← e.require "AccessPolicy")
  return (id, policy)

instance : FromElement SignedIdentifiers where
  ofElement e := do
    let entries ← (e.childrenNamed "SignedIdentifier").mapM SignedIdentifiers.readEntry
    return SignedIdentifiers.ofList entries

end ShareWire
