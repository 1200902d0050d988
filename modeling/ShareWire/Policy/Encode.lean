import ShareWire.Document.Encode
import ShareWire.Policy.Basic

/-!
# Writing stored access policies
-/

namespace ShareWire

instance : ToElements AccessPolicy where
  toElements p :=
    (p.start.map (Element.ofInstant "Start")).toList ++
      (p.expiry.map (Element.ofInstant "Expiry")).toList ++
      (p.permission.map (Element.leaf "Permission")).toList

def SignedIdentifiers.entryElement (entry : String × AccessPolicy) : Element where
  name := "SignedIdentifier"
  children := [Element.leaf "Id" entry.1, Element.record "AccessPolicy" entry.2]

instance : ToElements SignedIdentifiers where
  toElements s := s.entries.map SignedIdentifiers.entryElement

def SignedIdentifiers.toDocument (s : SignedIdentifiers) : String :=
  toXml "SignedIdentifiers" s

end ShareWire
