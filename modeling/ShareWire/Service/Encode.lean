import ShareWire.Document.Encode
import ShareWire.Service.Basic

/-!
# Writing service properties
-/

namespace ShareWire

instance : ToElements RetentionPolicy where
  toElements p :=
    [Element.ofBool "Enabled" p.enabled] ++ (p.days.map (Element.ofInteger "Days")).toList

instance : ToElements Logging where
  toElements l :=
    [Element.leaf "Version" l.version, Element.ofBool "Delete" l.delete,
      Element.ofBool "Read" l.read, Element.ofBool "Write" l.write,
      Element.record "RetentionPolicy" l.retentionPolicy]

instance : ToElements Metrics where
  toElements m :=
    [Element.leaf "Version" m.version, Element.ofBool "Enabled" m.enabled] ++
      (m.includeApis.map (Element.ofBool "IncludeAPIs")).toList ++
      [Element.record "RetentionPolicy" m.retentionPolicy]

/-- Both header lists are always written: the service asks for them even when they are empty. -/
instance : ToElements CorsRule where
  toElements r :=
    [Element.ofEntries "AllowedOrigins" (some r.allowedOrigins),
      Element.ofEntries "AllowedMethods" (some r.allowedMethods),
      Element.ofInteger "MaxAgeInSeconds" r.maxAgeInSeconds,
      Element.ofEntries "ExposedHeaders" r.exposedHeaders,
      Element.ofEntries "AllowedHeaders" r.allowedHeaders]

instance : ToElements (List CorsRule) where
  toElements rules := rules.map (Element.record "CorsRule")

instance : ToElements ServiceProperties where
  toElements p :=
    (p.logging.map (Element.record "Logging")).toList ++
      (p.hourMetrics.map (Element.record "HourMetrics")).toList ++
      (p.minuteMetrics.map (Element.record "MinuteMetrics")).toList ++
      (p.cors.map (Element.record "Cors")).toList ++
      (p.targetVersion.map (Element.leaf "DefaultServiceVersion")).toList

def ServiceProperties.toDocument (p : ServiceProperties) : String :=
  toXml "StorageServiceProperties" p

end ShareWire
