import ShareWire.Document.Decode
import ShareWire.Service.Basic

/-!
# Reading service properties
-/

namespace ShareWire

instance : FromElement RetentionPolicy where
  ofElement e := do
    let enabled := readBool (← e.requiredText "Enabled")
    let days ← e.optionalText "Days" (readInteger Int32)
    return { enabled, days }

instance : FromElement Logging where
  ofElement e := do
    let version ← e.requiredText "Version"
    let delete := readBool (← e.requiredText "Delete")
    let read := readBool (← e.requiredText "Read")
    let write := readBool (← e.requiredText "Write")
    let retentionPolicy ← ofElement (← e.require "RetentionPolicy")
    return { version, delete, read, write, retentionPolicy }

instance : FromElement Metrics where
  ofElement e := do
    let version ← e.requiredText "Version"
    let enabled := readBool (← e.requiredText "Enabled")
    let includeApis := (e.childText? "IncludeAPIs").map readBool
    let retentionPolicy ← ofElement (← e.require "RetentionPolicy")
    return { version, enabled, includeApis, retentionPolicy }

instance : FromElement CorsRule where
  ofElement e := do
    let allowedOrigins := Text.splitCommas (← e.requiredText "AllowedOrigins")
    let allowedMethods := Text.splitCommas (← e.requiredText "AllowedMethods")
    let maxAgeInSeconds ← readInteger Int32 (← e.requiredText "MaxAgeInSeconds")
    let exposedHeaders := (e.filledText? "ExposedHeaders").map Text.splitCommas
    let allowedHeaders := (e.filledText? "AllowedHeaders").map Text.splitCommas
    return { allowedOrigins, allowedMethods, maxAgeInSeconds, exposedHeaders, allowedHeaders }

instance : FromElement (List CorsRule) where
  ofElement e := e.all CorsRule "CorsRule"

instance : FromElement ServiceProperties where
  ofElement e := do
    let logging ← e.optional Logging "Logging"
    let hourMetrics ← e.optional Metrics "HourMetrics"
    let minuteMetrics ← e.optional Metrics "MinuteMetrics"
    let cors ← e.optional (List CorsRule) "Cors"
    let targetVersion := e.filledText? "DefaultServiceVersion"
    return { logging, hourMetrics, minuteMetrics, cors, targetVersion }

end ShareWire
