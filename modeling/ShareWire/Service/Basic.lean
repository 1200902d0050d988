/-!
# Service properties

The settings of a storage service as a whole: analytics logging, hourly and minute metrics, rules for
cross-origin requests, and the version that requests without one get.
-/

namespace ShareWire

/-- Whether, and for how long, logs or metrics are kept. -/
structure RetentionPolicy where
  enabled : Bool
  /-- The number of days; absent if data is kept without limit. -/
  days : Option Int32
deriving DecidableEq, Repr

structure Logging where
  version : String
  delete : Bool
  read : Bool
  write : Bool
  retentionPolicy : RetentionPolicy
deriving DecidableEq, Repr

structure Metrics where
  version : String
  enabled : Bool
  /-- Whether summaries for each operation are collected; absent if not reported. -/
  includeApis : Option Bool
  retentionPolicy : RetentionPolicy
deriving DecidableEq, Repr

structure CorsRule where
  allowedOrigins : List String
  allowedMethods : List String
  /-- The seconds for which a browser may keep the answer to its preflight request. -/
  maxAgeInSeconds : Int32
  /-- The response headers that are shown to the origin. -/
  exposedHeaders : Option (List String)
  /-- The request headers that the origin may send. -/
  allowedHeaders : Option (List String)
deriving DecidableEq, Repr

/-- The settings of a service. A section that is absent was not reported, which differs from one
whose switches are all off. -/
structure ServiceProperties where
  logging : Option Logging
  hourMetrics : Option Metrics
  minuteMetrics : Option Metrics
  cors : Option (List CorsRule)
  targetVersion : Option String
deriving DecidableEq, Repr

end ShareWire
