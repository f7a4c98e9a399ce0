/-
Module: HostControl.Config.Settings
Purpose: All settings of the program, in sections, with the values they have when nothing is said.
Main exports: Settings
-/

namespace HostControl.Config

/-- The control surface. -/
structure Server where
  /-- The credential that operations which change something must present. -/
  apiKey : String := ""
  /-- The version that health reports name. -/
  version : String := "0.1.0"
deriving DecidableEq, Repr

/-- Logs. -/
structure Logging where
  level : String := "info"
  dir : String := "logs"
  auditDir : String := "logs/audit"
deriving DecidableEq, Repr

/-- The cache that instances share; without a URL there is none. -/
structure Cache where
  url : Option String := none
  timeoutMillis : UInt64 := 2000
deriving DecidableEq, Repr

/-- The primary datastore. -/
structure Database where
  url : String := "postgres://harbormaster@localhost:5432/harbormaster"
  checkTimeoutSeconds : UInt64 := 5
  maxConnections : UInt32 := 2
  idleLifetimeSeconds : UInt64 := 10
deriving DecidableEq, Repr

/-- The limits on requests. Rates are in requests per second. -/
structure RateLimit where
  globalRate : UInt32 := 100
  adminRate : UInt32 := 20
  /-- The burst of the global tier; the admin tier gets half of it. -/
  burst : UInt32 := 50
  /-- Whether instances count together in the shared cache. -/
  distributed : Bool := true
  clientRate : UInt32 := 10
  clientBurst : UInt32 := 20
  trackedClients : UInt64 := 10000
  clientIdleSeconds : UInt64 := 600
deriving DecidableEq, Repr

/-- The circuit breakers. -/
structure Breaker where
  maxRequests : UInt32 := 3
  /-- The length of the window in which failures count; zero for no end. -/
  intervalSeconds : UInt64 := 10
  cooldownSeconds : UInt64 := 30
  failureThreshold : UInt32 := 5
deriving DecidableEq, Repr

/-- The retries of outbound calls. -/
structure Retry where
  maxAttempts : UInt32 := 4
  waitMinMillis : UInt64 := 500
  waitMaxMillis : UInt64 := 30000
  requestTimeoutSeconds : UInt64 := 30
deriving DecidableEq, Repr

/-- The container runtime. -/
structure Docker where
  host : String := "tcp://docker-socket-proxy:2375"
  timeoutSeconds : UInt64 := 30
  stopGraceSeconds : UInt64 := 10
  /-- What the names of the platform's own containers begin with. -/
  namePrefix : String := "harbor-"
deriving DecidableEq, Repr

/-- The reverse proxy that enforces the access lists. -/
structure Access where
  proxyConfigPath : String := "configs/proxy-dynamic.toml"
  middleware : String := "dynamic-ipallowlist"
deriving DecidableEq, Repr

/-- All settings. -/
structure Settings where
  server : Server := {}
  logging : Logging := {}
  cache : Cache := {}
  database : Database := {}
  rateLimit : RateLimit := {}
  breaker : Breaker := {}
  retry : Retry := {}
  docker : Docker := {}
  access : Access := {}
deriving DecidableEq, Repr

end HostControl.Config
