/-
Module: HostControl.Config.Load
Purpose: Settings put together from a document and the environment, and checked.
Main exports: Environment, Settings.override, Settings.fault?, Source, LoadError, load
-/
import HostControl.Config.Reader
import HostControl.Text.Blank

namespace HostControl.Config

open Text

/-- The variables of the environment. -/
abbrev Environment := String → Option String

namespace Settings

/-- A word in decimal, as the environment gives it. -/
def envWord32? (value : String) : Option UInt32 :=
  (readBounded? Word.max32 value.toList).map (·.toUInt32)

def envBoolean? : String → Option Bool
  | "true" => some true
  | "false" => some false
  | _ => none

/-- Puts the values of the environment in place of others. A value that cannot be read is ignored, and
a blank address of the cache takes the cache away. -/
def override (env : Environment) (s : Settings) : Settings where
  server := { s.server with apiKey := (env "HARBOR_API_KEY").getD s.server.apiKey }
  logging := { s.logging with level := (env "HARBOR_LOG_LEVEL").getD s.logging.level }
  cache := { s.cache with
    url := match env "HARBOR_CACHE_URL" with
      | none => s.cache.url
      | some url => if (trim url).isEmpty then none else some url }
  database := { s.database with url := (env "HARBOR_DATABASE_URL").getD s.database.url }
  rateLimit := { s.rateLimit with
    globalRate := ((env "HARBOR_GLOBAL_RPS").bind envWord32?).getD s.rateLimit.globalRate
    adminRate := ((env "HARBOR_ADMIN_RPS").bind envWord32?).getD s.rateLimit.adminRate
    distributed :=
      ((env "HARBOR_DISTRIBUTED_RATE_LIMIT").bind envBoolean?).getD s.rateLimit.distributed }
  breaker := s.breaker
  retry := s.retry
  docker := { s.docker with host := (env "HARBOR_DOCKER_HOST").getD s.docker.host }
  access := { s.access with
    proxyConfigPath := (env "HARBOR_PROXY_CONFIG").getD s.access.proxyConfigPath }

end Settings

/-- What makes settings unusable. -/
inductive Fault where
  | noApiKey
  | zeroRate
  | zeroClientRate
  | zeroAttempts
  | zeroRequestTimeout
  | invertedWaits
  | zeroBreaker
  | noDockerHost
  | noMiddleware
deriving DecidableEq, Repr

/-- The text that names the setting at fault. -/
def Fault.message : Fault → String
  | .noApiKey => "server.api_key is required (or set HARBOR_API_KEY)"
  | .zeroRate => "rate_limit.global_rps and rate_limit.admin_rps must be positive"
  | .zeroClientRate => "rate_limit.per_client_rps must be positive"
  | .zeroAttempts => "retry.max_attempts must be at least 1"
  | .zeroRequestTimeout => "retry.request_timeout_secs must be positive"
  | .invertedWaits => "retry.wait_min_ms must not exceed retry.wait_max_ms"
  | .zeroBreaker => "breaker.failure_threshold and breaker.max_requests must be positive"
  | .noDockerHost => "docker.host is required"
  | .noMiddleware => "access.middleware is required"

namespace Settings

/-- The first fault of the settings, if they have one. -/
def fault? (s : Settings) : Option Fault :=
  if (trim s.server.apiKey).isEmpty then some .noApiKey
  else if s.rateLimit.globalRate = 0 ∨ s.rateLimit.adminRate = 0 then some .zeroRate
  else if s.rateLimit.clientRate = 0 then some .zeroClientRate
  else if s.retry.maxAttempts = 0 then some .zeroAttempts
  else if s.retry.requestTimeoutSeconds = 0 then some .zeroRequestTimeout
  else if s.retry.waitMaxMillis < s.retry.waitMinMillis then some .invertedWaits
  else if s.breaker.failureThreshold = 0 ∨ s.breaker.maxRequests = 0 then some .zeroBreaker
  else if (trim s.docker.host).isEmpty then some .noDockerHost
  else if (trim s.access.middleware).isEmpty then some .noMiddleware
  else none

end Settings

/-- What stands at the place of the document. -/
inductive Source where
  | missing
  | text (contents : String)
  | unreadable
deriving DecidableEq, Repr

/-- Why there are no settings. -/
inductive LoadError where
  | unreadable
  | malformed
  | invalid (fault : Fault)
deriving DecidableEq, Repr

/-- The text of a failure, up to where the system's own words begin. -/
def LoadError.message : LoadError → String
  | .unreadable => "failed to read config file"
  | .malformed => "failed to parse config TOML"
  | .invalid fault => fault.message

/-- The settings that a document and the environment give, if they can be used. The environment goes
before the document, and the document before the defaults. -/
def load (source : Source) (env : Environment) : Except LoadError Settings :=
  let settings? : Except LoadError Settings := match source with
    | .missing => .ok {}
    | .unreadable => .error .unreadable
    | .text contents => match Settings.read? contents with
      | some settings => .ok settings
      | none => .error .malformed
  match settings? with
  | .error e => .error e
  | .ok settings =>
    let settings := settings.override env
    match settings.fault? with
    | some fault => .error (.invalid fault)
    | none => .ok settings

end HostControl.Config
