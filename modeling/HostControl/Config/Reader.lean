/-
Module: HostControl.Config.Reader
Purpose: Settings read from a TOML document.
Main exports: Settings.read?
-/
import HostControl.Config.Section
import HostControl.Config.Settings
import HostControl.Toml.Document

namespace HostControl.Config

def serverFields : List (Field Server) :=
  [.of "api_key" string? fun v s => { s with apiKey := v },
    .of "version" string? fun v s => { s with version := v }]

def loggingFields : List (Field Logging) :=
  [.of "level" string? fun v s => { s with level := v },
    .of "dir" string? fun v s => { s with dir := v },
    .of "audit_dir" string? fun v s => { s with auditDir := v }]

def cacheFields : List (Field Cache) :=
  [.of "url" string? fun v s => { s with url := some v },
    .of "timeout_ms" word64? fun v s => { s with timeoutMillis := v }]

def databaseFields : List (Field Database) :=
  [.of "url" string? fun v s => { s with url := v },
    .of "check_timeout_secs" word64? fun v s => { s with checkTimeoutSeconds := v },
    .of "max_connections" word32? fun v s => { s with maxConnections := v },
    .of "idle_lifetime_secs" word64? fun v s => { s with idleLifetimeSeconds := v }]

def rateLimitFields : List (Field RateLimit) :=
  [.of "global_rps" word32? fun v s => { s with globalRate := v },
    .of "admin_rps" word32? fun v s => { s with adminRate := v },
    .of "burst" word32? fun v s => { s with burst := v },
    .of "distributed" boolean? fun v s => { s with distributed := v },
    .of "per_client_rps" word32? fun v s => { s with clientRate := v },
    .of "per_client_burst" word32? fun v s => { s with clientBurst := v },
    .of "max_tracked_clients" word64? fun v s => { s with trackedClients := v },
    .of "client_idle_secs" word64? fun v s => { s with clientIdleSeconds := v }]

def breakerFields : List (Field Breaker) :=
  [.of "max_requests" word32? fun v s => { s with maxRequests := v },
    .of "interval_secs" word64? fun v s => { s with intervalSeconds := v },
    .of "cooldown_secs" word64? fun v s => { s with cooldownSeconds := v },
    .of "failure_threshold" word32? fun v s => { s with failureThreshold := v }]

def retryFields : List (Field Retry) :=
  [.of "max_attempts" word32? fun v s => { s with maxAttempts := v },
    .of "wait_min_ms" word64? fun v s => { s with waitMinMillis := v },
    .of "wait_max_ms" word64? fun v s => { s with waitMaxMillis := v },
    .of "request_timeout_secs" word64? fun v s => { s with requestTimeoutSeconds := v }]

def dockerFields : List (Field Docker) :=
  [.of "host" string? fun v s => { s with host := v },
    .of "timeout_secs" word64? fun v s => { s with timeoutSeconds := v },
    .of "stop_grace_secs" word64? fun v s => { s with stopGraceSeconds := v },
    .of "name_prefix" string? fun v s => { s with namePrefix := v }]

def accessFields : List (Field Access) :=
  [.of "proxy_config_path" string? fun v s => { s with proxyConfigPath := v },
    .of "middleware" string? fun v s => { s with middleware := v }]

/-- The sections of the settings. -/
def sections : List (Field Settings) :=
  [.nested "server" serverFields {} fun v s => { s with server := v },
    .nested "logging" loggingFields {} fun v s => { s with logging := v },
    .nested "cache" cacheFields {} fun v s => { s with cache := v },
    .nested "database" databaseFields {} fun v s => { s with database := v },
    .nested "rate_limit" rateLimitFields {} fun v s => { s with rateLimit := v },
    .nested "breaker" breakerFields {} fun v s => { s with breaker := v },
    .nested "retry" retryFields {} fun v s => { s with retry := v },
    .nested "docker" dockerFields {} fun v s => { s with docker := v },
    .nested "access" accessFields {} fun v s => { s with access := v }]

namespace Settings

/-- The settings that a document gives. -/
def ofTable? (t : Toml.Table) : Option Settings := Section.ofTable sections t {}

/-- The settings that the text of a document gives. -/
def read? (text : String) : Option Settings := (Toml.read? text).bind ofTable?

end Settings

end HostControl.Config
