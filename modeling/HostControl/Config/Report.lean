/-
Module: HostControl.Config.Report
Purpose: All settings as JSON, under the names that they have in a document.
Main exports: Settings.toJson
-/
import HostControl.Config.Settings
import HostControl.Json.Basic

namespace HostControl.Config

def word32Json (n : UInt32) : Json := .nat n.toNat
def word64Json (n : UInt64) : Json := .nat n.toNat

def Server.toJson (s : Server) : Json := .obj [("api_key", .str s.apiKey), ("version", .str s.version)]

def Logging.toJson (s : Logging) : Json :=
  .obj [("level", .str s.level), ("dir", .str s.dir), ("audit_dir", .str s.auditDir)]

def Cache.toJson (s : Cache) : Json :=
  .obj [("url", Json.orNull .str s.url), ("timeout_ms", word64Json s.timeoutMillis)]

def Database.toJson (s : Database) : Json :=
  .obj [("url", .str s.url), ("check_timeout_secs", word64Json s.checkTimeoutSeconds),
    ("max_connections", word32Json s.maxConnections),
    ("idle_lifetime_secs", word64Json s.idleLifetimeSeconds)]

def RateLimit.toJson (s : RateLimit) : Json :=
  .obj [("global_rps", word32Json s.globalRate), ("admin_rps", word32Json s.adminRate),
    ("burst", word32Json s.burst), ("distributed", .bool s.distributed),
    ("per_client_rps", word32Json s.clientRate), ("per_client_burst", word32Json s.clientBurst),
    ("max_tracked_clients", word64Json s.trackedClients),
    ("client_idle_secs", word64Json s.clientIdleSeconds)]

def Breaker.toJson (s : Breaker) : Json :=
  .obj [("max_requests", word32Json s.maxRequests), ("interval_secs", word64Json s.intervalSeconds),
    ("cooldown_secs", word64Json s.cooldownSeconds), ("failure_threshold", word32Json s.failureThreshold)]

def Retry.toJson (s : Retry) : Json :=
  .obj [("max_attempts", word32Json s.maxAttempts), ("wait_min_ms", word64Json s.waitMinMillis),
    ("wait_max_ms", word64Json s.waitMaxMillis),
    ("request_timeout_secs", word64Json s.requestTimeoutSeconds)]

def Docker.toJson (s : Docker) : Json :=
  .obj [("host", .str s.host), ("timeout_secs", word64Json s.timeoutSeconds),
    ("stop_grace_secs", word64Json s.stopGraceSeconds), ("name_prefix", .str s.namePrefix)]

def Access.toJson (s : Access) : Json :=
  .obj [("proxy_config_path", .str s.proxyConfigPath), ("middleware", .str s.middleware)]

def Settings.toJson (s : Settings) : Json :=
  .obj [("server", s.server.toJson), ("logging", s.logging.toJson), ("cache", s.cache.toJson),
    ("database", s.database.toJson), ("rate_limit", s.rateLimit.toJson), ("breaker", s.breaker.toJson),
    ("retry", s.retry.toJson), ("docker", s.docker.toJson), ("access", s.access.toJson)]

end HostControl.Config
