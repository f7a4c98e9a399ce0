/-
Module: HostControl.Control.Operation
Purpose: The operations of the control surface, what each of them needs, and how they are named.
Main exports: Operation, OperationClass, Operation.name, Operation.resource, Operation.opClass
-/
import HostControl.Access.Entry
import HostControl.Admission.Controller
import HostControl.Workload.Controller

namespace HostControl.Control

open Access (ListKind)

/-- What an operation needs: nothing but admission, admission as a privileged one, or the credential as
well. -/
inductive OperationClass where
  | read
  | privilegedRead
  | mutation
deriving DecidableEq, Repr

/-- The tiers that an operation is charged to, in order. -/
def OperationClass.tiers : OperationClass → List Admission.Tier
  | .read => [.global]
  | .privilegedRead | .mutation => [.global, .admin]

/-- A new entry, as a caller gives it. -/
structure NewEntry where
  pattern : String
  description : String := ""
  expiresAt : Option Instant := none
deriving DecidableEq, Repr

/-- An operation of the control surface. -/
inductive Operation where
  | health
  | primaryHealth
  | cacheHealth
  | limiterStats
  | cacheStats
  | circuitStats
  | listContainers
  | platformServices
  | describeContainer (id : String)
  | startContainer (id : String)
  | stopContainer (id : String) (grace : Option Span)
  | restartContainer (id : String) (grace : Option Span)
  | containerLogs (id : String) (query : Workload.LogQuery)
  | containerStats (id : String)
  | images
  | networks
  | volumes
  | systemInfo
  | addEntry (list : ListKind) (entry : NewEntry)
  | removeEntry (list : ListKind) (pattern : String)
  | listEntries (list : ListKind)
  | isAllowed (address : String)
  | cleanupExpired
deriving Repr

namespace Operation

/-- The name of an operation in records. -/
def name : Operation → String
  | .health => "health"
  | .primaryHealth => "primary_health"
  | .cacheHealth => "cache_health"
  | .limiterStats => "rate_limiter_stats"
  | .cacheStats => "cache_stats"
  | .circuitStats => "breaker_stats"
  | .listContainers => "list_containers"
  | .platformServices => "platform_services"
  | .describeContainer _ => "describe_container"
  | .startContainer _ => "start_container"
  | .stopContainer .. => "stop_container"
  | .restartContainer .. => "restart_container"
  | .containerLogs .. => "container_logs"
  | .containerStats _ => "container_stats"
  | .images => "list_images"
  | .networks => "list_networks"
  | .volumes => "list_volumes"
  | .systemInfo => "system_info"
  | .addEntry list _ => list.label ++ "_add"
  | .removeEntry list _ => list.label ++ "_remove"
  | .listEntries list => list.label ++ "_list"
  | .isAllowed _ => "is_allowed"
  | .cleanupExpired => "cleanup_expired"

/-- What an operation is done to, as it stands in records. -/
def resource : Operation → String
  | .health => "service"
  | .primaryHealth => "primary"
  | .cacheHealth | .cacheStats => "cache"
  | .limiterStats => "rate_limiter"
  | .circuitStats => "invoker"
  | .listContainers | .platformServices => "containers"
  | .describeContainer id | .startContainer id | .stopContainer id _ | .restartContainer id _
  | .containerLogs id _ | .containerStats id => id
  | .images => "images"
  | .networks => "networks"
  | .volumes => "volumes"
  | .systemInfo => "runtime"
  | .addEntry _ entry => entry.pattern
  | .removeEntry _ pattern => pattern
  | .listEntries list => list.label
  | .isAllowed address => address
  | .cleanupExpired => "access_lists"

def opClass : Operation → OperationClass
  | .startContainer _ | .stopContainer .. | .restartContainer .. | .addEntry .. | .removeEntry ..
  | .cleanupExpired => .mutation
  | .primaryHealth | .cacheHealth | .cacheStats | .containerLogs .. | .systemInfo
  | .listEntries _ => .privilegedRead
  | .health | .limiterStats | .circuitStats | .listContainers | .platformServices
  | .describeContainer _ | .containerStats _ | .images | .networks | .volumes | .isAllowed _ => .read

/-- What the response to a successful operation reads. -/
def successMessage : Operation → String
  | .health => "health report"
  | .primaryHealth => "primary datastore health"
  | .cacheHealth => "cache health"
  | .limiterStats => "rate limiter stats"
  | .cacheStats => "cache stats"
  | .circuitStats => "circuit breakers"
  | .listContainers => "containers"
  | .platformServices => "platform services"
  | .describeContainer _ => "container"
  | .startContainer _ => "container started"
  | .stopContainer .. => "container stopped"
  | .restartContainer .. => "container restarted"
  | .containerLogs .. => "container logs"
  | .containerStats _ => "container stats"
  | .images => "images"
  | .networks => "networks"
  | .volumes => "volumes"
  | .systemInfo => "system info"
  | .addEntry .. => "entry added"
  | .removeEntry .. => "entry removed"
  | .listEntries list => list.label
  | .isAllowed _ => "access decision"
  | .cleanupExpired => "expired entries removed"

end Operation

end HostControl.Control
