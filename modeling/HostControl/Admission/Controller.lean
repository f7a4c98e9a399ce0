/-
Module: HostControl.Admission.Controller
Purpose: Admission ahead of every guarded operation. Each tier has a token bucket of its own; with a
  shared cache, instances count the requests of every minute together instead, and an error of the
  cache leaves that one request to the bucket.
Main exports: Tier, Decision, Admission.Controller, Controller.check, Controller.checkClient
-/
import HostControl.Admission.Clients
import HostControl.Audit.Event
import HostControl.Cache.Service
import HostControl.Config.Settings
import HostControl.Time.Clock

namespace HostControl.Admission

open Text

/-- The tiers of requests: ordinary ones, and those that change something or read more. -/
inductive Tier where
  | global
  | admin
deriving DecidableEq, Repr

def Tier.label : Tier → String
  | .global => "global"
  | .admin => "admin"

/-- Whether a request may pass, and what its caller is told. -/
structure Decision where
  allowed : Bool
  scope : String
  limit : Nat
  remaining : Nat
  retryAfterSeconds : Nat
deriving DecidableEq, Repr

/-- The limiters of all tiers and callers. -/
structure Controller where
  global : Bucket
  admin : Bucket
  clients : Clients
  distributed : Bool
deriving Repr

/-- What a report tells of the limiters. -/
structure LimiterReport where
  globalLimit : Nat
  adminLimit : Nat
  burst : Nat
  adminBurst : Nat
  distributed : Bool
  backend : String
  trackedClients : Nat
deriving DecidableEq, Repr

/-! ### As JSON -/

def Decision.toJson (d : Decision) : Json :=
  .obj [("allowed", .bool d.allowed), ("scope", .str d.scope), ("limit", .nat d.limit),
    ("remaining", .nat d.remaining), ("retry_after_secs", .nat d.retryAfterSeconds)]

def LimiterReport.toJson (r : LimiterReport) : Json :=
  .obj [("global_limit", .nat r.globalLimit), ("admin_limit", .nat r.adminLimit),
    ("burst", .nat r.burst), ("admin_burst", .nat r.adminBurst), ("distributed", .bool r.distributed),
    ("backend", .str r.backend), ("tracked_clients", .nat r.trackedClients)]

/-! ### Decisions -/

/-- Whole seconds, a started one included, and at least one. -/
def secondsToWait (wait : Span) : Nat := max ((wait + (Span.second - 1)) / Span.second) 1

/-- The decision of a bucket. -/
def Decision.ofTaking (scope : String) (limit : Nat) : Taking → Decision
  | .admitted remaining => ⟨true, scope, limit, remaining, 0⟩
  | .throttled wait => ⟨false, scope, limit, 0, secondsToWait wait⟩

/-- The minute of a time of day, counted from 1970. -/
def minuteOf (now : Instant) : Int := now.seconds / 60

/-- The key under which the requests of a tier are counted in the minute of a time of day. -/
def windowKey (tier : Tier) (now : Instant) : String :=
  "ratelimit:" ++ tier.label ++ ":" ++ String.ofList (signed (minuteOf now))

/-- The seconds after which a counter is dropped: two minutes, for clocks that disagree. -/
def windowExpiry : Nat := 120

/-- The decision of a shared counter that stands at `count`. A counter below zero counts as none. -/
def Decision.ofCount (scope : String) (rate : Nat) (now : Instant) (count : Int) : Decision :=
  let limit := rate * 60
  let allowed : Bool := count.toNat ≤ limit
  { allowed, scope, limit
    remaining := limit - count.toNat
    retryAfterSeconds := if allowed then 0 else (60 - now.seconds % 60).toNat }

namespace Controller

/-- The limiters of a configuration. They count in the cache if there is one and it is to be used. -/
def of (config : Config.RateLimit) (cached : Bool) (now : Span) : Controller where
  global := { quota := Quota.of config.globalRate config.burst, made := now }
  admin := { quota := Quota.of config.adminRate (max (config.burst / 2) 1), made := now }
  clients := Clients.of config.clientRate config.clientBurst config.trackedClients
    config.clientIdleSeconds
  distributed := cached && config.distributed

def bucket (tier : Tier) (c : Controller) : Bucket :=
  match tier with
  | .global => c.global
  | .admin => c.admin

def setBucket (tier : Tier) (b : Bucket) (c : Controller) : Controller :=
  match tier with
  | .global => { c with global := b }
  | .admin => { c with admin := b }

/-- What one check came to: the decision, the time it took, the commands to the cache, and the events
for the audit trail. -/
structure Ruling where
  decision : Decision
  took : Span := 0
  commands : List Cache.Command := []
  events : List Audit.Event := []

/-- The event for a decision against a request. -/
def denialEvents (ctx : Context) (d : Decision) : List Audit.Event :=
  if d.allowed then [] else [.rateLimit ctx d.scope d.limit]

/-- The decision of the tier's own bucket. -/
def checkLocal (tier : Tier) (now : Span) (c : Controller) :
    Except ArithmeticFault (Decision × Controller) := do
  let b := c.bucket tier
  let (taking, b') ← b.take now
  return (.ofTaking tier.label b.quota.burst taking, c.setBucket tier b')

/-- A count in the shared cache: what it came to, the time it took and the commands sent. The first
count of a minute also sets the end of its counter. -/
def countShared (tier : Tier) (clock : Clock) (answers : Cache.Answers) (c : Controller) :
    Except Cache.Error Decision × Span × List Cache.Command :=
  let key := windowKey tier clock.now
  let (delay, answer) := answers.increment key
  let took := delay.wait clock.elapsed
  match answer with
  | .error e => (.error e, took, [.increment key])
  | .ok count =>
    let decision := Decision.ofCount tier.label (c.bucket tier).quota.rate clock.now count
    if count = 1 then
      (.ok decision, took + answers.expire.1.wait (clock.elapsed + took),
        [.increment key, .expire key windowExpiry])
    else (.ok decision, took, [.increment key])

/-- Checks a request of a tier. -/
def check (ctx : Context) (tier : Tier) (clock : Clock) (answers : Cache.Answers) (c : Controller) :
    Except ArithmeticFault (Ruling × Controller) := do
  if c.distributed then
    match c.countShared tier clock answers with
    | (.ok decision, took, commands) =>
      return ({ decision, took, commands, events := denialEvents ctx decision }, c)
    | (.error _, took, commands) =>
      let (decision, c) ← c.checkLocal tier (clock.elapsed + took)
      return ({ decision, took, commands, events := denialEvents ctx decision }, c)
  else
    let (decision, c) ← c.checkLocal tier clock.elapsed
    return ({ decision, events := denialEvents ctx decision }, c)

/-- The caller of a request that nobody put a name to. -/
def anonymous (correlationId : String) : Context := { actor := "anonymous", correlationId }

/-- Checks a request of a caller's address. -/
def checkClient (ctx : Context) (address : Address) (now : Span) (c : Controller) :
    Except ArithmeticFault (Ruling × Controller) := do
  let (taking, clients) ← c.clients.take address now
  let decision := Decision.ofTaking "client" clients.quota.burst taking
  return ({ decision, events := denialEvents ctx decision }, { c with clients })

/-- Drops the buckets of callers that were idle, and gives their number. -/
def prune (now : Span) (c : Controller) : Nat × Controller :=
  let (count, clients) := c.clients.prune now
  (count, { c with clients })

/-- The present state of the limiters. -/
def report (c : Controller) : LimiterReport where
  globalLimit := c.global.quota.rate
  adminLimit := c.admin.quota.rate
  burst := c.global.quota.burst
  adminBurst := c.admin.quota.burst
  distributed := c.distributed
  backend := if c.distributed then "redis" else "local"
  trackedClients := c.clients.size

end Controller

end HostControl.Admission
