/-
Module: HostControl.Workload.Engine
Purpose: The engine that runs the containers: where it is reached, what its replies mean for a
  container and its counters, and what calls give while it cannot be reached.
Main exports: Endpoint, Endpoint.ofHost, Summary.container, StatsReply.sample, Engine.unreachable
-/
import HostControl.Text.Blank
import HostControl.Word
import HostControl.Workload.Controller

namespace HostControl.Workload

open Text

/-! ### Where it is reached -/

/-- Where an engine is reached: at an address of the network, or at a socket of the host. -/
inductive Endpoint where
  | address (url : String)
  | socket (path : String)
deriving DecidableEq, Repr

namespace Endpoint

/-- The socket that is used when a host is named in no known way. -/
def defaultSocket : String := "/var/run/docker.sock"

/-- What stands in front of the path of a socket. -/
def socketMark : List Char := "unix://".toList

/-- A text without the first mark in it. -/
def unmarked : List Char → List Char
  | [] => []
  | c :: rest =>
    if socketMark.isPrefixOf (c :: rest) then (c :: rest).drop socketMark.length
    else c :: unmarked rest

/-- The endpoint that a configured host names. A host without a known beginning stands for the one that
the environment names, if that is a socket, and else for the default. A mark in a socket's path does not
count. -/
def ofHost (environment : Option String) (host : String) : Endpoint :=
  let host := trimChars host.toList
  if "tcp://".toList.isPrefixOf host || "http://".toList.isPrefixOf host then
    .address (String.ofList host)
  else if socketMark.isPrefixOf host then
    .socket (String.ofList (unmarked (host.drop socketMark.length)))
  else
    match environment.filter fun e => socketMark.isPrefixOf e.toList with
    | some e => .socket (String.ofList (unmarked e.toList))
    | none => .socket defaultSocket

/-- The failure to set up a connection to a host at its endpoint, if there is one: a socket must be
there, while an address is not tried before the first call. -/
def fault? (socketThere : String → Bool) (host : String) (endpoint : Endpoint) : Option RuntimeError :=
  match endpoint with
  | .address _ => none
  | .socket path =>
    if socketThere path then none else some (.api ("failed to connect to " ++ trim host))

end Endpoint

/-! ### What replies mean -/

/-- Processor time in a reply. -/
structure CpuReply where
  total : UInt64 := 0
  system : Option UInt64 := none
  online : Option UInt64 := none
  /-- The number of processors with counters of their own. -/
  counted : Option Nat := none
deriving Repr

/-- The cores that a container sees: the number reported, else the number counted, else one. -/
def CpuReply.sample (r : CpuReply) : CpuSample where
  total := r.total
  system := r.system.getD 0
  cpus :=
    match r.online.map (·.toNat) <|> r.counted with
    | some n => if n ≤ Word.max32 then n.toUInt32 else 1
    | none => 1

/-- The bytes that went through one network interface. -/
structure Traffic where
  received : UInt64
  sent : UInt64
deriving DecidableEq, Repr

/-- The bytes of one kind of operation on a block device. -/
structure BlockEntry where
  operation : String
  bytes : UInt64
deriving DecidableEq, Repr

/-- A reply with the counters of a container. -/
structure StatsReply where
  name : String
  previous : CpuReply := {}
  current : CpuReply := {}
  memoryUsage : Option UInt64 := none
  memoryLimit : Option UInt64 := none
  networks : Option (List (String × Traffic)) := none
  blocks : Option (List BlockEntry) := none
deriving Repr

namespace StatsReply

/-- A sum within 64 bits. -/
def addWithin (a b : UInt64) : UInt64 := (Word.cap64 (a.toNat + b.toNat)).toUInt64

/-- The bytes received and sent over a list of interfaces. -/
def traffic (ts : List (String × Traffic)) : UInt64 × UInt64 :=
  ts.foldl (fun total t => (addWithin total.1 t.2.received, addWithin total.2 t.2.sent)) (0, 0)

/-- A text with the capital letters of ASCII made small. -/
def lower (s : String) : List Char :=
  s.toList.map fun c => if 65 ≤ c.toNat ∧ c.toNat ≤ 90 then Char.ofNat (c.toNat + 32) else c

/-- The bytes read and written according to a list of entries; other operations do not count. -/
def blockBytes (es : List BlockEntry) : UInt64 × UInt64 :=
  es.foldl (fun total e =>
    if lower e.operation = "read".toList then (addWithin total.1 e.bytes, total.2)
    else if lower e.operation = "write".toList then (total.1, addWithin total.2 e.bytes)
    else total) (0, 0)

/-- A name without slashes in front. -/
def plainName (name : String) : String := String.ofList (name.toList.dropWhile (· == '/'))

/-- The sample that a reply holds. -/
def sample (r : StatsReply) : StatsSample :=
  let (received, sent) := ((r.networks.map traffic).getD (0, 0))
  let (read, written) := ((r.blocks.map blockBytes).getD (0, 0))
  { name := plainName r.name
    previous := r.previous.sample
    current := r.current.sample
    memoryUsage := r.memoryUsage.getD 0
    memoryLimit := r.memoryLimit.getD 0
    networkReceived := received
    networkSent := sent
    blockRead := read
    blockWritten := written }

end StatsReply

/-- A port in a reply. -/
structure PortReply where
  address : Option String := none
  inner : Nat
  outer : Option Nat := none
  protocol : Option String := none
deriving Repr

/-- A container in a reply; what is not told is absent. -/
structure Summary where
  id : Option String := none
  names : Option (List String) := none
  image : Option String := none
  state : Option String := none
  status : Option String := none
  created : Option Int := none
  ports : Option (List PortReply) := none
  labels : Option (List (String × String)) := none
deriving Repr

namespace Summary

/-- The time a number of seconds after 1970, if the calendar reaches as far. -/
def time? (seconds : Int) : Option Instant :=
  let t : Instant := ⟨seconds, 0, by decide⟩
  if t.inCalendar then some t else none

/-- The labels in the order of their names. -/
def sorted (labels : List (String × String)) : List (String × String) :=
  labels.mergeSort fun a b => a.1 ≤ b.1

/-- The container that a reply tells of. -/
def container (s : Summary) : Container where
  id := shortId (s.id.getD "")
  name := ((s.names.bind List.head?).map StatsReply.plainName).getD ""
  image := s.image.getD ""
  state := s.state.getD ""
  status := s.status.getD ""
  createdAt := s.created.bind time?
  ports := (s.ports.getD []).map fun p => ⟨p.address, p.inner, p.outer, p.protocol.getD "tcp"⟩
  labels := sorted (s.labels.getD [])

end Summary

/-! ### An engine out of reach -/

namespace Engine

/-- A call that comes back without an answer of the engine. -/
def failing {α : Type} (operation : String) : Answer (Except RuntimeError α) :=
  .now (.error (.api ("failed to " ++ operation)))

/-- The answers of an engine that cannot be reached, up to where the system's own words begin. -/
def unreachable : Runtime where
  list := failing "list containers"
  inspect := failing "inspect container"
  start := failing "start container"
  stop := failing "stop container"
  restart := failing "restart container"
  logs := failing "read logs"
  stats := failing "read stats"
  images := failing "list images"
  networks := failing "list networks"
  volumes := failing "list volumes"
  info := failing "read system info"
  ping := failing "ping runtime"

end Engine

end HostControl.Workload
