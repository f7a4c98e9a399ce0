/-
Module: HostControl.Workload.Snapshot
Purpose: What the container runtime tells of containers, images, networks and volumes, and of itself.
Main exports: Container, Image, RuntimeNetwork, Volume, RuntimeInfo, StatsSample, ContainerStats,
  StatsSample.stats, shortId
-/
import HostControl.Json.Basic
import HostControl.Time.Rfc3339
import HostControl.Workload.Usage

namespace HostControl.Workload

/-- A port of a container, and where it is published. -/
structure Port where
  address : Option String
  inner : Nat
  outer : Option Nat
  protocol : String
deriving DecidableEq, Repr

/-- A container as it is now. The labels are in the order of their names. -/
structure Container where
  id : String := ""
  name : String := ""
  image : String := ""
  state : String := ""
  status : String := ""
  createdAt : Option Instant := none
  ports : List Port := []
  labels : List (String × String) := []
deriving Repr, Inhabited

structure Image where
  id : String
  tags : List String
  size : Int
  createdAt : Option Instant
deriving Repr

structure RuntimeNetwork where
  id : String
  name : String
  driver : String
  scope : String
deriving DecidableEq, Repr

structure Volume where
  name : String
  driver : String
  mountpoint : String
  createdAt : Option String
deriving DecidableEq, Repr

/-- What the runtime tells of itself and its host. -/
structure RuntimeInfo where
  serverVersion : String := ""
  operatingSystem : String := ""
  architecture : String := ""
  cpus : Int := 0
  memoryTotal : Int := 0
  containers : Int := 0
  running : Int := 0
  paused : Int := 0
  stopped : Int := 0
  images : Int := 0
deriving DecidableEq, Repr, Inhabited

/-- Counters of a container at one moment, with those of processor time at the moment before. -/
structure StatsSample where
  name : String := ""
  previous : CpuSample := {}
  current : CpuSample := {}
  memoryUsage : UInt64 := 0
  memoryLimit : UInt64 := 0
  networkReceived : UInt64 := 0
  networkSent : UInt64 := 0
  blockRead : UInt64 := 0
  blockWritten : UInt64 := 0
deriving DecidableEq, Repr, Inhabited

/-- What a container uses, with shares of processor time and memory in percent. -/
structure ContainerStats where
  id : String
  name : String
  cpuPercent : Binary64
  memoryUsage : UInt64
  memoryLimit : UInt64
  memoryPercent : Binary64
  networkReceived : UInt64
  networkSent : UInt64
  blockRead : UInt64
  blockWritten : UInt64
  readAt : Instant
deriving Repr

/-- What a container uses, by a sample that was read at a time. -/
def StatsSample.stats (id : String) (readAt : Instant) (s : StatsSample) : ContainerStats where
  id
  name := s.name
  cpuPercent := cpuPercent s.previous s.current
  memoryUsage := s.memoryUsage
  memoryLimit := s.memoryLimit
  memoryPercent := memoryPercent s.memoryUsage s.memoryLimit
  networkReceived := s.networkReceived
  networkSent := s.networkSent
  blockRead := s.blockRead
  blockWritten := s.blockWritten
  readAt

/-- The first twelve characters of an id. -/
def shortId (id : String) : String := String.ofList (id.toList.take 12)

/-! ### As JSON -/

def timeJson : Option Instant → Json := Json.orNull fun t => .str (Rfc3339.zulu t)

def Port.toJson (p : Port) : Json :=
  .obj [("ip", Json.orNull .str p.address), ("private_port", .nat p.inner),
    ("public_port", Json.orNull .nat p.outer), ("protocol", .str p.protocol)]

def Container.toJson (c : Container) : Json :=
  .obj [("id", .str c.id), ("name", .str c.name), ("image", .str c.image), ("state", .str c.state),
    ("status", .str c.status), ("created_at", timeJson c.createdAt),
    ("ports", .arr (c.ports.map Port.toJson)),
    ("labels", .obj (c.labels.map fun (name, value) => (name, .str value)))]

def Image.toJson (i : Image) : Json :=
  .obj [("id", .str i.id), ("tags", .arr (i.tags.map .str)), ("size", .int i.size),
    ("created_at", timeJson i.createdAt)]

def RuntimeNetwork.toJson (n : RuntimeNetwork) : Json :=
  .obj [("id", .str n.id), ("name", .str n.name), ("driver", .str n.driver), ("scope", .str n.scope)]

def Volume.toJson (v : Volume) : Json :=
  .obj [("name", .str v.name), ("driver", .str v.driver), ("mountpoint", .str v.mountpoint),
    ("created_at", Json.orNull .str v.createdAt)]

def RuntimeInfo.toJson (i : RuntimeInfo) : Json :=
  .obj [("server_version", .str i.serverVersion), ("operating_system", .str i.operatingSystem),
    ("architecture", .str i.architecture), ("cpus", .int i.cpus), ("memory_total", .int i.memoryTotal),
    ("containers", .int i.containers), ("containers_running", .int i.running),
    ("containers_paused", .int i.paused), ("containers_stopped", .int i.stopped),
    ("images", .int i.images)]

def ContainerStats.toJson (s : ContainerStats) : Json :=
  .obj [("id", .str s.id), ("name", .str s.name), ("cpu_percent", .real s.cpuPercent),
    ("memory_usage", .nat s.memoryUsage.toNat), ("memory_limit", .nat s.memoryLimit.toNat),
    ("memory_percent", .real s.memoryPercent), ("network_rx", .nat s.networkReceived.toNat),
    ("network_tx", .nat s.networkSent.toNat), ("block_read", .nat s.blockRead.toNat),
    ("block_write", .nat s.blockWritten.toNat), ("read_at", .str (Rfc3339.zulu s.readAt))]

end HostControl.Workload
