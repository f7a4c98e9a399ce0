/-
Module: HostControl.Admission.Clients
Purpose: One token bucket for each caller's address, for a limited number of callers. A new caller
  takes the place of the one seen least recently; callers that were idle for long are pruned.
Main exports: Clients, Clients.take, Clients.prune, Clients.size
-/
import HostControl.Admission.Bucket
import HostControl.Net.Address
import HostControl.Table

namespace HostControl.Admission

/-- The bucket of one caller, the rank of the caller's last take, and its time. -/
structure Slot where
  bucket : Bucket
  rank : Nat
  lastSeen : Span
deriving DecidableEq, Repr

/-- The callers that are tracked. `order` lists them by the ranks of their last takes, the smallest
rank first. -/
structure Clients where
  quota : Quota
  capacity : Nat
  idle : Span
  capacity_pos : 0 < capacity := by omega
  slots : Table Address Slot := []
  order : Table Nat Address := []
  tick : Nat := 0
deriving Repr

namespace Clients

/-- Room for a configured number of callers; there is always room for one. -/
def of (rate burst : UInt32) (capacity : UInt64) (idleSeconds : UInt64) : Clients where
  quota := Quota.of rate burst
  capacity := max capacity.toNat 1
  idle := Span.ofSeconds idleSeconds.toNat

/-- The number of callers that are tracked. -/
def size (c : Clients) : Nat := c.slots.length

/-- Puts an address into the order, at the place of its rank. -/
def insertRank (rank : Nat) (address : Address) : Table Nat Address → Table Nat Address
  | [] => [(rank, address)]
  | (r, a) :: rest =>
    if rank < r then (rank, address) :: (r, a) :: rest
    else if rank = r then (rank, address) :: rest
    else (r, a) :: insertRank rank address rest

/-- Takes the caller seen least recently out. -/
def evict (c : Clients) : Clients :=
  match c.order with
  | [] => c
  | (_, address) :: rest => { c with slots := c.slots.erase address, order := rest }

/-- Makes room for a caller that is not tracked yet. -/
def makeRoom (address : Address) (c : Clients) : Clients :=
  if !c.slots.has address && c.capacity ≤ c.size then c.evict else c

/-- The slot of a caller; a new one is made at the present rank. -/
def slot (address : Address) (now : Span) (c : Clients) : Slot :=
  (c.slots.find? address).getD ⟨⟨c.quota, now, none⟩, c.tick, now⟩

/-- Takes a token from a caller's bucket. -/
def take (address : Address) (now : Span) (c : Clients) :
    Except ArithmeticFault (Taking × Clients) := do
  let c := { c with tick := Word.following c.tick }.makeRoom address
  let slot := c.slot address now
  let (taking, bucket) ← slot.bucket.take now
  return (taking,
    { c with
      slots := c.slots.set address ⟨bucket, c.tick, now⟩
      order := insertRank c.tick address (c.order.erase slot.rank) })

/-- Whether a caller was seen within the idle time. -/
def recent (now : Span) (c : Clients) (s : Slot) : Bool := now - s.lastSeen < c.idle

/-- Drops the callers that were idle, and gives their number. -/
def prune (now : Span) (c : Clients) : Nat × Clients :=
  let kept := c.slots.filter fun (_, s) => c.recent now s
  let dropped := c.slots.filter fun (_, s) => !c.recent now s
  (c.size - kept.length,
    { c with slots := kept, order := dropped.foldl (fun order (_, s) => order.erase s.rank) c.order })

end Clients

end HostControl.Admission
