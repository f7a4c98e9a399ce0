/-
Module: HostControl.Access.Entry
Purpose: Entries of the access lists, and how operations on the lists fail.
Main exports: ListKind, Entry, Entry.matchesAddress, Entry.expired, Access.Error, Entry.make
-/
import HostControl.Json.Basic
import HostControl.Net.Text
import HostControl.Time.Rfc3339

namespace HostControl.Access

open Text

/-- The two lists: addresses that are let in, and addresses that are kept out whatever the first list
holds. -/
inductive ListKind where
  | allow
  | deny
deriving DecidableEq, Repr

/-- The name of a list in messages and records. -/
def ListKind.label : ListKind → String
  | .allow => "allowlist"
  | .deny => "denylist"

/-- Why an operation failed. -/
inductive Error where
  | validation (text : String)
  | notFound (pattern : String) (list : ListKind)
  | sync (text : String)
deriving DecidableEq, Repr

def Error.message : Error → String
  | .validation text => "invalid access entry: " ++ text
  | .notFound pattern list => pattern ++ " is not in the " ++ list.label
  | .sync text => "proxy config sync failed: " ++ text

/-- The range that a pattern denotes. -/
def networkOf (pattern : String) : Except Error Network :=
  match Network.ofPattern? pattern with
  | some n => .ok n
  | none => .error (.validation ("'" ++ trim pattern ++ "' is not a valid IP address or CIDR range"))

/-- An entry of a list. The pattern is kept without blanks around it, beside the range it denotes. -/
structure Entry where
  pattern : String
  description : String
  addedBy : String
  addedAt : Instant
  expiresAt : Option Instant
  network : Network
deriving DecidableEq, Repr

namespace Entry

/-- An entry for a pattern, if the pattern denotes a range. -/
def make (pattern description addedBy : String) (addedAt : Instant) (expiresAt : Option Instant) :
    Except Error Entry :=
  (networkOf pattern).map fun network =>
    { pattern := trim pattern, description, addedBy, addedAt, expiresAt, network }

/-- Whether the entry holds for an address. IPv4-mapped addresses count as IPv4. -/
def matchesAddress (a : Address) (e : Entry) : Bool := e.network.contains a.canonical

/-- Whether the entry has come to its end. -/
def expired (now : Instant) (e : Entry) : Bool := e.expiresAt.any fun t => decide (t ≤ now)

/-- Whether the entry is in force and holds for an address. -/
def governs (now : Instant) (a : Address) (e : Entry) : Bool :=
  !e.expired now && e.matchesAddress a

def toJson (e : Entry) : Json :=
  .obj ([("pattern", .str e.pattern), ("description", .str e.description), ("added_by", .str e.addedBy),
    ("added_at", .str (Rfc3339.zulu e.addedAt))] ++
    Json.optional "expires_at" (e.expiresAt.map fun t => .str (Rfc3339.zulu t)))

end Entry

end HostControl.Access
