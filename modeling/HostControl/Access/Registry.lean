/-
Module: HostControl.Access.Registry
Purpose: The access lists, and the proxy file that is kept in step with them. A change is written to the
  file first; if that fails, nothing has changed.
Main exports: Lists, Place, WriteStep, WriteFault, Registry, Registry.open?, add, remove, cleanup, allows
-/
import HostControl.Access.Entry
import HostControl.Access.ProxyFile
import HostControl.Audit.Event

namespace HostControl.Access

open Text

/-- The entries of both lists, in the order in which they were added. -/
structure Lists where
  allow : List Entry := []
  deny : List Entry := []
deriving DecidableEq, Repr

namespace Lists

def get (kind : ListKind) (l : Lists) : List Entry :=
  match kind with
  | .allow => l.allow
  | .deny => l.deny

def set (kind : ListKind) (entries : List Entry) (l : Lists) : Lists :=
  match kind with
  | .allow => { l with allow := entries }
  | .deny => { l with deny := entries }

/-- The patterns of the allow list that are in force, in order. -/
def liveRanges (now : Instant) (l : Lists) : List String :=
  (l.allow.filter fun e => !e.expired now).map (·.pattern)

/-- Whether an address is let in: no entry in force keeps it out, and one lets it in. -/
def allows (now : Instant) (a : Address) (l : Lists) : Bool :=
  !l.deny.any (Entry.governs now a) && l.allow.any (Entry.governs now a)

end Lists

/-! ### The place of the file -/

/-- What stands at the place of the file. -/
inductive Place where
  | missing
  | text (contents : String)
  | directory
deriving DecidableEq, Repr

/-- The steps of a write: the new text goes to a draft beside the file, which then takes its place. -/
inductive WriteStep where
  | createDirectory
  | writeDraft
  | replace
deriving DecidableEq, Repr

/-- The text for a step that fails. -/
def WriteStep.failure : WriteStep → String
  | .createDirectory => "failed to create"
  | .writeDraft => "failed to write"
  | .replace => "failed to replace"

/-- The failure of a write: at which step, and what else is known of it. -/
structure WriteFault where
  step : WriteStep
  detail : String := ""
deriving DecidableEq, Repr

def WriteFault.message (f : WriteFault) : String := f.step.failure ++ f.detail

namespace Place

/-- Puts a text in the place of what was there. A directory cannot be replaced, and a fault leaves all
as it was. -/
def write (contents : String) (fault : Option WriteFault) (p : Place) : Except WriteFault Place :=
  match fault, p with
  | some f, _ => .error f
  | none, .directory => .error { step := .replace }
  | none, _ => .ok (.text contents)

/-- The ranges of a middleware in the file. A missing file has none. -/
def ranges (middleware : String) : Place → Except Error (List String)
  | .missing => .ok []
  | .directory => .error (.sync "failed to read")
  | .text contents =>
    match ProxyFile.ranges? middleware contents with
    | some rs => .ok rs
    | none => .error (.sync "failed to parse")

end Place

/-! ### The registry -/

/-- The lists, and the file of the proxy with the name of its middleware. -/
structure Registry where
  middleware : String
  place : Place
  lists : Lists := {}
deriving DecidableEq, Repr

/-- What a change came to: its result, the registry after it, the events for the audit trail, and the
texts it tried to write to the file. -/
structure Change (α : Type) where
  result : Except Error α
  registry : Registry
  events : List Audit.Event := []
  drafts : List String := []

namespace Registry

/-- The entry for a range that was found in the file. -/
def loaded? (pattern : String) (now : Instant) : Option Entry :=
  (Entry.make pattern "loaded from proxy config" "system" now none).toOption

/-- The entries for ranges found in the file. A pattern that was there before, or that denotes nothing,
is left out. -/
def load (now : Instant) (ranges : List String) : List Entry :=
  ranges.foldl (fun entries pattern =>
    if entries.any fun e => e.pattern == trim pattern then entries
    else entries ++ (loaded? pattern now).toList) []

/-- Opens the registry: the ranges in the file become the allow list. -/
def open? (middleware : String) (place : Place) (now : Instant) : Except Error Registry :=
  (place.ranges middleware).map fun ranges =>
    { middleware, place, lists := { allow := load now ranges } }

/-- Whether a list has an entry of a pattern. -/
def has (kind : ListKind) (pattern : String) (r : Registry) : Bool :=
  (r.lists.get kind).any fun e => e.pattern == pattern

/-- Writes the next lists to the file, and then puts them in place. If the file cannot be written, the
failure is recorded and nothing else changes. -/
def commit {α : Type} (next : Lists) (now : Instant) (fault : Option WriteFault)
    (attempt : Audit.Event) (value : α) (events : List Audit.Event) (r : Registry) : Change α :=
  let draft := ProxyFile.render r.middleware (next.liveRanges now) now
  match r.place.write draft fault with
  | .ok place =>
    { result := .ok value, registry := { r with place, lists := next }, events, drafts := [draft] }
  | .error f =>
    { result := .error (.sync f.message), registry := r
      events := [attempt.failed f.message], drafts := [draft] }

/-- A change that was refused before anything was written. -/
def refuse {α : Type} (e : Error) (r : Registry) : Change α := { result := .error e, registry := r }

/-- Adds an entry at the end of a list. -/
def add (kind : ListKind) (pattern description addedBy : String) (expiresAt : Option Instant)
    (now : Instant) (fault : Option WriteFault) (r : Registry) : Change Entry :=
  match Entry.make pattern description addedBy now expiresAt with
  | .error e => r.refuse e
  | .ok entry =>
    if entry.expired now then
      r.refuse (.validation ("expiry for " ++ entry.pattern ++ " is already in the past"))
    else if r.has kind entry.pattern then
      r.refuse (.validation (entry.pattern ++ " is already in the " ++ kind.label))
    else
      let attempt : Audit.Event :=
        { action := kind.label ++ "_add", actor := addedBy, resource := entry.pattern }
      let event := attempt.detail "description" (.str entry.description)
      let event := match entry.expiresAt with
        | some t => event.detail "expires_at" (.str (Rfc3339.offsetZero t))
        | none => event
      r.commit (r.lists.set kind (r.lists.get kind ++ [entry])) now fault attempt entry [event]

/-- A list without its first entry of a pattern. -/
def without (pattern : String) (entries : List Entry) : List Entry :=
  entries.eraseP fun e => e.pattern == pattern

/-- Takes the entry of a pattern out of a list. -/
def remove (kind : ListKind) (pattern actor : String) (now : Instant) (fault : Option WriteFault)
    (r : Registry) : Change Entry :=
  let pattern := trim pattern
  match (r.lists.get kind).find? fun e => e.pattern == pattern with
  | none => r.refuse (.notFound pattern kind)
  | some entry =>
    let event : Audit.Event := { action := kind.label ++ "_remove", actor, resource := pattern }
    r.commit (r.lists.set kind (without pattern (r.lists.get kind))) now fault event entry [event]

/-- The entries of a list that have expired. -/
def expiredIn (kind : ListKind) (now : Instant) (r : Registry) : List Entry :=
  (r.lists.get kind).filter (Entry.expired now)

/-- The lists without what has expired. -/
def swept (now : Instant) (r : Registry) : Lists where
  allow := r.lists.allow.filter fun e => !e.expired now
  deny := r.lists.deny.filter fun e => !e.expired now

/-- The event for an entry that has expired. -/
def expiryEvent (kind : ListKind) (e : Entry) : Audit.Event :=
  ({ action := "access_entry_expired", actor := "system", resource := e.pattern } : Audit.Event)
    |>.detail "list" (.str kind.label)

/-- Takes out of both lists what has expired, and gives the number of entries. If there is none, the
file is not written. -/
def cleanup (now : Instant) (fault : Option WriteFault) (r : Registry) : Change Nat :=
  let allow := r.expiredIn .allow now
  let deny := r.expiredIn .deny now
  let count := allow.length + deny.length
  if count = 0 then { result := .ok 0, registry := r }
  else
    let attempt : Audit.Event :=
      { action := "access_entry_expired", actor := "system", resource := "expired entries" }
    r.commit (r.swept now) now fault attempt count
      (allow.map (expiryEvent .allow) ++ deny.map (expiryEvent .deny))

/-- Whether an address is let in. -/
def allowsAddress (a : Address) (now : Instant) (r : Registry) : Bool := r.lists.allows now a

/-- Whether the address that a text names is let in. A text that names none is not. -/
def allows (text : String) (now : Instant) (r : Registry) : Bool :=
  match Address.read? (trim text) with
  | some a => r.allowsAddress a now
  | none => false

/-- The entries of a list, those that have expired included. -/
def list (kind : ListKind) (r : Registry) : List Entry := r.lists.get kind

end Registry

end HostControl.Access
