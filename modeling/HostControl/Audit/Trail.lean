/-
Module: HostControl.Audit.Trail
Purpose: Where audit records go: one line each, at the end of a text.
Main exports: Audit.Sink, Audit.Trail, Audit.Trail.record, Audit.Trail.sync, Audit.Trail.dayFile
-/
import HostControl.Audit.Event

namespace HostControl.Audit

/-- What a trail writes to. -/
inductive Sink where
  /-- A text that takes every line. -/
  | lines
  /-- A target that refuses every line; the refusal is not reported. -/
  | broken
  /-- No target: events are only shown in the log. -/
  | logOnly
  /-- A file behind a writer of its own, which ends when the trail is synced. -/
  | file
deriving DecidableEq, Repr

/-- An audit trail and what was written through it. -/
structure Trail where
  sink : Sink
  ended : Bool := false
  written : List Record := []

namespace Trail

/-- Whether a record reaches the target. -/
def takes (t : Trail) : Bool :=
  match t.sink with
  | .lines => true
  | .file => !t.ended
  | .broken | .logOnly => false

/-- Records an event. What the target does with it never reaches the caller. -/
def record (r : Record) (t : Trail) : Trail :=
  if t.takes then { t with written := t.written ++ [r] } else t

/-- Flushes the trail. The writer of a file ends with this. -/
def sync (t : Trail) : Trail := if t.sink = .file then { t with ended := true } else t

/-- The text of the target: each record on a line of its own. -/
def text (t : Trail) : List Char :=
  t.written.flatMap fun r => r.toJson.compactChars ++ ['\n']

/-- The name of the file that takes the records of a day. -/
def dayFile (t : Instant) : String :=
  "audit.log." ++ String.ofList (Rfc3339.renderDate (Rfc3339.dateOf t))

end Trail

end HostControl.Audit
