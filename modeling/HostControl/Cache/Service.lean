/-
Module: HostControl.Cache.Service
Purpose: The cache that instances share: its commands, what it answers, and how it fails.
Main exports: Cache.Command, Cache.Error, Cache.Answers, Cache.Usage
-/
import HostControl.Json.Basic
import HostControl.Time.Answer
import HostControl.Word

namespace HostControl.Cache

open Text

/-- A command to the cache. -/
inductive Command where
  /-- Adds one to the counter under a key. -/
  | increment (key : String)
  /-- Lets a key end after some seconds. -/
  | expire (key : String) (seconds : Nat)
  /-- Asks for any answer. -/
  | ping
deriving DecidableEq, Repr

namespace Command

/-- A command with its arguments, as it is sent. -/
def text : Command → String
  | .increment key => "INCR " ++ key
  | .expire key seconds => "EXPIRE " ++ key ++ " " ++ String.ofList (decimal seconds)
  | .ping => "PING"

end Command

/-- How a command fails. -/
inductive Error where
  | timeout (command : String) (millis : Nat)
  | refused (command message : String)
deriving DecidableEq, Repr

/-- The text of an error. -/
def Error.message : Error → String
  | .timeout command millis =>
    "cache command " ++ command ++ " timed out after " ++ String.ofList (decimal millis) ++ "ms"
  | .refused command text => "cache command " ++ command ++ " failed: " ++ text

/-- Counts of the commands sent and of those that failed. -/
structure Usage where
  commands : Nat := 0
  errors : Nat := 0
  timeouts : Nat := 0
deriving DecidableEq, Repr

namespace Usage

def toJson (u : Usage) : Json :=
  .obj [("commands", .nat u.commands), ("errors", .nat u.errors), ("timeouts", .nat u.timeouts)]

end Usage

/-- What the cache answers for a while. Counting commands always come to an end, for the cache's
client gives them up at its own deadline. -/
structure Answers where
  increment : String → Delay × Except Error Int
  expire : Delay × Except Error Unit
  ping : Answer (Except Error Unit)
  usage : Usage := {}

/-! ### Connecting -/

/-- The failure of a connection that does not come about in time. -/
def connectTimeout (limit : Span) : Error := .timeout "CONNECT" limit.wordMillis

/-- The failure of a connection whose address cannot be used. -/
def connectRefused (message : String) : Error := .refused "CONNECT" message

/-- The answers where there is no cache: every command fails at once. -/
def Answers.absent : Answers where
  increment := fun _ => (none, .error (.refused "INCR" ""))
  expire := (none, .error (.refused "EXPIRE" ""))
  ping := .now (.error (.refused "PING" ""))

end HostControl.Cache
