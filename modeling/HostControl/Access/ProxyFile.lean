/-
Module: HostControl.Access.ProxyFile
Purpose: The file from which the reverse proxy takes the ranges it lets in: one middleware with a list
  of ranges, in a TOML document.
Main exports: keyChars, ProxyFile.render, ProxyFile.ranges?
-/
import HostControl.Config.Section
import HostControl.Time.Rfc3339
import HostControl.Toml.Document

namespace HostControl.Access

open Text

/-! ### Writing -/

/-- Characters of a key that needs no quotes. -/
def isBareChar (c : Char) : Bool :=
  (65 ≤ c.toNat && c.toNat ≤ 90) || (97 ≤ c.toNat && c.toNat ≤ 122) ||
    (48 ≤ c.toNat && c.toNat ≤ 57) || c == '_' || c == '-'

/-- Control characters of ASCII. -/
def isControl (c : Char) : Bool := c.toNat < 32 || c.toNat == 127

/-- A hexadecimal digit in upper case. -/
def upperDigit (d : Nat) : Char := if d < 10 then Char.ofNat (48 + d) else Char.ofNat (55 + d)

/-- A character inside double quotes. -/
def basicChar (c : Char) : List Char :=
  if c = '"' then ['\\', '"']
  else if c = '\\' then ['\\', '\\']
  else if c = '\x08' then ['\\', 'b']
  else if c = '\t' then ['\\', 't']
  else if c = '\n' then ['\\', 'n']
  else if c = '\x0c' then ['\\', 'f']
  else if c = '\r' then ['\\', 'r']
  else if isControl c then
    ['\\', 'u', '0', '0', upperDigit (c.toNat / 16), upperDigit (c.toNat % 16)]
  else [c]

/-- A text in double quotes. -/
def basicString (cs : List Char) : List Char := '"' :: (cs.flatMap basicChar ++ ['"'])

/-- A key: without quotes where it can be, in single quotes where these save escapes, and in double
quotes else. -/
def keyChars (cs : List Char) : List Char :=
  if !cs.isEmpty && cs.all isBareChar then cs
  else if cs.any (fun c => c == '"' || c == '\\') && !cs.any (fun c => c == '\'' || isControl c) then
    '\'' :: (cs ++ ['\''])
  else basicString cs

/-- Texts in double quotes, with commas and blanks between them. -/
def itemChars : List String → List Char
  | [] => []
  | [t] => basicString t.toList
  | t :: rest => basicString t.toList ++ ',' :: ' ' :: itemChars rest

namespace ProxyFile

open Config

/-- The lines at the top of the file. -/
def heading : List Char :=
  ("# Reverse proxy dynamic configuration: IP allow list.\n" ++
    "# Managed by harbormaster. Manual edits are overwritten.\n" ++ "# Last updated: ").toList

/-- The file with the ranges of a middleware. -/
def renderChars (middleware : String) (ranges : List String) (updated : Instant) : List Char :=
  heading ++ (Rfc3339.offsetZero updated).toList ++ ['\n', '\n'] ++
    "[http.middlewares.".toList ++ keyChars middleware.toList ++ ".ipAllowList]\n".toList ++
    "sourceRange = [".toList ++ itemChars ranges ++ [']', '\n']

def render (middleware : String) (ranges : List String) (updated : Instant) : String :=
  String.ofList (renderChars middleware ranges updated)

/-! ### Reading -/

/-- A list of texts. -/
def strings? : Toml.Value → Option (List String)
  | .array items => items.mapM string?
  | _ => none

/-- The middlewares of a document, by name, each with its ranges if it has a list of them. -/
abbrev Middlewares := List (String × Option (List String))

/-- The list of ranges in a middleware. -/
def allowListFields : List (Config.Field (List String)) := [.of "sourceRange" strings? fun v _ => v]

/-- A middleware. -/
def middlewareFields : List (Config.Field (Option (List String))) :=
  [.nested "ipAllowList" allowListFields [] fun v _ => some v]

/-- Every middleware of a table; one that is not of the right form makes the table unreadable. -/
def middlewares? : Toml.Value → Option Middlewares
  | .table fields => fields.mapM fun (name, v) => (Section.read? middlewareFields none v).map (name, ·)
  | _ => none

def httpFields : List (Config.Field Middlewares) := [.of "middlewares" middlewares? fun v _ => v]

def documentFields : List (Config.Field Middlewares) := [.nested "http" httpFields [] fun v _ => v]

/-- The middlewares of a document. -/
def middlewaresOf? (t : Toml.Table) : Option Middlewares := Config.Section.ofTable documentFields t []

/-- The ranges of one middleware; none if it is not there or has no list. -/
def rangesOf (middleware : String) (ms : Middlewares) : List String :=
  (((ms.find? (·.1 == middleware)).map (·.2)).join).getD []

/-- The ranges that a file gives to a middleware, if the file can be read. -/
def ranges? (middleware : String) (text : String) : Option (List String) :=
  ((Toml.read? text).bind middlewaresOf?).map (rangesOf middleware)

end ProxyFile

end HostControl.Access
