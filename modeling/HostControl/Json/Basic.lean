/-
Module: HostControl.Json.Basic
Purpose: JSON values and their compact and indented texts.
Main exports: Json, Json.compactChars, Json.compact, Json.indented, Json.field?
-/
import HostControl.Real.Shortest

namespace HostControl

/-- A JSON value as it stands in a text: an object keeps its fields in the order written. -/
inductive Json where
  | null
  | bool (value : Bool)
  | int (value : Int)
  | real (value : Binary64)
  | str (value : String)
  | arr (items : List Json)
  | obj (fields : List (String × Json))
deriving Repr, Inhabited, BEq

namespace Json

open Text

/-! ### Strings -/

/-- A character inside a string. Quote, backslash and control characters are escaped, by a letter
where there is one; all others stand for themselves. -/
def escapeChar (c : Char) : List Char :=
  if c = '"' then ['\\', '"']
  else if c = '\\' then ['\\', '\\']
  else if c = '\n' then ['\\', 'n']
  else if c = '\r' then ['\\', 'r']
  else if c = '\t' then ['\\', 't']
  else if c = '\x08' then ['\\', 'b']
  else if c = '\x0c' then ['\\', 'f']
  else if c.toNat < 32 then
    ['\\', 'u', '0', '0', digitChar (c.toNat / 16), digitChar (c.toNat % 16)]
  else [c]

def escapeChars (cs : List Char) : List Char := cs.flatMap escapeChar

/-- A string in its quotes. -/
def quoted (s : String) : List Char := '"' :: (escapeChars s.toList ++ ['"'])

def realChars (x : Binary64) : List Char := x.text?.getD ['n', 'u', 'l', 'l']

/-! ### The compact text -/

mutual

/-- The text without any blank outside strings. -/
def compactChars : Json → List Char
  | .null => ['n', 'u', 'l', 'l']
  | .bool true => ['t', 'r', 'u', 'e']
  | .bool false => ['f', 'a', 'l', 's', 'e']
  | .int n => signed n
  | .real x => realChars x
  | .str s => quoted s
  | .arr items => '[' :: (compactItems items ++ [']'])
  | .obj fields => '{' :: (compactFields fields ++ ['}'])

def compactItems : List Json → List Char
  | [] => []
  | [v] => compactChars v
  | v :: rest => compactChars v ++ ',' :: compactItems rest

def compactFields : List (String × Json) → List Char
  | [] => []
  | [(k, v)] => quoted k ++ ':' :: compactChars v
  | (k, v) :: rest => quoted k ++ ':' :: (compactChars v ++ ',' :: compactFields rest)

end

def compact (v : Json) : String := String.ofList v.compactChars

/-! ### The indented text -/

/-- A new line and the blanks of a nesting depth. -/
def lineAt (depth : Nat) : List Char := '\n' :: List.replicate (2 * depth) ' '

mutual

/-- The text with one item or field a line, two blanks a level; empty ones stay on one line. -/
def indentedChars (depth : Nat) : Json → List Char
  | .arr [] => ['[', ']']
  | .arr items => '[' :: (indentedItems (depth + 1) items ++ lineAt depth ++ [']'])
  | .obj [] => ['{', '}']
  | .obj fields => '{' :: (indentedFields (depth + 1) fields ++ lineAt depth ++ ['}'])
  | .null => ['n', 'u', 'l', 'l']
  | .bool true => ['t', 'r', 'u', 'e']
  | .bool false => ['f', 'a', 'l', 's', 'e']
  | .int n => signed n
  | .real x => realChars x
  | .str s => quoted s

def indentedItems (depth : Nat) : List Json → List Char
  | [] => []
  | [v] => lineAt depth ++ indentedChars depth v
  | v :: rest => lineAt depth ++ indentedChars depth v ++ ',' :: indentedItems depth rest

def indentedFields (depth : Nat) : List (String × Json) → List Char
  | [] => []
  | [(k, v)] => lineAt depth ++ quoted k ++ ':' :: ' ' :: indentedChars depth v
  | (k, v) :: rest =>
    lineAt depth ++ quoted k ++ ':' :: ' ' :: indentedChars depth v ++ ',' :: indentedFields depth rest

end

def indented (v : Json) : String := String.ofList (v.indentedChars 0)

/-! ### Fields -/

/-- The value of a field; the last one counts when a name is repeated. -/
def field? (v : Json) (name : String) : Option Json :=
  match v with
  | .obj fields => (fields.reverse.find? (·.1 == name)).map (·.2)
  | _ => none

/-- A number that is never negative. -/
def nat (n : Nat) : Json := .int n

/-- A field that is left out when there is no value. -/
def optional (name : String) (value : Option Json) : List (String × Json) :=
  match value with
  | some v => [(name, v)]
  | none => []

/-- The value, or null. -/
def orNull {α : Type} (encode : α → Json) : Option α → Json
  | some a => encode a
  | none => .null

/-! ### Objects as maps -/

/-- Puts a field into a list that is sorted by name; a field of that name gives way. -/
def insertField (name : String) (value : Json) : List (String × Json) → List (String × Json)
  | [] => [(name, value)]
  | (k, v) :: rest =>
    if name < k then (name, value) :: (k, v) :: rest
    else if name = k then (name, value) :: rest
    else (k, v) :: insertField name value rest

mutual

/-- Reads every object as a map: fields in the order of their names, and of a repeated name the last
value. -/
def asMaps : Json → Json
  | .arr items => .arr (asMapsItems items)
  | .obj fields => .obj (asMapsFields [] fields)
  | v => v

def asMapsItems : List Json → List Json
  | [] => []
  | v :: rest => asMaps v :: asMapsItems rest

def asMapsFields (sorted : List (String × Json)) : List (String × Json) → List (String × Json)
  | [] => sorted
  | (k, v) :: rest => asMapsFields (insertField k (asMaps v) sorted) rest

end

end Json

end HostControl
