/-
Module: HostControl.Toml.Statement
Purpose: The statements of a TOML document: assignments and the headers of tables.
Main exports: Statement, value, statements
-/
import HostControl.Toml.Token

namespace HostControl.Toml

/-! ### Tables under construction -/

/-- How a table came about, which decides what may still be added to it: written out by a header or
in braces, implied by a longer header, or named by a dotted key. -/
inductive Origin where
  | written
  | implied
  | dotted
deriving DecidableEq, Repr

/-- A table under construction holds values, tables, and arrays of tables. -/
inductive Node where
  | value (v : Value)
  | table (origin : Origin) (fields : List (String × Node))
  | tables (elements : List (List (String × Node)))
deriving Inhabited

/-- The fields of a table under construction. -/
abbrev Nodes := List (String × Node)

namespace Nodes

def find? (fields : Nodes) (name : String) : Option Node :=
  (List.find? (·.1 == name) fields).map (·.2)

/-- The fields with the one of this name replaced, or added at the end. -/
def set (name : String) (node : Node) : Nodes → Nodes
  | [] => [(name, node)]
  | (k, v) :: rest => if k = name then (name, node) :: rest else (k, v) :: set name node rest

/-- Puts a value under a dotted key. `takes` tells whether the table itself takes the value when the
key has one name; no name is given twice. Tables on the way that are missing are made as the key names
them; one that was written out takes nothing in this way, and only one that a dotted key named takes
the value itself. Of an array of tables the last element is meant. -/
def assign (takes : Bool) (fields : Nodes) : Path → Value → Option Nodes
  | [], _ => none
  | [name], v =>
    if takes && (find? fields name).isNone then some (fields ++ [(name, .value v)]) else none
  | name :: next :: path, v =>
    match find? fields name with
    | none => (assign true [] (next :: path) v).map fun inner => fields ++ [(name, .table .dotted inner)]
    | some (.table .written _) => none
    | some (.table origin inner) =>
      (assign (origin == .dotted) inner (next :: path) v).map fun inner =>
        set name (.table origin inner) fields
    | some (.tables elements) =>
      match elements.getLast? with
      | some last => (assign false last (next :: path) v).map fun inner =>
          set name (.tables (elements.dropLast ++ [inner])) fields
      | none => none
    | some (.value _) => none

end Nodes

mutual

/-- The finished value of a table under construction. -/
def Node.finish : Node → Value
  | .value v => v
  | .table _ fields => .table (finishFields fields)
  | .tables elements => .array (finishElements elements)

def finishFields : List (String × Node) → List (String × Value)
  | [] => []
  | (k, n) :: rest => (k, n.finish) :: finishFields rest

def finishElements : List (List (String × Node)) → List Value
  | [] => []
  | fields :: rest => .table (finishFields fields) :: finishElements rest

end

/-! ### Values -/

mutual

/-- A value at the front of a text, inside `depth` arrays and inline tables. The first argument
bounds nesting and number of items. -/
def value : Nat → Nat → Reader Value
  | 0, _, _ => none
  | fuel + 1, depth, cs =>
    match cs with
    | '"' :: _ | '\'' :: _ => (string cs).map fun (s, rest) => (.string s, rest)
    | 't' :: 'r' :: 'u' :: 'e' :: rest => some (.boolean true, rest)
    | 'f' :: 'a' :: 'l' :: 's' :: 'e' :: rest => some (.boolean false, rest)
    | '[' :: rest =>
      if depth + 1 < depthLimit then
        (items fuel (depth + 1) rest).map fun (vs, rest) => (.array vs, rest)
      else none
    | '\x7b' :: rest =>
      if depth + 1 < depthLimit then
        match skipSpace rest with
        | '\x7d' :: rest => some (.table [], rest)
        | rest => (pairs fuel (depth + 1) [] rest).map fun (fields, rest) =>
            (.table (finishFields fields), rest)
      else none
    | cs => number cs

/-- The items of an array up to its closing bracket, which a comma may precede. -/
def items : Nat → Nat → Reader (List Value)
  | 0, _, _ => none
  | fuel + 1, depth, cs =>
    match skipGap cs.length cs with
    | ']' :: rest => some ([], rest)
    | cs =>
      match value fuel depth cs with
      | none => none
      | some (v, rest) =>
        match skipGap rest.length rest with
        | ',' :: rest => (items fuel depth rest).map fun (vs, rest) => (v :: vs, rest)
        | ']' :: rest => some ([v], rest)
        | _ => none

/-- The fields of an inline table up to its closing brace, added to those read before. -/
def pairs : Nat → Nat → Nodes → Reader Nodes
  | 0, _, _, _ => none
  | fuel + 1, depth, fields, cs =>
    match key cs with
    | some (path, '=' :: rest) =>
      match value fuel depth (skipSpace rest) with
      | none => none
      | some (v, rest) =>
        match fields.assign true path v with
        | none => none
        | some fields =>
          match skipSpace rest with
          | ',' :: rest => pairs fuel depth fields rest
          | '\x7d' :: rest => some (fields, rest)
          | _ => none
    | _ => none

end

/-! ### Statements -/

/-- A line that says something: an assignment, the header of a table, or the header of an element
of an array of tables. -/
inductive Statement where
  | assign (path : Path) (v : Value)
  | table (path : Path)
  | element (path : Path)

/-- The statement at the front of a text. -/
def statement (cs : List Char) : Option (Statement × List Char) :=
  match cs with
  | '[' :: '[' :: rest =>
    match key rest with
    | some (path, ']' :: ']' :: rest) => some (.element path, rest)
    | _ => none
  | '[' :: rest =>
    match key rest with
    | some (path, ']' :: rest) => some (.table path, rest)
    | _ => none
  | cs =>
    match key cs with
    | some (path, '=' :: rest) =>
      (value (2 * rest.length + 2) 0 (skipSpace rest)).map fun (v, rest) => (.assign path v, rest)
    | _ => none

/-- The statements of a text, line by line; a line may be blank but for a comment. The first argument
bounds the number of lines. -/
def statementsFrom : Nat → List Char → Option (List Statement)
  | 0, _ => none
  | fuel + 1, cs =>
    match lineEnd cs with
    | some [] => some []
    | some rest => statementsFrom fuel rest
    | none =>
      match statement (skipSpace cs) with
      | none => none
      | some (s, rest) =>
        match lineEnd rest with
        | some [] => some [s]
        | some rest => (statementsFrom fuel rest).map (s :: ·)
        | none => none

/-- The statements of a document. A byte order mark in front of it does not count. -/
def statements (cs : List Char) : Option (List Statement) :=
  let cs := match cs with
    | '\ufeff' :: rest => rest
    | cs => cs
  statementsFrom (cs.length + 1) cs

end HostControl.Toml
