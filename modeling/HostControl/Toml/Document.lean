/-
Module: HostControl.Toml.Document
Purpose: The table that the statements of a TOML document build.
Main exports: Toml.build, Toml.read?
-/
import HostControl.Toml.Statement

namespace HostControl.Toml

/-- Changes the table at a path of headers. Tables on the way that are missing are implied; of an
array of tables its last element is meant. -/
def Nodes.within (change : Nodes → Option Nodes) (fields : Nodes) : Path → Option Nodes
  | [] => change fields
  | name :: path =>
    match fields.find? name with
    | none => (within change [] path).map fun inner => fields ++ [(name, .table .implied inner)]
    | some (.table origin inner) => (within change inner path).map fun inner =>
        fields.set name (.table origin inner)
    | some (.tables elements) =>
      match elements.getLast? with
      | some last => (within change last path).map fun inner =>
          fields.set name (.tables (elements.dropLast ++ [inner]))
      | none => none
    | some (.value _) => none

/-- Where assignments go: the table of the last header, at its path. -/
inductive Place where
  | root
  | table (path : Path)
  | element (path : Path)

/-- A document under construction: the tables closed so far, and the one that is open. -/
structure Draft where
  closed : Nodes
  place : Place
  opened : Nodes

/-- Splits a path into the table that it leads to and the last name. -/
def splitLast : Path → Option (Path × String)
  | [] => none
  | [name] => some ([], name)
  | name :: rest => (splitLast rest).map fun (path, last) => (name :: path, last)

/-- Closes the open table: puts it where its header said. -/
def Draft.close (d : Draft) : Option Nodes :=
  match d.place with
  | .root => some d.opened
  | .table path =>
    (splitLast path).bind fun (path, name) =>
      d.closed.within (fun fields =>
        match fields.find? name with
        | none => some (fields ++ [(name, .table .written d.opened)])
        | some (.table .implied _) => some (fields.set name (.table .written d.opened))
        | some _ => none) path
  | .element path =>
    (splitLast path).bind fun (path, name) =>
      d.closed.within (fun fields =>
        match fields.find? name with
        | none => some (fields ++ [(name, .tables [d.opened])])
        | some (.tables elements) => some (fields.set name (.tables (elements ++ [d.opened])))
        | some _ => none) path

/-- The fields of the table at a path of headers. -/
def Nodes.lookup (fields : Nodes) : Path → Option Nodes
  | [] => some fields
  | name :: path =>
    match fields.find? name with
    | some (.table _ inner) => lookup inner path
    | some (.tables elements) =>
      match elements.getLast? with
      | some last => lookup last path
      | none => none
    | _ => none

/-- The table that a header opens: an implied one goes on with its fields, a missing one is empty, and
all others have been written already. -/
def openTable (closed : Nodes) (path : Path) : Option Draft :=
  (splitLast path).bind fun (parent, name) =>
    (closed.within (fun fields =>
      match fields.find? name with
      | none => some fields
      | some (.table .implied _) => some fields
      | some _ => none) parent).map fun closed =>
        { closed, place := .table path, opened := (closed.lookup path).getD [] }

/-- A header opens a new element of the array of tables at its path, if there is none or such an
array. -/
def openElement (closed : Nodes) (path : Path) : Option Draft :=
  (splitLast path).bind fun (parent, name) =>
    (closed.within (fun fields =>
      match fields.find? name with
      | none => some (fields ++ [(name, .tables [])])
      | some (.tables _) => some fields
      | some _ => none) parent).map fun closed =>
        { closed, place := .element path, opened := [] }

/-- The draft after one more statement. -/
def Draft.step (d : Draft) : Statement → Option Draft
  | .assign path v => (d.opened.assign true path v).map fun opened => { d with opened }
  | .table path => d.close.bind (openTable · path)
  | .element path => d.close.bind (openElement · path)

/-- The draft after a list of statements. -/
def Draft.steps (d : Draft) : List Statement → Option Draft
  | [] => some d
  | s :: rest => (d.step s).bind fun d => d.steps rest

/-- The table that the statements of a document build, if no two of them clash. -/
def build (ss : List Statement) : Option Table :=
  ((Draft.steps ⟨[], .root, []⟩ ss).bind Draft.close).map finishFields

def readChars? (cs : List Char) : Option Table := (statements cs).bind build

/-- The table that a TOML document denotes. -/
def read? (s : String) : Option Table := readChars? s.toList

end HostControl.Toml
