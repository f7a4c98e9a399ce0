/-
Module: HostControl.Access.Storage
Purpose: The registry with its file in a tree. A new text takes the place of the file by way of a draft: the
  directory is made, the draft is written, and then it replaces the file. Whichever step fails, the
  registry has gone as it goes when the write fails at that step.
Main exports: draftPath, putInPlace, Place.at, Storage, Storage.open?, Storage.change, Storage.reopen
-/
import HostControl.Access.Registry
import HostControl.Files.Tree

namespace HostControl.Access

/-- The path of the draft for the file at a path. -/
def draftPath (path : Path.Text) : Path.Text := Path.withExtension "toml.tmp".toList path

/-- Writes a draft and puts it in the place of the file at a path. Gives the step that failed, if one did,
with the path it was done at; a draft that cannot take the place is removed. -/
def writeThrough (path : Path.Text) (contents : String) (t : Tree) :
    Option (WriteStep × Path.Text) × Tree :=
  let draft := draftPath path
  match t.write draft contents with
  | .error _ => (some (.writeDraft, draft), t)
  | .ok written =>
    match written.rename draft path with
    | .ok t => (none, t)
    | .error _ => (some (.replace, path), (written.remove draft).toOption.getD written)

/-- Puts a text in the place of the file at a path, whose directory is made if it is missing. What was
made stays, even if a later step fails. -/
def putInPlace (path : Path.Text) (contents : String) (t : Tree) :
    Option (WriteStep × Path.Text) × Tree :=
  match Path.parent? path with
  | none | some [] => writeThrough path contents t
  | some up =>
    match t.makeDirectories up with
    | (true, t) => writeThrough path contents t
    | (false, t) => (some (.createDirectory, up), t)

/-- What stands at the place of the file in a tree. -/
def Place.at (path : Path.Text) (t : Tree) : Place :=
  match t.read path with
  | .ok contents => .text contents
  | .error .missing => .missing
  | .error .refused => .directory

/-- A registry, and the tree that holds its file at a path. -/
structure Storage where
  registry : Registry
  tree : Tree
  path : Path.Text

namespace Storage

/-- Opens the registry of the file at a path. -/
def open? (middleware : String) (path : Path.Text) (tree : Tree) (now : Instant) : Except Error Storage :=
  (Registry.open? middleware (.at path tree) now).map fun registry => { registry, tree, path }

/-- Carries a change out on the registry and on the file. A fault is known by its step alone. -/
def change {α : Type} (step : Option WriteFault → Registry → Change α) (s : Storage) :
    Change α × Storage :=
  let planned := step none s.registry
  let (fault, tree) := match planned.drafts with
    | [] => (none, s.tree)
    | text :: _ => putInPlace s.path text s.tree
  let done := match fault with
    | none => planned
    | some (failed, _) => step (some { step := failed }) s.registry
  (done, { s with tree, registry := { done.registry with place := .at s.path tree } })

/-- Lets somebody else change the tree. -/
def disturb (f : Tree → Tree) (s : Storage) : Storage :=
  let tree := f s.tree
  { s with tree, registry := { s.registry with place := .at s.path tree } }

/-- Opens the registry anew. -/
def reopen (now : Instant) (s : Storage) : Except Error Storage :=
  open? s.registry.middleware s.path s.tree now

end Storage

end HostControl.Access
