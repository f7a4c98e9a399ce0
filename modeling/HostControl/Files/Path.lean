/-
Module: HostControl.Files.Path
Purpose: Paths of files as texts. A path ends at its last part that is a name or leads up: slashes and
  single dots behind that part do not count.
Main exports: Path.fileName?, Path.parent?, Path.ancestors, Path.stem, Path.extension?, Path.withExtension
-/
import HostControl.Text.Parts

namespace HostControl.Path

open HostControl.Text (parts joined)

/-- A path as a text. -/
abbrev Text := List Char

/-- A part that leads nowhere: nothing between two slashes, or a single dot. -/
def isIdle (part : Text) : Bool := part = [] || part = ['.']

/-- The part that leads up. -/
def isUp (part : Text) : Bool := part = ['.', '.']

/-- A list without the idle parts at its end. -/
def dropIdle (ps : List Text) : List Text := (ps.reverse.dropWhile isIdle).reverse

/-- The parts of a path up to its last one that counts. The first part always counts: an empty one means
that the path begins at the root, and a dot that it begins where it is used. -/
def body (path : Text) : List Text :=
  match parts '/' path with
  | [] => []
  | first :: rest => first :: dropIdle rest

/-- The path that consists of the given parts. -/
def ofParts (ps : List Text) : Text := if ps = [[]] then ['/'] else joined '/' ps

/-- The name of the file that a path leads to, unless it ends by leading up or nowhere. -/
def fileName? (path : Text) : Option Text :=
  match (body path).getLast? with
  | some last => if isIdle last || isUp last then none else some last
  | none => none

/-- The path to the directory that holds the end of a path: empty where the path says no more, and none
for the root and for the empty path. -/
def parent? (path : Text) : Option Text :=
  match body path with
  | [] | [[]] => none
  | [_] => some []
  | first :: rest => some (ofParts (first :: dropIdle rest.dropLast))

/-- A path and the paths to all directories above, the longest first, as far as the path tells. The
first argument bounds their number. -/
def ancestorsWithin : Nat → Text → List Text
  | 0, _ => []
  | fuel + 1, path =>
    if path = [] then []
    else
      match parent? path with
      | some up => path :: ancestorsWithin fuel up
      | none => [path]

/-- A path and the paths to all directories above, the longest first. -/
def ancestors (path : Text) : List Text := ancestorsWithin (path.length + 1) path

/-! ### Extensions -/

/-- What stands behind the last dot of a name, if something stands in front of that dot. -/
def extension? (name : Text) : Option Text :=
  let front := name.reverse.dropWhile (· != '.')
  if front.length ≤ 1 then none else some (name.drop front.length)

/-- A name without its extension and the dot in front of that. -/
def stem (name : Text) : Text :=
  match extension? name with
  | some e => name.take (name.length - e.length - 1)
  | none => name

/-- A path that ends in a file's name, cut behind the stem and given an extension. A path without the
name of a file stays as it is. -/
def extend (extension path : Text) : Text :=
  match fileName? path with
  | some name => joined '/' ((body path).dropLast ++ [stem name ++ '.' :: extension])
  | none => path

/-- A path with another extension for its file: as many characters as the old one has are taken from the
end of the text, and the new one follows the stem of what is left. -/
def withExtension (extension path : Text) : Text :=
  match (fileName? path).bind extension? with
  | some old => extend extension (path.take (path.length - old.length))
  | none => extend extension path

example : fileName? "a/b.toml/./".toList = some "b.toml".toList := by decide
example : parent? "a/../b.toml".toList = some "a/..".toList := by decide
example : withExtension "toml.tmp".toList "a/b.toml/".toList = "a/b.toml.tmp".toList := by decide
example : withExtension "toml.tmp".toList "..proxy".toList = "..".toList := by decide

end HostControl.Path
