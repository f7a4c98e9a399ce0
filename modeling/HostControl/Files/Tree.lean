/-
Module: HostControl.Files.Tree
Purpose: A tree of files and directories, with a directory in which it is used. A path is followed part by
  part: whatever a part leads on from has to be a directory, and so has what a slash at the end follows.
Main exports: Tree, Tree.walk, Tree.locate, Tree.read, Tree.holds, Tree.makeDirectories, Tree.write,
  Tree.rename
-/
import HostControl.Files.Path

namespace HostControl

/-- What stands in a tree. -/
inductive Node where
  | file (contents : String)
  | directory
deriving DecidableEq, Repr

/-- The names that lead from the root to a place. -/
abbrev Steps := List Path.Text

/-- Files and directories by their places. A directory that holds something need not be named. -/
structure Tree where
  nodes : List (Steps × Node) := []
  /-- Where paths begin that do not begin at the root. -/
  current : Steps := []
deriving Repr

namespace Tree

/-- Why nothing can be done at a path. -/
inductive Fault where
  /-- Nothing stands there, or on the way there. -/
  | missing
  /-- The path cannot be followed, or what stands there is not fit for what is to be done. -/
  | refused
deriving DecidableEq, Repr

/-! ### Places -/

/-- What stands at a place. The root and the directory of use are always there. -/
def node? (place : Steps) (t : Tree) : Option Node :=
  match t.nodes.find? (·.1 == place) with
  | some (_, node) => some node
  | none =>
    if place.isPrefixOf t.current || t.nodes.any (place.isPrefixOf ·.1) then some .directory else none

def isDirectory (place : Steps) (t : Tree) : Bool := t.node? place = some .directory

/-- Puts a node at a place, instead of what was there. -/
def put (place : Steps) (node : Node) (t : Tree) : Tree :=
  { t with nodes := t.nodes.filter (·.1 != place) ++ [(place, node)] }

/-- Takes the file or the empty directory at a place away. Its directory stays. -/
def drop (place : Steps) (t : Tree) : Tree :=
  let rest := { t with nodes := t.nodes.filter (·.1 != place) }
  if rest.isDirectory place.dropLast then rest else rest.put place.dropLast .directory

/-- Takes whatever stands at a place away, with all that it holds. -/
def clear (place : Steps) (t : Tree) : Tree :=
  { t with nodes := t.nodes.filter fun node => !place.isPrefixOf node.1 }

/-! ### Paths -/

/-- The greatest number of bytes in a name, and the number that a path does not reach. -/
def nameLimit : Nat := 255
def pathLimit : Nat := 4096

/-- How many bytes a text takes. -/
def byteCount (text : Path.Text) : Nat := text.foldr (·.utf8Size + ·) 0

/-- Whether a path can be followed at all, and where it begins. -/
def start (path : Path.Text) (t : Tree) : Except Fault Steps :=
  if path = [] then .error .missing
  else if path.contains '\x00' || pathLimit ≤ byteCount path then .error .refused
  else .ok (if path.head? = some '/' then [] else t.current)

/-- Follows one part from a place at which something stands. -/
def step (t : Tree) (place : Steps) (part : Path.Text) : Except Fault Steps :=
  if !t.isDirectory place then .error .refused
  else if Path.isIdle part then .ok place
  else if Path.isUp part then .ok place.dropLast
  else if nameLimit < byteCount part then .error .refused
  else if (t.node? (place ++ [part])).isSome then .ok (place ++ [part])
  else .error .missing

/-- Follows parts one after another. -/
def walk (t : Tree) : Steps → List Path.Text → Except Fault Steps
  | place, [] => .ok place
  | place, part :: rest =>
    match t.step place part with
    | .ok next => walk t next rest
    | .error e => .error e

/-- The place that a path leads to, where something stands. -/
def resolve (path : Path.Text) (t : Tree) : Except Fault Steps :=
  match t.start path with
  | .ok place => t.walk place (Text.parts '/' path)
  | .error e => .error e

/-- Where the end of a path is to be found: a name in a directory, or a directory that is there. -/
inductive Target where
  | name (directory : Steps) (name : Path.Text)
  | directory (place : Steps)

/-- The target of a list of parts. -/
def locateParts (t : Tree) (place : Steps) (ps : List Path.Text) : Except Fault Target :=
  match ps.getLast? with
  | none => .ok (.directory place)
  | some last =>
    match t.walk place ps.dropLast with
    | .error e => .error e
    | .ok place =>
      if !t.isDirectory place then .error .refused
      else if Path.isIdle last then .ok (.directory place)
      else if Path.isUp last then .ok (.directory place.dropLast)
      else if nameLimit < byteCount last then .error .refused
      else .ok (.name place last)

/-- The target of a path, whether there is anything or not. -/
def locate (path : Path.Text) (t : Tree) : Except Fault Target :=
  match t.start path with
  | .ok place => t.locateParts place (Text.parts '/' path)
  | .error e => .error e

/-! ### What stands at a path -/

/-- The text of the file at a path. -/
def read (path : Path.Text) (t : Tree) : Except Fault String :=
  match t.resolve path with
  | .error e => .error e
  | .ok place =>
    match t.node? place with
    | some (.file contents) => .ok contents
    | _ => .error .refused

/-- Whether there is anything at a path. -/
def holds (path : Path.Text) (t : Tree) : Bool := (t.resolve path).isOk

/-- Whether there is a directory at a path. -/
def holdsDirectory (path : Path.Text) (t : Tree) : Bool :=
  match t.resolve path with
  | .ok place => t.isDirectory place
  | .error _ => false

/-! ### Changes -/

/-- A new directory at a path. Slashes at the end of the path do not count. -/
def makeDirectory (path : Path.Text) (t : Tree) : Except Fault Tree :=
  match t.start path with
  | .error e => .error e
  | .ok place =>
    let ps := ((Text.parts '/' path).reverse.dropWhile (· = [])).reverse
    match t.locateParts place ps with
    | .error e => .error e
    | .ok (.directory _) => .error .refused
    | .ok (.name directory name) =>
      let place := directory ++ [name]
      if (t.node? place).isSome then .error .refused else .ok (t.put place .directory)

/-- Makes the directory at the first of some paths, and those at the others before where it needs them.
Tells whether the directory is there in the end; what was made stays. -/
def makeEach : List Path.Text → Tree → Bool × Tree
  | [], t => (true, t)
  | path :: above, t =>
    match t.makeDirectory path with
    | .ok t => (true, t)
    | .error .refused => (t.holdsDirectory path, t)
    | .error .missing =>
      let (ready, t) := makeEach above t
      if !ready then (false, t)
      else
        match t.makeDirectory path with
        | .ok t => (true, t)
        | .error _ => (t.holdsDirectory path, t)

/-- Makes the directory at a path with all those that lead to it. -/
def makeDirectories (path : Path.Text) (t : Tree) : Bool × Tree := makeEach (Path.ancestors path) t

/-- Writes a text to the file at a path, which is made if it is missing. -/
def write (path : Path.Text) (contents : String) (t : Tree) : Except Fault Tree :=
  match t.locate path with
  | .error e => .error e
  | .ok (.directory _) => .error .refused
  | .ok (.name directory name) =>
    let place := directory ++ [name]
    if t.isDirectory place then .error .refused else .ok (t.put place (.file contents))

/-- Takes the file at a path away. -/
def remove (path : Path.Text) (t : Tree) : Except Fault Tree :=
  match t.resolve path with
  | .error e => .error e
  | .ok place => if t.isDirectory place then .error .refused else .ok (t.drop place)

/-- Gives the file at one path the place of another one. A directory gives way to no file. -/
def rename (source target : Path.Text) (t : Tree) : Except Fault Tree :=
  match t.resolve source, t.locate target with
  | .ok place, .ok (.name directory name) =>
    let goal := directory ++ [name]
    match t.node? place with
    | some (.file contents) =>
      if t.isDirectory goal then .error .refused
      else if place = goal then .ok t
      else .ok ((t.drop place).put goal (.file contents))
    | _ => .error .refused
  | .error e, _ => .error e
  | _, .error e => .error e
  | .ok _, .ok (.directory _) => .error .refused

end Tree

end HostControl
