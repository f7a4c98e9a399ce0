/-
Module: HostControl.Cli.Memory
Purpose: A machine that exists in memory only: a tree of files, a clock that stands still, and no
  service that can be reached. The program runs on it as on any other, and everything it did can be
  looked at.
Main exports: Memory, Memory.answer, Memory.run, Memory.keptIn
-/
import HostControl.Access.Storage
import HostControl.Cli.Program

namespace HostControl.Cli

/-! ### The machine -/

/-- A machine in memory, and what the program did on it. -/
structure Memory where
  environment : List (String × String) := []
  tree : Tree := {}
  clock : Clock
  /-- The identifier that every request gets. -/
  identifier : String
  printed : String := ""
  told : List String := []
  /-- The records kept, each with the place of its directory. -/
  kept : List (Steps × Audit.Record) := []

namespace Memory

/-- What stands at a path. -/
def look (path : String) (t : Tree) : Config.Source :=
  match t.read path.toList with
  | .ok contents => .text contents
  | .error .missing => .missing
  | .error .refused => .unreadable

/-- The text of the file `.env` in the directory of use, or in the nearest directory above that has one.
-/
def environmentFile (t : Tree) : Option String :=
  (List.range (t.current.length + 1)).findSome? fun above =>
    match t.node? (t.current.take (t.current.length - above) ++ [".env".toList]) with
    | some (.file contents) => some contents
    | _ => none

/-- The place of a directory; an empty path is the directory of use. -/
def placeOf (directory : String) (t : Tree) : Option Steps :=
  if directory.isEmpty then some t.current else (t.resolve directory.toList).toOption

/-- The fault of a step at a path. -/
def fault (step : Access.WriteStep) (path : Path.Text) : Access.WriteFault :=
  { step, detail := " " ++ String.ofList path ++ ": refused" }

/-- The answer of a machine in memory to a request. No service is reached on it. -/
def answer {β : Type} : Request β → StateM Memory β
  | .environment => do
    let s ← get
    return fun name => (s.environment.find? (·.1 == name)).map (·.2)
  | .environmentFile => do return environmentFile (← get).tree
  | .clock => do return (← get).clock
  | .identifier => do return (← get).identifier
  | .look path => do return look path (← get).tree
  | .present path => do return (← get).tree.holds path.toList
  | .directory path => do
    let s ← get
    let (ready, tree) := s.tree.makeDirectories path.toList
    set { s with tree }
    return ready
  | .replace path contents => do
    let s ← get
    let (failed, tree) := Access.putInPlace path.toList contents s.tree
    set { s with tree }
    return failed.map fun (step, path) => fault step path
  | .keep directory record => modify fun s =>
    { s with kept := s.kept ++ ((placeOf directory s.tree).map (·, record)).toList }
  | .print text => modify fun s => { s with printed := s.printed ++ text }
  | .tell text => modify fun s => { s with told := s.told ++ [text] }
  | .cache .. => return none
  | .primary _ => return Health.unreachable
  | .engine _ => return Workload.Engine.unreachable

/-- How the program ends on a machine in memory, and the machine after it. A program that serves is
interrupted after its first round. -/
def run (arguments : List String) (machine : Memory) : Exit × Memory :=
  match ((Cli.run arguments).answeredBy answer).run machine with
  | (.exit e, machine) => (e, machine)
  | (.serving .., machine) => (.success, machine)

/-- The records kept in a directory. -/
def keptIn (directory : String) (machine : Memory) : List Audit.Record :=
  machine.kept.filterMap fun (place, record) =>
    if placeOf directory machine.tree = some place then some record else none

end Memory

end HostControl.Cli
