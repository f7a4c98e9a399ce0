/-
Module: HostControl.Cli.Command
Purpose: The commands of the program and how they are read from its arguments. Arguments are taken from
  left to right, and the first thing that ends the reading decides: a request for help, a request for
  the version, or a mistake.
Main exports: Command, ListAction, Halt, Command.read, Command.mutates
-/
import HostControl.Control.Operation
import HostControl.Word

namespace HostControl.Cli

open Access (ListKind)
open Control (NewEntry)

/-- What is done to an access list. -/
inductive ListAction where
  | view
  | add (entry : NewEntry)
  | remove (pattern : String)
deriving DecidableEq, Repr

/-- A command of the program. -/
inductive Command where
  | check
  | containers
  | list (kind : ListKind) (action : ListAction)
  | allowed (address : String)
  | cleanup
  | serve (intervalSeconds : Nat)
deriving DecidableEq, Repr

/-- Why arguments give no command. -/
inductive Halt where
  | help
  | version
  | misuse
deriving DecidableEq, Repr

/-- Whether a command can change the access lists. What changes them leaves a lasting record. -/
def Command.mutates : Command → Bool
  | .list _ .view => false
  | .list .. | .cleanup => true
  | .check | .containers | .allowed _ | .serve _ => false

/-! ### Arguments -/

/-- The form of one argument. -/
inductive Argument where
  | text (text : String)
  /-- A name behind two dashes, with the value that an equals sign ties to it. -/
  | long (name : String) (value : Option String)
  /-- Letters behind one dash, of which the first one decides. -/
  | short (letter : Char)
  /-- Two dashes alone: everything that follows is text. -/
  | divider
deriving DecidableEq, Repr

def Argument.of (argument : String) : Argument :=
  match argument.toList with
  | ['-', '-'] => .divider
  | '-' :: '-' :: rest =>
    .long (String.ofList (rest.takeWhile (· != '='))) (match rest.dropWhile (· != '=') with
      | _ :: value => some (String.ofList value)
      | [] => none)
  | '-' :: letter :: _ => .short letter
  | _ => .text argument

/-- What a command takes: a number of texts, and options with the values that each accepts. -/
structure Shape where
  texts : Nat := 0
  options : List (String × (String → Bool)) := []

/-- What a command was given. -/
structure Given where
  texts : List String := []
  options : List (String × String) := []
deriving DecidableEq, Repr

namespace Given

def option? (name : String) (g : Given) : Option String :=
  (g.options.find? (·.1 == name)).map (·.2)

end Given

namespace Shape

/-- Takes one more text, if there is room for it. -/
def takeText (text : String) (g : Given) (s : Shape) : Except Halt Given :=
  if g.texts.length < s.texts then .ok { g with texts := g.texts ++ [text] } else .error .misuse

/-- Takes an option with its value: a known one, given once, whose value is accepted. -/
def takeOption (name value : String) (g : Given) (s : Shape) : Except Halt Given :=
  match s.options.find? (·.1 == name) with
  | some (_, accepts) =>
    if accepts value && (g.option? name).isNone then
      .ok { g with options := g.options ++ [(name, value)] }
    else .error .misuse
  | none => .error .misuse

/-- Takes everything as text. -/
def takeTexts (s : Shape) : Given → List String → Except Halt Given
  | g, [] => .ok g
  | g, text :: rest =>
    match s.takeText text g with
    | .ok g => takeTexts s g rest
    | .error e => .error e

/-- Takes arguments from left to right. The value of an option may be the next argument, unless that
has the form of an option. -/
def take (s : Shape) : Given → List String → Except Halt Given
  | g, [] => .ok g
  | g, argument :: rest =>
    match Argument.of argument with
    | .divider => takeTexts s g rest
    | .short 'h' => .error .help
    | .short _ => .error .misuse
    | .long "help" none => .error .help
    | .long name (some value) =>
      match s.takeOption name value g with
      | .ok g => take s g rest
      | .error e => .error e
    | .long name none =>
      match rest with
      | [] => .error .misuse
      | value :: rest =>
        match Argument.of value with
        | .text _ =>
          match s.takeOption name value g with
          | .ok g => take s g rest
          | .error e => .error e
        | _ => .error .misuse
    | .text text =>
      match s.takeText text g with
      | .ok g => take s g rest
      | .error e => .error e

/-- What all arguments of a command give, if none of its texts is missing. -/
def read (s : Shape) (arguments : List String) : Except Halt Given :=
  match s.take {} arguments with
  | .ok g => if g.texts.length = s.texts then .ok g else .error .misuse
  | .error e => .error e

end Shape

/-! ### Commands -/

/-- Whether help can be asked for a sequence of command names. -/
def hasHelp : List String → Bool
  | [] => true
  | [name] =>
    ["check", "containers", "allow", "deny", "allowed", "cleanup", "serve", "help"].contains name
  | [group, name] =>
    ["allow", "deny"].contains group && ["list", "add", "remove", "help"].contains name
  | _ => false

/-- Help is given for the names in its arguments, counted from a group of commands on. -/
def readHelp (group names : List String) : Halt :=
  if hasHelp (group ++ names) then .help else .misuse

/-- A number of seconds of 64 bits. -/
def interval? (text : String) : Option Nat := Text.readBounded? Word.max64 text.toList

/-- The seconds between rounds of maintenance when nothing is said. -/
def defaultInterval : Nat := 60

/-- What a new entry takes. -/
def entryShape : Shape where
  texts := 1
  options := [("description", fun _ => true), ("expires-at", fun t => (Rfc3339.read? t).isSome)]

def newEntry (g : Given) : NewEntry where
  pattern := g.texts.headD ""
  description := (g.option? "description").getD ""
  expiresAt := (g.option? "expires-at").bind Rfc3339.read?

/-- The arguments behind the name of an access list. -/
def ListAction.read (group : String) : List String → Except Halt ListAction
  | [] => .error .misuse
  | "list" :: rest => do
    let _ ← Shape.read {} rest
    return .view
  | "add" :: rest => do
    let g ← entryShape.read rest
    return .add (newEntry g)
  | "remove" :: rest => do
    let g ← Shape.read { texts := 1 } rest
    return .remove (g.texts.headD "")
  | "help" :: names => .error (readHelp [group] names)
  | argument :: _ =>
    match Argument.of argument with
    | .short 'h' | .long "help" none => .error .help
    | _ => .error .misuse

/-- The command that the arguments of the program give. -/
def Command.read : List String → Except Halt Command
  | [] => .error .misuse
  | "check" :: rest => do
    let _ ← Shape.read {} rest
    return .check
  | "containers" :: rest => do
    let _ ← Shape.read {} rest
    return .containers
  | "allow" :: rest => do
    return .list .allow (← ListAction.read "allow" rest)
  | "deny" :: rest => do
    return .list .deny (← ListAction.read "deny" rest)
  | "allowed" :: rest => do
    let g ← Shape.read { texts := 1 } rest
    return .allowed (g.texts.headD "")
  | "cleanup" :: rest => do
    let _ ← Shape.read {} rest
    return .cleanup
  | "serve" :: rest => do
    let g ← Shape.read { options := [("interval-secs", fun t => (interval? t).isSome)] } rest
    return .serve (((g.option? "interval-secs").bind interval?).getD defaultInterval)
  | "help" :: names => .error (readHelp [] names)
  | argument :: _ =>
    match Argument.of argument with
    | .short 'h' | .long "help" none => .error .help
    | .short 'V' | .long "version" none => .error .version
    | _ => .error .misuse

end HostControl.Cli
