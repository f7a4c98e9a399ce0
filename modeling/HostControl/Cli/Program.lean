/-
Module: HostControl.Cli.Program
Purpose: The program: one command of an operator, carried out on a machine. A command that changes the
  access lists leaves a lasting record, and its end tells whether it was successful.
Main exports: run
-/
import HostControl.Cli.Assembly
import HostControl.Cli.Command
import HostControl.Config.EnvFile

namespace HostControl.Cli

open Config (Environment Settings)
open Control (Caller Operation Response)

/-- What the program prints when it is asked for its version. -/
def versionText : String := "harbormaster 0.1.0\n"

/-- What the program prints when it is asked for help, line by line. -/
def helpLines : List String :=
  ["Single-host infrastructure control plane",
    "",
    "Usage: harbormaster <COMMAND>",
    "",
    "Commands:",
    "  check                          Print the health report; fails when not ready",
    "  containers                     List platform-managed containers",
    "  allow|deny list                Show the entries of an access list",
    "  allow|deny add <PATTERN>       Add an address or range",
    "    [--description <TEXT>] [--expires-at <RFC 3339 TIMESTAMP>]",
    "  allow|deny remove <PATTERN>    Remove an entry",
    "  allowed <IP>                   Ask whether an address would be admitted",
    "  cleanup                        Remove expired access entries",
    "  serve [--interval-secs <N>]    Run periodic maintenance until interrupted",
    "  help                           Print this message"]

def helpText : String := String.join (helpLines.map (· ++ "\n"))

/-- Where the settings are looked for when the environment does not say. -/
def defaultSettingsPath : String := "harbormaster.toml"

/-- Who is recorded as the operator when the environment does not say. -/
def defaultActor : String := "cli"

/-- The operation that a command stands for; some commands are more than one. -/
def Command.operation? : Command → Option Operation
  | .containers => some .platformServices
  | .list kind .view => some (.listEntries kind)
  | .list kind (.add entry) => some (.addEntry kind entry)
  | .list kind (.remove pattern) => some (.removeEntry kind pattern)
  | .allowed address => some (.isAllowed address)
  | .cleanup => some .cleanupExpired
  | .check | .serve _ => none

/-- An end with a word on what is wrong. -/
def fail (text : String) : Plan Exit := do
  Request.tell text
  return .failure

/-- Prints a response, and ends accordingly. -/
def conclude (response : Response) : Plan Exit := do
  Request.print (response.toJson.indented ++ "\n")
  return if response.success then .success else .failure

/-- Carries out one operation. -/
def runOperation (caller : Caller) (op : Operation) (a : Assembly) : Plan Exit := do
  match ← a.request caller op with
  | (.ok response, _) => conclude response
  | (.error _, _) => return .abort

/-- Prints the health report; the end tells whether the program could take requests. -/
def runCheck (a : Assembly) : Plan Exit := do
  let caller : Caller := { context := { actor := defaultActor, correlationId := ← Request.identifier } }
  match ← a.request caller .health with
  | (.error _, _) => return .abort
  | (.ok response, a) =>
    let _ ← conclude response
    let (ready, _) ← a.ready
    if ready then return .success
    else fail "primary datastore unavailable, not ready"

/-- The word on access lists that cannot be opened. -/
def accessFault (e : Access.Error) : String := "failed to open access lists: " ++ e.message

/-- The directory of the audit trail, made if it is missing. There is none if it cannot be made. -/
def openTrail (settings : Settings) : Plan (Option String) := do
  if ← Request.directory settings.logging.auditDir then return some settings.logging.auditDir
  else return none

/-- What a run of the program comes to: its end, or a control plane that goes on with a round of
maintenance every so many seconds, until the program is interrupted. -/
inductive Ending where
  | exit (exit : Exit)
  | serving (assembly : Assembly) (intervalSeconds : Nat)

/-- Carries out a command other than `serve`. The operator presents the credential of the settings. -/
def runOnce (env : Environment) (settings : Settings) (command : Command) : Plan Exit := do
  let trail ← if command.mutates then openTrail settings else pure none
  if command.mutates && trail.isNone then
    return ← fail "failed to open audit trail"
  match ← assemble env settings trail with
  | .error e => fail (accessFault e)
  | .ok a =>
    match command.operation? with
    | none => runCheck a
    | some op =>
      let context : Context :=
        { actor := (env "USER").getD defaultActor, correlationId := ← Request.identifier }
      runOperation { context, credential := some settings.server.apiKey } op a

/-- Makes ready to serve, and does the first round. -/
def runServe (env : Environment) (settings : Settings) (intervalSeconds : Nat) : Plan Ending := do
  if !(← Request.directory settings.logging.dir) then
    return .exit (← fail "failed to create logs directory")
  match ← openTrail settings with
  | none => return .exit (← fail "failed to open audit trail")
  | some trail =>
    match ← assemble env settings (some trail) with
    | .error e => return .exit (← fail (accessFault e))
    | .ok a =>
      Request.tell "harbormaster serving"
      let a ← Assembly.maintain { a with session := a.session.serve }
      return .serving a (max intervalSeconds 1)

/-- Carries out what arguments ask for. They are read before the settings. -/
def runIn (env : Environment) (arguments : List String) : Plan Ending := do
  match Command.read arguments with
  | .error .help =>
    Request.print helpText
    return .exit .success
  | .error .version =>
    Request.print versionText
    return .exit .success
  | .error .misuse =>
    Request.tell helpText
    return .exit .misuse
  | .ok command =>
    let source ← Request.look ((env "HARBOR_CONFIG_PATH").getD defaultSettingsPath)
    match Config.load source env with
    | .error e => return .exit (← fail ("failed to load configuration: " ++ e.message))
    | .ok settings =>
      match command with
      | .serve seconds => runServe env settings seconds
      | command => return .exit (← runOnce env settings command)

/-- The environment with what a file adds to it, if there is such a file. -/
def environment : Plan (Option Environment) := do
  let env ← Request.environment
  match ← Request.environmentFile with
  | some contents => return Config.EnvFile.extend? contents env
  | none => return some env

/-- Runs the program with the given arguments. There has to be an environment before anything is done. -/
def run (arguments : List String) : Plan Ending := do
  match ← environment with
  | some env => runIn env arguments
  | none =>
    Request.tell "the environment cannot hold a value of its file"
    return .exit .abort

end HostControl.Cli
