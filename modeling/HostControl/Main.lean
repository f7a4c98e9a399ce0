/-
Module: HostControl.Main
Purpose: The command line. The requests of the program are answered by the machine that it runs on.
  Services outside are never reached: the program works as it does when they are down.
Main exports: main
-/
import HostControl.Access.Storage
import HostControl.Audit.Trail
import HostControl.Cli.Program
import HostControl.Text.Identifier
import Std.Async.Signal
import Std.Async.System
import Std.Time.DateTime.Timestamp

namespace HostControl.Cli.Machine

/-- When the program was started: by the time of day, and by the machine's own count. -/
structure Start where
  time : Instant
  count : Nat

def Start.now : IO Start := do
  let time ← Std.Time.Timestamp.now
  return ⟨.ofNanos time.toNanosecondsSinceUnixEpoch.val, ← IO.monoNanosNow⟩

/-- What stands at a path. -/
def look (path : String) : IO Config.Source := do
  try
    return .text (← IO.FS.readFile path)
  catch
    | .noFileOrDirectory .. => return .missing
    | _ => return .unreadable

/-- The text of the file `.env` in the working directory, or in the nearest directory above it that has
one. -/
def environmentFile : IO (Option String) := do
  let depth := (Path.ancestors (← IO.currentDir).toString.toList).length
  for n in List.range (depth + 1) do
    if let .text contents ← look (String.join (List.replicate n "../") ++ ".env") then
      return some contents
  return none

def succeeds (act : IO Unit) : IO Bool := do
  try
    act
    return true
  catch _ => return false

/-- The fault of a step at a path, if it fails. -/
def attempt (step : Access.WriteStep) (path : String) (act : IO Unit) :
    IO (Option Access.WriteFault) := do
  try
    act
    return none
  catch e => return some { step, detail := " " ++ path ++ ": " ++ toString e }

/-- Puts a text in the place of a file, by way of a draft. -/
def replace (path contents : String) : IO (Option Access.WriteFault) := do
  let up := String.ofList ((Path.parent? path.toList).getD [])
  let draft := String.ofList (Access.draftPath path.toList)
  if !up.isEmpty then
    if let some fault ← attempt .createDirectory up (IO.FS.createDirAll up) then return some fault
  if let some fault ← attempt .writeDraft draft (IO.FS.writeFile draft contents) then
    return some fault
  match ← attempt .replace path (IO.FS.rename draft path) with
  | none => return none
  | some fault =>
    let _ ← succeeds (IO.FS.removeFile draft)
    return some fault

/-- Adds a record to the file of its day. A file that cannot be written keeps nothing from being done.
-/
def keep (directory : String) (record : Audit.Record) : IO Unit := do
  let path := directory ++ "/" ++ Audit.Trail.dayFile record.timestamp
  let _ ← succeeds do
    let file ← IO.FS.Handle.mk path .append
    file.putStrLn record.line

/-- The answer of the machine to a request. -/
def answer (start : Start) {β : Type} : Request β → IO β
  | .environment => return (← Std.Async.System.getEnv).get?
  | .environmentFile => environmentFile
  | .clock => return { origin := start.time, elapsed := (← IO.monoNanosNow) - start.count }
  | .identifier => do
    let bytes ← IO.getRandomBytes 16
    return Text.Identifier.ofBytes (bytes.toList.map (·.toNat))
  | .look path => look path
  | .present path => succeeds do
    let _ ← IO.FS.realPath path
  | .directory path => if path.isEmpty then return true else succeeds (IO.FS.createDirAll path)
  | .replace path contents => replace path contents
  | .keep directory record => keep directory record
  | .print text => IO.print text
  | .tell text => IO.eprintln text
  | .cache .. => return none
  | .primary _ => return Health.unreachable
  | .engine _ => return Workload.Engine.unreachable

/-- Waits some tenths of a second, and tells whether the program was interrupted meanwhile. -/
def pause (interrupt : Std.Async.AsyncTask Int) : Nat → IO Bool
  | 0 => IO.hasFinished interrupt
  | tenths + 1 => do
    if ← IO.hasFinished interrupt then return true
    IO.sleep 100
    pause interrupt tenths

/-- Does a round every so many seconds until the program is interrupted. -/
partial def serve (start : Start) (interrupt : Std.Async.AsyncTask Int) (seconds : Nat)
    (a : Assembly) : IO Unit := do
  if ← pause interrupt (10 * seconds) then return
  serve start interrupt seconds (← a.maintain.answeredBy (answer start))

end HostControl.Cli.Machine

open HostControl.Cli in
/-- Runs the program on this machine. -/
def main (arguments : List String) : IO UInt32 := do
  let start ← Machine.Start.now
  match ← (run arguments).answeredBy (Machine.answer start) with
  | .exit ending => return ending.code.toUInt32
  | .serving assembly seconds =>
    let interrupt ← (← Std.Async.Signal.Waiter.mk .sigint false).wait
    Machine.serve start interrupt seconds assembly
    return Exit.success.code.toUInt32
