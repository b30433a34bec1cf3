import FlowEngine.Cli.Session
import Std.Time.DateTime.Timestamp

/-!
# The program

Looks up what surrounds the program, lets the command do what it does, and prints what comes of it.
-/

namespace FlowEngine

/-- The moment that a number of nanoseconds after the start of 1970 is. -/
def Timestamp.ofNanos (nanos : Int) : Timestamp :=
  let seconds := nanos / 1000000000
  ⟨seconds / 86400, (seconds % 86400).toNat, (nanos % 1000000000).toNat⟩

namespace Program

/-- Identities that start at a random number, and the current time. -/
def supply : IO Supply := do
  let seed ← IO.getRandomBytes 15
  let now ← Std.Time.Timestamp.now
  return ⟨seed.toList.foldl (fun n b => 256 * n + b.toNat) 0,
    .ofNanos now.toNanosecondsSinceUnixEpoch.val⟩

/-- Why a file cannot be read or written. -/
def reason : IO.Error → String
  | .noFileOrDirectory .. => "No such file or directory (os error 2)"
  | .permissionDenied .. => "Permission denied (os error 13)"
  | .inappropriateType .. => "Is a directory (os error 21)"
  | e => toString e

/-- The outcome of an action on a file. -/
def attempt {α : Type} (action : IO α) : IO (Except String α) := do
  match ← action.toBaseIO with
  | .ok a => return .ok a
  | .error e => return .error (reason e)

/-- Looks up what surrounds the program, as far as arguments need it. -/
def surroundings (words : List String) : IO Surroundings := do
  let values ← PlatformSettings.variableNames.filterMapM fun name => do
    return (← IO.getEnv name).map fun value => (name, value)
  let file := (Command.read words).toOption.bind Command.inputFile?
  let content ← attempt (file.elim (pure .empty) fun file => IO.FS.readBinFile file)
  return {
    environment := fun name => List.lookup name values
    content := fun _ => content
    writable := fun _ => .ok ()
    supply := ← supply }

/-- Writes the file of a transcript. -/
def write (t : Transcript) : IO Transcript := do
  match t.written with
  | none => return t
  | some (file, content) =>
    match ← attempt (IO.FS.writeFile file content) with
    | .ok () => return t
    | .error reason => return .fail reason

/-- Prints lines. -/
def print (stream : IO.FS.Stream) (lines : List String) : IO Unit := do
  for line in lines do
    stream.putStrLn line

end Program

end FlowEngine

open FlowEngine

/-- The program. -/
def main (words : List String) : IO UInt32 := do
  let surroundings ← Program.surroundings words
  let began ← IO.monoNanosNow
  let transcript ← IO.lazyPure fun () => perform surroundings words
  let ended ← IO.monoNanosNow
  let transcript ← Program.write transcript
  Program.print (← IO.getStdout) (transcript.lines.map (Line.render ⟨ended - began⟩))
  Program.print (← IO.getStderr) transcript.errorLines
  return transcript.exitCode.toUInt32
