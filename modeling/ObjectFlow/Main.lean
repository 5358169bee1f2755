import ObjectFlow.CommandLine.Basic
import ObjectFlow.CommandLine.Settings
import ObjectFlow.Text.Utf8

/-!
# The command line program

Reads the stored settings and the file that the arguments name, runs the tool
and prints what it answers.  Changed settings are stored for later runs.
-/

namespace ObjectFlow.CommandLine

def settingsFile : String := "object-flow.settings"

def readBytes? (file : String) : IO (Option (List UInt8)) := do
  try
    let content ← IO.FS.readBinFile file
    pure (some content.toList)
  catch _ =>
    pure none

def storedSettings : IO Config := do
  let stored := (← readBytes? settingsFile).bind fun bytes =>
    settings? (String.ofList (Text.decodeUtf8 bytes))
  pure (stored.getD .default)

def runProgram (arguments : List String) : IO UInt32 := do
  let stored ← storedSettings
  let content ← match inputFile? arguments with
    | some file => readBytes? file
    | none => pure none
  let (outcome, config) := run (fun _ => content) stored arguments
  if config ≠ stored then
    IO.FS.writeFile settingsFile (settingsText config)
  match outcome with
  | .printed lines => lines.forM IO.println
  | .reported report => report.lines.forM IO.println
  | .failed reason => IO.eprintln s!"Error: {reason}"
  | .misused => Topic.tool.page.lines.forM IO.eprintln
  pure outcome.exitCode.toUInt32

end ObjectFlow.CommandLine

def main (arguments : List String) : IO UInt32 :=
  ObjectFlow.CommandLine.runProgram arguments
