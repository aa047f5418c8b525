import SkillBoard.Cohort.Export
import SkillBoard.Screen
import SkillBoard.Startup

/-!
# Command line

Without arguments the board is shown in words, panel by panel, as the environment sets it up. With the
argument `generate` a cohort is drawn and its files are written to the current directory.
-/

open SkillBoard

/-- What a path leads to. -/
def contentAt (path : Path) : IO Content := do
  match Text.Utf8.decode? path.octets with
  | none => return .unopened "the path is not a text"
  | some name =>
    try return .octets (← IO.FS.readBinFile name).toList
    catch e => return .unopened (toString e)

/-- Shows the board that the environment asks for. -/
def showBoard : IO Unit := do
  let data ← IO.getEnv dataVariable
  let config := Config.ofValues (data.map Path.ofString) (← IO.getEnv sortVariable)
  let content ← match config.dataPath with
    | some path => contentAt path
    | none => pure (.unopened "no path")
  for panel in Screen.panels (config.start .plain fun _ => content) config.title do
    for line in panel do
      IO.println line
    IO.println ""

/-- Writes the files of a run of the generator, those of octets, and reports the run. -/
def generate : IO Unit := do
  let students := Export.cohort Analysis.standard Export.seed
  for (name, content) in Export.files (fun _ => []) students do
    match content with
    | .octets bytes => IO.FS.writeBinFile name (ByteArray.mk bytes.toArray)
    | _ => IO.eprintln (name ++ ": not written, columns are not encoded")
  IO.print (Export.report students)

/-- Shows the board or runs the generator; other arguments are refused. -/
def main (args : List String) : IO UInt32 := do
  match args with
  | [] => showBoard; return 0
  | ["generate"] => generate; return 0
  | _ => IO.eprintln "usage: skillboard [generate]"; return 1
