import TileGrammar.Command.Run

/-!
# The program

Reads what the command line points to, runs the task, and prints its report.
-/

set_option autoImplicit false

namespace TileGrammar

def readFileAt (path : String) : IO FileContent := do
  let file := (← IO.currentDir) / path
  if ← file.pathExists then
    try
      let bytes ← IO.FS.readBinFile file
      match String.fromUTF8? bytes with
      | some s => return .text s
      | none => return .unreadable
    catch _ => return .unreadable
  else return .missing

def readDirectoryAt (path : String) : IO DirectoryContent := do
  let directory := (← IO.currentDir) / path
  if ← directory.pathExists then
    try
      let found ← directory.readDir
      let files ← found.toList.mapM fun e => do
        let content ← readFileAt (toString e.path)
        return (e.fileName, content)
      return .entries files
    catch _ => return .blocked
  else return .missing

def readSources (l : CommandLine) : IO Sources := do
  let config ← readFileAt l.config
  let packs ← readDirectoryAt l.packsDirectory
  let palettes ← l.palettes.mapM readFileAt
  return ⟨config, packs, palettes⟩

def saveAt (path text : String) : IO Bool := do
  try
    IO.FS.writeFile ((← IO.currentDir) / path) text
    return true
  catch _ => return false

def settle : Reply → IO Outcome
  | .done outcome => return outcome
  | .save path text saved failed => do
    if ← saveAt path text then return saved else return failed

def finish (o : Outcome) : IO UInt32 := do
  match o.report with
  | some report => IO.println report.sorted.pretty
  | none => pure ()
  return UInt32.ofNat o.code

def program (args : List String) : IO UInt32 := do
  match CommandLine.ofArguments? args with
  | some line =>
    let sources ← readSources line
    let outcome ← settle (line.task.runOn sources)
    finish outcome
  | none =>
    IO.eprintln "usage: [options] packs|expand|compile|adjacency|validate|stats|prompt [options]"
    return 2

end TileGrammar

def main (args : List String) : IO UInt32 := TileGrammar.program args
