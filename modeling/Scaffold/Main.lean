import Scaffold.CommandLine.Basic

/-! The program: carries out scripts on real files, and shows what came of the command line. -/

namespace Scaffold.Main

/-- The name of a path for the operating system; none has a zero in it. -/
def osPath (p : Path) : IO String :=
  if p.text.contains '\x00' then throw (IO.userError "zero in a path")
  else return String.ofList p.text

/-- Whether an action succeeds. -/
def succeeds (action : IO Unit) : IO Bool :=
  try action; return true catch _ => return false

/-- The result of an action, if it succeeds. -/
def attempt {α : Type} (action : IO α) : IO (Option α) :=
  try return some (← action) catch _ => return none

/-- Write a file under a new name in a directory. -/
def writeNew (folder : Path) (content : ByteArray) : IO String := do
  let n ← IO.rand 0 999999999
  let name ← osPath (folder.join ⟨".tmp" ++ Text.ofNat n⟩)
  let handle ← IO.FS.Handle.mk name .writeNew
  handle.write content
  handle.flush
  return name

/-- Carry out an operation. Temporary files are known by their names. -/
def perform : (c : Call String) → IO c.Answer
  | .kind p => attempt do
    return if ← (← IO.FS.realPath (← osPath p)).isDir then Kind.dir else Kind.file
  | .read p =>
    try return .ok (← IO.FS.readBinFile (← osPath p))
    catch
      | .noFileOrDirectory _ _ _ => return .error .missing
      | _ => return .error .badName
  | .makeDir p => succeeds do IO.FS.createDir (← osPath p)
  | .removeDir p => succeeds do IO.FS.removeDir (← osPath p)
  | .write p content => succeeds do IO.FS.writeBinFile (← osPath p) content
  | .removeFile p => succeeds do IO.FS.removeFile (← osPath p)
  | .stage folder content => attempt (writeNew folder content)
  | .unstage name => do
    let _ ← succeeds (IO.FS.removeFile name)
  | .persist name p => succeeds do IO.FS.rename name (← osPath p)

/-- Carry out a script. -/
def carryOut {α : Type} : Script String α → IO α
  | .done a => return a
  | .call c next => do carryOut (next (← perform c))

/-- How the program is called. -/
def usage : String :=
  "Usage: vaporize [OPTIONS] model <NAME> <FIELD>... [--dry-run] [--force]\n" ++
  "       vaporize [OPTIONS] controller <NAME> [--kind <KIND>] [--dry-run]\n" ++
  "       vaporize [OPTIONS] view <NAME> <TITLE> [--dry-run]\n" ++
  "Options: -v, --verbose; -p, --project <DIR>; --templates <DIR>\n"

/-- Show a result on the two output streams. -/
def present (r : CommandLine.Result) : IO Unit := do
  match r with
  | .report report =>
    IO.eprint (String.ofList report.errorOutput)
    IO.print (String.ofList report.output)
  | .failure d => IO.eprint (String.ofList d.text)
  | .usage => IO.eprint usage

end Scaffold.Main

open Scaffold in
/-- Run the command line that the program is called with. -/
def main (arguments : List String) : IO UInt32 := do
  let home ← IO.getEnv "HOME"
  let here ← IO.currentDir
  let surroundings : CommandLine.Surroundings :=
    ⟨⟨here.toString.toList⟩, home.map fun h => ⟨h.toList⟩⟩
  let result ← Main.carryOut (CommandLine.run surroundings (arguments.map String.toList))
  Main.present result
  return result.status.toUInt32
