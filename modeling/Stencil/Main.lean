import Stencil.Command.Run

/-!
The program. It takes a picture of the directories that its task leads to, runs on that picture, and
prints what the run puts out. Links are not followed.
-/

namespace Stencil.Command

open Disk

/-- The disk with a file as it is now. All files of a picture are of one time. -/
def pictureFile (disk : Disk) (location : Location) : IO Disk := do
  let bytes ← IO.FS.readBinFile location.path
  return disk.write location ⟨String.fromUTF8? bytes, 0⟩

/-- The disk with all that is below a directory. -/
partial def pictureDirectory (disk : Disk) (location : Location) : IO Disk := do
  let mut disk := disk.createDirectory location
  for entry in ← (← IO.FS.realPath location.path).readDir do
    let inner := location ++ [entry.fileName]
    try
      if (← IO.FS.realPath entry.path).toString == inner.path then
        match (← entry.path.metadata).type with
        | .dir => disk ← pictureDirectory disk inner
        | .file => disk ← pictureFile disk inner
        | _ => pure ()
    catch _ => pure ()
  return disk

/-- The disk with the directories at paths; paths that lead nowhere add nothing. -/
def pictureDirectories (disk : Disk) (paths : List String) : IO Disk := do
  let mut disk := disk
  for path in paths do
    try disk ← pictureDirectory disk (names (← IO.FS.realPath path).toString)
    catch _ => pure ()
  return disk

/-- The part of the disk that a request leads to. -/
def picture (request : Request) : IO Disk := do
  let workingDirectory := names (← IO.currentDir).toString
  let disk := { ({} : Disk).createDirectory workingDirectory with workingDirectory }
  match request with
  | .work (some task) _ => do
      let disk ← pictureDirectories disk task.directories
      pictureDirectories disk (task.places disk)
  | _ => return disk

end Stencil.Command

open Stencil.Command in
/-- Runs the program with its arguments. -/
def main (arguments : List String) : IO UInt32 := do
  let request := Request.ofArguments arguments
  let colour := (← IO.getEnv "NO_COLOR").isNone
  let ending := request.ending (← picture request) colour
  IO.print ending.output
  IO.eprint ending.complaint
  return ending.exitCode.toUInt32
