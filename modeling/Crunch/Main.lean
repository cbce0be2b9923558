import Crunch.Cli
import Crunch.Pattern.Bundled

/-!
# Crunch.Main

The command: arguments, input and files go in, and output, exit status and files come out.
-/

namespace Crunch
namespace Main

/-- Passes that a loop may make: more than any run lives to see. -/
def passes : Nat := Nat.pow 2 62

/-- All bytes of a stream. -/
partial def readAll (stream : IO.FS.Stream) (sofar : ByteArray) : IO ByteArray := do
  let bytes ← stream.read 65536
  if bytes.isEmpty then return sofar else readAll stream (sofar ++ bytes)

/-- The files below the working directory, by their paths. -/
partial def readTree (path : Path) (d : Disk) : IO Disk := do
  let here := path.foldl (· / ·) (← IO.currentDir)
  (← here.readDir).foldlM (fun d entry => do
      let place := d.working ++ path ++ [entry.fileName]
      if ← entry.path.isDir then readTree (path ++ [entry.fileName]) (d.put place .directory)
      else
        try
          let bytes ← IO.FS.readBinFile entry.path
          return d.put place (.file bytes.toList)
        catch _ => return d) d

/-- A file as the system has it, put on the disk. -/
def readFile (path : String) (d : Disk) : IO Disk := do
  try
    let bytes ← IO.FS.readBinFile path
    return d.plant path bytes.toList
  catch _ => return d

/-- Writes the files that a run has changed. -/
def writeTree (before after : Disk) : IO Unit := do
  for (path, n) in after.nodes do
    match n with
    | .file bytes =>
      if before.node? path != some n then
        let place := (path.drop after.working.length).foldl (· / ·) (← IO.currentDir)
        IO.FS.writeBinFile place (ByteArray.mk bytes.toArray)
    | _ => pure ()

/-- Whether a text mentions a name. -/
def mentions (text name : String) : Bool := (text.splitOn name).length > 1

/-- The files and the input that a script may need. -/
def world (o : Cli.Options) : IO (Disk × List UInt8) := do
  let start ← if o.file then readFile o.contents Disk.blank else pure Disk.blank
  let source := (Cli.script o start).toOption.getD ""
  let d ← if mentions source OpenFile.interface.name then readTree [] start else pure start
  if mentions source Builtin.input.name then
    let bytes ← readAll (← IO.getStdin) .empty
    return (d, bytes.toList)
  else return (d, [])

end Main
end Crunch

open Crunch in
def main (args : List String) : IO UInt32 := do
  let (before, input) ←
    match Cli.parse? args with
    | some (.script o) => Main.world o
    | _ => pure (Disk.blank, [])
  let entropy := UInt64.ofNat (← IO.monoNanosNow)
  let o := Cli.run .bundled Main.passes args entropy input before
  Main.writeTree before o.disk
  (← IO.getStdout).putStr o.output
  (← IO.getStderr).putStr o.errors
  return UInt32.ofNat o.status
