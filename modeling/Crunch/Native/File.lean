import Crunch.Count
import Crunch.Native

/-!
# Crunch.Native.File

The native type `file`: files that are read line by line or written through a buffer.
-/

namespace Crunch
namespace OpenFile

/-- The constructor `file(path, mode)` and the methods. -/
def interface : Interface where
  name := "file"
  constructors := [[⟨"path", Ty.literal, .input⟩, ⟨"mode", Ty.literal, .input⟩]]
  methods := [
    ⟨"readln", Ty.boolean, [⟨"line", Ty.literal, .inOut⟩]⟩,
    ⟨"write", Ty.integer, [⟨"text", Ty.literal, .input⟩]⟩,
    ⟨"flush", Ty.boolean, []⟩,
    ⟨"close", Ty.boolean, []⟩,
    ⟨"isopen", Ty.boolean, []⟩]

/-- The error for an operation on a file that fails. -/
def failure (path : String) (e : OsError) : Fault.Cause := interface.refuse s!"{path}: {e.text}"

/-- The mode by its letter. -/
def mode? (letter : String) : Except Fault.Cause Mode :=
  match letter with
  | "r" => .ok .read
  | "w" => .ok .write
  | "a" => .ok .append
  | other => .error (interface.refuse s!"unknown mode {Text.quoted other}")

/-- Opens the file that the arguments name. -/
def construct (args : List Value) (d : Disk) : Except Fault.Cause (Instance × Disk) :=
  match args with
  | [path, letter] => do
    let path ← path.literal?
    let mode ← mode? (← letter.literal?)
    match OpenFile.open? path mode d with
    | .ok (f, d) => return (.file f, d)
    | .error e => .error (failure path e)
  | _ => .error (.argumentCount interface.name)

/-- The result of a step that leaves the file and the disk changed, or its failure. -/
def finish (path : String) : Except OsError (Bool × OpenFile × Disk) → Action
  | .error e => .fail (failure path e)
  | .ok (b, f, d) => .keep (.file f) (.write d (.done (.boolean b)))

/-- Reads a line into a variable. The result is false at the end of the file. -/
def readLine (f : OpenFile) (into : Argument) : Action :=
  match f.handle with
  | some (.reader r) => .look fun d =>
    let (outcome, r) := r.line d
    .keep (.file { f with handle := some (.reader r) })
      (match outcome with
      | .error e => .fail (failure f.path e)
      | .ok none => .done (.boolean false)
      | .ok (some s) => .store into (.literal s) fun stored =>
        Action.ofExcept (stored.map fun _ => .boolean true))
  | _ => .fail (interface.refuse s!"{f.path} is not open for reading")

/-- Writes a text. The result is the number of its bytes. -/
def writeText (f : OpenFile) (s : String) : Action :=
  match f.handle with
  | some (.writer w) => .look fun d =>
    let (problem, w, d) := w.write (Utf8.encode s) d
    .keep (.file { f with handle := some (.writer w) }) (.write d
      (match problem with
      | some e => .fail (failure f.path e)
      | none => .done (.integer (lengthOf s.utf8ByteSize))))
  | _ => .fail (interface.refuse s!"{f.path} is not open for writing")

/-- A method by its number. -/
def invoke (f : OpenFile) (method : Nat) (args : List Argument) : Action :=
  match method, args with
  | 0, [a] => f.readLine a
  | 1, [a] =>
    match a.value.literal? with
    | .error c => .fail c
    | .ok s => f.writeText s
  | 2, [] => .look fun d => finish f.path (f.flush d)
  | 3, [] => .look fun d => finish f.path (f.close d)
  | 4, [] => .done (.boolean f.handle.isSome)
  | n, _ => .fail (interface.noMethod n)

/-- The type `file`. -/
def nativeType : NativeType where
  interface := interface
  construct _ args disk := construct args disk
  invoke
    | .file f, method, args => f.invoke method args
    | _, _, _ => .fail interface.foreign
  destroy
    | .file f, disk => f.abandon disk
    | _, disk => disk

end OpenFile
end Crunch
