import Crunch.Text.Utf8

/-!
# Crunch.Disk

The files that a script can reach.

* `Disk`: what stands at which path, and the working directory that relative paths start from.
* `Disk.locate`: where a path leads.
* `Disk.open?`: opens a path for reading, or for writing with or without what it held.
* `Disk.content`, `Disk.write`: the bytes of a file.
-/

namespace Crunch

/-- Why a file operation fails. -/
inductive OsError where
  | notFound | notDirectory | isDirectory | noSpace | nameTooLong
  /-- A path with a zero character. -/
  | zeroInName
  /-- Bytes that spell no text. -/
  | notText
deriving DecidableEq, Repr

def OsError.text : OsError → String
  | .notFound => "No such file or directory (os error 2)"
  | .notDirectory => "Not a directory (os error 20)"
  | .isDirectory => "Is a directory (os error 21)"
  | .noSpace => "No space left on device (os error 28)"
  | .nameTooLong => "File name too long (os error 36)"
  | .zeroInName => "file name contained an unexpected NUL byte"
  | .notText => "stream did not contain valid UTF-8"

/-- What stands at a path. -/
inductive Node where
  | file (bytes : List UInt8)
  | directory
  /-- A device that takes every byte and holds none. -/
  | sink
  /-- A device without room. -/
  | full
deriving DecidableEq, Repr

/-- An absolute path, by its names. -/
abbrev Path := List String

structure Disk where
  nodes : List (Path × Node)
  working : Path
deriving Repr

/-- Where a path leads. -/
inductive Place where
  | node (path : Path) (n : Node)
  /-- To a name that its directory does not have. -/
  | free (path : Path)
  /-- To such a name, followed by a slash. -/
  | freeDirectory
deriving DecidableEq, Repr

/-- How a file is opened. -/
inductive Mode where
  | read | write | append
deriving DecidableEq, Repr

namespace Disk

/-- An empty working directory, and the devices. -/
def blank : Disk where
  nodes := [(["dev"], .directory), (["dev", "null"], .sink), (["dev", "full"], .full), (["tmp"], .directory),
    (["tmp", "work"], .directory)]
  working := ["tmp", "work"]

def node? (d : Disk) (path : Path) : Option Node :=
  if path = [] then some .directory else d.nodes.lookup path

/-- Puts something at a path, in place of what was there. -/
def put (d : Disk) (path : Path) (n : Node) : Disk :=
  { d with nodes := d.nodes.filter (·.1 ≠ path) ++ [(path, n)] }

/-- The absolute path that a path spells. -/
def absolute (d : Disk) (path : String) : Path :=
  (path.splitOn "/").foldl
    (fun here name =>
      if name = "" ∨ name = "." then here else if name = ".." then here.dropLast else here ++ [name])
    (if path.toList.head? = some '/' then [] else d.working)

/-- Puts a file at a path, with the directories that lead there. -/
def plant (d : Disk) (path : String) (bytes : List UInt8) : Disk :=
  let full := d.absolute path
  let above := (List.range full.length).map full.take
  (above.foldl (fun d p => if (d.node? p).isSome then d else d.put p .directory) d).put full (.file bytes)

/-- Bytes that a name may have. -/
def nameLimit : Nat := 255

/-- Bytes that a path may have. -/
def pathLimit : Nat := 4095

/-- Follows names from a directory on. -/
def walk (d : Disk) (here : Path) : List String → Except OsError Place
  | [] => .ok (.node here .directory)
  | name :: rest =>
    if name = "" ∨ name = "." then d.walk here rest
    else if name = ".." then d.walk here.dropLast rest
    else if nameLimit < name.utf8ByteSize then .error .nameTooLong
    else
      let path := here ++ [name]
      match d.node? path with
      | some .directory => d.walk path rest
      | some n => if rest.isEmpty then .ok (.node path n) else .error .notDirectory
      | none =>
        if rest.isEmpty then .ok (.free path)
        else if rest.all (· == "") then .ok .freeDirectory
        else .error .notFound

/-- Where a path leads. -/
def locate (d : Disk) (path : String) : Except OsError Place :=
  if path.toList.contains '\x00' then .error .zeroInName
  else if path.isEmpty then .error .notFound
  else if pathLimit < path.utf8ByteSize then .error .nameTooLong
  else d.walk (if path.toList.head? = some '/' then [] else d.working) (path.splitOn "/")

/-- Opens a path. Writing creates a file where there is none and empties one that is there. -/
def open? (d : Disk) (path : String) (mode : Mode) : Except OsError (Path × Disk) :=
  match d.locate path, mode with
  | .error e, _ => .error e
  | .ok (.node p _), .read => .ok (p, d)
  | .ok _, .read => .error .notFound
  | .ok (.node _ .directory), _ => .error .isDirectory
  | .ok .freeDirectory, _ => .error .isDirectory
  | .ok (.free p), _ => .ok (p, d.put p (.file []))
  | .ok (.node p (.file _)), .write => .ok (p, d.put p (.file []))
  | .ok (.node p _), _ => .ok (p, d)

/-- The bytes of a file. -/
def content (d : Disk) (path : Path) : Except OsError (List UInt8) :=
  match d.node? path with
  | some (.file bytes) => .ok bytes
  | some .directory => .error .isDirectory
  | some .sink | some .full => .ok []
  | none => .error .notFound

/-- The text of the file that a path leads to. -/
def text (d : Disk) (path : String) : Except OsError String := do
  let (p, _) ← d.open? path .read
  let bytes ← d.content p
  match Utf8.decode? bytes with
  | some s => .ok s
  | none => .error .notText

/-- Bytes with others in place of those from an offset on; a gap fills with zeros. -/
def overwrite (bytes : List UInt8) (offset : Nat) (more : List UInt8) : List UInt8 :=
  bytes.take offset ++ List.replicate (offset - bytes.length) 0 ++ more ++ bytes.drop (offset + more.length)

/-- Writes bytes from an offset on, or at the end. -/
def write (d : Disk) (path : Path) (offset : Option Nat) (more : List UInt8) : Except OsError Disk :=
  match d.node? path with
  | some (.file bytes) => .ok (d.put path (.file (overwrite bytes (offset.getD bytes.length) more)))
  | some .sink => .ok d
  | some .full => if more.isEmpty then .ok d else .error .noSpace
  | some .directory => .error .isDirectory
  | none => .error .notFound

end Disk
end Crunch
