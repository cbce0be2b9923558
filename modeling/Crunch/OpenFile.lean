import Crunch.Disk

/-!
# Crunch.OpenFile

Open files with their buffers.

* `Reader.line`: the next line of a file. Bytes are read ahead in blocks.
* `Writer.write`, `Writer.flush`: bytes gather in a buffer. Those that would overflow it send it to
  the disk first, and as many as it can hold at once go to the disk by themselves.
* `OpenFile`: a reader, a writer, or neither once it is closed.
-/

namespace Crunch

/-- Bytes of a block and of a full buffer. -/
def blockSize : Nat := 8192

structure Reader where
  path : Path
  /-- Where the next block starts. -/
  offset : Nat
  /-- Read ahead. -/
  buffer : List UInt8
deriving DecidableEq, Repr

structure Writer where
  path : Path
  /-- Where the next bytes go; nothing means the end of the file. -/
  offset : Option Nat
  buffer : List UInt8
deriving DecidableEq, Repr

/-- The number of the character that ends a line. -/
def lineFeed : UInt8 := 10

/-- The bytes up to the first line feed, which is among them, and the bytes after it. -/
def splitLine (bytes : List UInt8) : List UInt8 × List UInt8 :=
  let line := bytes.takeWhile (· ≠ lineFeed)
  match bytes.dropWhile (· ≠ lineFeed) with
  | [] => (line, [])
  | b :: rest => (line ++ [b], rest)

/-- Without the characters that end a line. -/
def withoutLineEnd (line : List Char) : List Char :=
  match line.reverse with
  | '\n' :: '\r' :: rest => rest.reverse
  | '\n' :: rest => rest.reverse
  | _ => line

/-- Text of a line without its end. -/
def lineText (line : List UInt8) : Except OsError String :=
  match Utf8.decode? line with
  | some s => .ok (String.ofList (withoutLineEnd s.toList))
  | none => .error .notText

namespace Reader

/-- The next line, and nothing at the end of the file. A line that is no text is passed over. -/
def line (r : Reader) (d : Disk) : Except OsError (Option String) × Reader :=
  match d.content r.path with
  | .error e => (.error e, r)
  | .ok bytes =>
    let ahead := bytes.drop r.offset
    let (line, _) := splitLine (r.buffer ++ ahead)
    let fresh := line.length - r.buffer.length
    let read := min ahead.length ((fresh + blockSize - 1) / blockSize * blockSize)
    let rest := (r.buffer ++ ahead.take read).drop line.length
    let r := { r with offset := r.offset + read, buffer := rest }
    if line.isEmpty then (.ok none, r) else ((lineText line).map some, r)

end Reader

namespace Writer

/-- Sends bytes to the disk. -/
def send (w : Writer) (bytes : List UInt8) (d : Disk) : Except OsError (Writer × Disk) :=
  (d.write w.path w.offset bytes).map fun d => ({ w with offset := w.offset.map (· + bytes.length) }, d)

/-- Sends the buffer to the disk. A buffer that cannot be sent stays as it is. -/
def flush (w : Writer) (d : Disk) : Except OsError (Writer × Disk) :=
  if w.buffer.isEmpty then .ok (w, d)
  else (w.send w.buffer d).map fun (w, d) => ({ w with buffer := [] }, d)

/-- Room in the buffer. -/
def spare (w : Writer) : Nat := blockSize - w.buffer.length

/-- Writes bytes. What has changed when an error comes up has changed. -/
def write (w : Writer) (bytes : List UInt8) (d : Disk) : Option OsError × Writer × Disk :=
  let flushed := if bytes.length ≤ w.spare then .ok (w, d) else w.flush d
  match flushed with
  | .error e => (some e, w, d)
  | .ok (w, d) =>
    if bytes.length < blockSize then (none, { w with buffer := w.buffer ++ bytes }, d)
    else
      match w.send bytes d with
      | .error e => (some e, w, d)
      | .ok (w, d) => (none, w, d)

end Writer

/-- What an open file is open for. -/
inductive Handle where
  | reader (r : Reader)
  | writer (w : Writer)
deriving DecidableEq, Repr

/-- A file with the path it was opened by. Without a handle it is closed. -/
structure OpenFile where
  path : String
  handle : Option Handle
deriving DecidableEq, Repr

namespace OpenFile

/-- Opens a file. -/
def open? (path : String) (mode : Mode) (d : Disk) : Except OsError (OpenFile × Disk) :=
  (d.open? path mode).map fun (p, d) =>
    let handle :=
      match mode with
      | .read => Handle.reader ⟨p, 0, []⟩
      | .write => .writer ⟨p, some 0, []⟩
      | .append => .writer ⟨p, none, []⟩
    (⟨path, some handle⟩, d)

/-- Sends what is buffered to the disk, and tells whether the file is open. -/
def flush (f : OpenFile) (d : Disk) : Except OsError (Bool × OpenFile × Disk) :=
  match f.handle with
  | none => .ok (false, f, d)
  | some (.reader _) => .ok (true, f, d)
  | some (.writer w) => (w.flush d).map fun (w, d) => (true, { f with handle := some (.writer w) }, d)

/-- Flushes and closes the file, which stays open if that fails. -/
def close (f : OpenFile) (d : Disk) : Except OsError (Bool × OpenFile × Disk) :=
  (f.flush d).map fun (wasOpen, f, d) => (wasOpen, { f with handle := none }, d)

/-- The disk once the file is given up. What cannot be flushed is lost. -/
def abandon (f : OpenFile) (d : Disk) : Disk :=
  match f.flush d with
  | .ok (_, _, d) => d
  | .error _ => d

end OpenFile
end Crunch
