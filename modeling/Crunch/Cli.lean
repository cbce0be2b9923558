import Crunch.Session

/-!
# Crunch.Cli

The command line.

* `Cli.parse?`: what the arguments ask for, if they are well formed.
* `Cli.run`: the exit status, the output and the files of a whole run.
-/

namespace Crunch
namespace Cli

structure Options where
  /-- The positional argument names a file with the script. -/
  file : Bool
  /-- The value of the last expression statement is printed. -/
  pipe : Bool
  seed : Option UInt64
  verbose : Bool
  /-- The positional argument: a script, or the name of a file. -/
  contents : String
deriving DecidableEq, Repr

/-- What the arguments ask for. -/
inductive Request where
  | script (o : Options)
  | version
  | help
deriving DecidableEq, Repr

/-- Arguments read so far. -/
structure Progress where
  file : Bool := false
  pipe : Bool := false
  seed : Option UInt64 := none
  verbose : Bool := false
  contents : Option String := none
deriving DecidableEq, Repr

/-- An option without a value. -/
inductive Flag where
  | file | pipe | verbose
deriving DecidableEq, Repr

/-- Sets a flag, which may be given once. -/
def Progress.set? (p : Progress) : Flag → Option Progress
  | .file => if p.file then none else some { p with file := true }
  | .pipe => if p.pipe then none else some { p with pipe := true }
  | .verbose => if p.verbose then none else some { p with verbose := true }

/-- A natural below `2 ^ 64`. -/
def readSeed? (text : List Char) : Option UInt64 :=
  let digits :=
    match text with
    | '+' :: rest => rest
    | cs => cs
  if digits.isEmpty ∨ !digits.all Char.isDigit then none
  else
    let n := digits.foldl (fun n c => 10 * n + (c.toNat - '0'.toNat)) 0
    if n < UInt64.size then some (UInt64.ofNat n) else none

/-- Sets the seed, which may be given once. -/
def Progress.seed? (p : Progress) (text : List Char) : Option Progress :=
  if p.seed.isSome then none else (readSeed? text).map fun n => { p with seed := some n }

/-- Takes the positional argument, of which there is one. -/
def Progress.positional? (p : Progress) (text : String) : Option Progress :=
  if p.contents.isSome then none else some { p with contents := some text }

/-- All arguments have been read. -/
def Progress.finish? (p : Progress) : Option Request :=
  p.contents.map fun c => .script ⟨p.file, p.pipe, p.seed, p.verbose, c⟩

/-- What comes of one argument. -/
inductive Turn where
  | next (p : Progress)
  /-- The seed is the next argument. -/
  | awaitSeed (p : Progress)
  | stop (r : Request)
deriving DecidableEq, Repr

/-- The flag of a letter. -/
def Flag.ofLetter? : Char → Option Flag
  | 'f' => some .file
  | 'p' => some .pipe
  | 'v' => some .verbose
  | _ => none

/-- Reads the letters behind a single hyphen. -/
def letters? (p : Progress) : List Char → Option Turn
  | [] => some (.next p)
  | 's' :: [] => some (.awaitSeed p)
  | 's' :: '=' :: value => (p.seed? value).map .next
  | 's' :: value => (p.seed? value).map .next
  | 'V' :: _ => some (.stop .version)
  | 'h' :: _ => some (.stop .help)
  | c :: rest =>
    match (Flag.ofLetter? c).bind p.set? with
    | some p => letters? p rest
    | none => none

/-- Reads the word behind two hyphens. -/
def word? (p : Progress) (word : String) : Option Turn :=
  match word with
  | "file" => (p.set? .file).map .next
  | "pipe-mode" => (p.set? .pipe).map .next
  | "verbose" => (p.set? .verbose).map .next
  | "seed" => some (.awaitSeed p)
  | "version" => some (.stop .version)
  | "help" => some (.stop .help)
  | word =>
    match word.toList with
    | 's' :: 'e' :: 'e' :: 'd' :: '=' :: value => (p.seed? value).map .next
    | _ => none

/-- Reads one argument, which is not behind `--`. -/
def argument? (p : Progress) (text : String) : Option Turn :=
  match text.toList with
  | '-' :: '-' :: word => word? p (String.ofList word)
  | '-' :: c :: rest => letters? p (c :: rest)
  | _ => (p.positional? text).map .next

/-- Reads arguments behind `--`, which are all positional. -/
def positionals? (p : Progress) : List String → Option Progress
  | [] => some p
  | text :: rest => (p.positional? text).bind fun p => positionals? p rest

/-- Reads arguments. -/
def parseFrom? (p : Progress) : List String → Option Request
  | [] => p.finish?
  | "--" :: rest => (positionals? p rest).bind Progress.finish?
  | text :: rest =>
    match argument? p text with
    | none => none
    | some (.stop r) => some r
    | some (.next p) => parseFrom? p rest
    | some (.awaitSeed p) =>
      match rest with
      | [] => none
      | value :: rest =>
        match p.seed? value.toList with
        | none => none
        | some p => parseFrom? p rest

/-- What the arguments ask for. -/
def parse? (args : List String) : Option Request := parseFrom? {} args

/-- What is left when the command has ended. -/
structure Outcome where
  status : Nat
  output : String
  errors : String
  disk : Disk

/-- The name and the version. -/
def version : String := "bloc 0.1.0\n"

/-- How the command is used. -/
def usage : String := "Usage: bloc [-f] [-p] [-s SEED] [-v] CONTENTS\n"

/-- The script, or the message for a file that cannot be read. -/
def script (o : Options) (d : Disk) : Except String String :=
  if o.file then
    (d.text o.contents).mapError fun e =>
      s!"Error: failed to read the input file '{o.contents}'\n\nCaused by:\n    {e.text}\n"
  else .ok o.contents

/-- Runs a script. `entropy` is the seed when none is given. -/
def runScript (engine : Pattern.Engine) (passes : Nat) (o : Options) (entropy : UInt64) (input : List UInt8)
    (d : Disk) : Outcome :=
  match script o d with
  | .error message => ⟨1, "", message, d⟩
  | .ok source =>
    let start := State.fresh engine (Random.ofSeed (o.seed.getD entropy)) input d
    let (result, s) := Session.run passes source start
    let disk := (Session.close s).disk
    match result with
    | .error f => ⟨1, s.output, s!"Error: {f.message}\n", disk⟩
    | .ok none => ⟨0, s.output, "", disk⟩
    | .ok (some v) => ⟨0, s.output ++ (if o.pipe then v.text ++ "\n" else ""), "", disk⟩

/-- Runs the command. -/
def run (engine : Pattern.Engine) (passes : Nat) (args : List String) (entropy : UInt64) (input : List UInt8)
    (d : Disk) : Outcome :=
  match parse? args with
  | none => ⟨2, "", usage, d⟩
  | some .version => ⟨0, version, "", d⟩
  | some .help => ⟨0, usage, "", d⟩
  | some (.script o) => runScript engine passes o entropy input d

end Cli
end Crunch
