import Crunch.Pattern

/-!
# Crunch.Pattern.Parse

Regular expressions of the bundled engine from their text.

* `Pattern.ofText?`: the pattern that a text denotes, if it is well formed.

The syntax has literals, classes in brackets with set operations, alternatives, repetitions that
may be lazy, groups with names or flags, assertions, and escapes; it has no references to groups
and does not look around. Flags hold up to the end of their group, over the bars of alternatives.
-/

namespace Crunch
namespace Pattern

/-- Switches of the syntax. -/
structure Flags where
  ignoreCase : Bool := false
  multiLine : Bool := false
  dotAll : Bool := false
  carriageReturn : Bool := false
  verbose : Bool := false
  unicode : Bool := true
deriving DecidableEq, Repr

namespace Parse

/-- Drops a comment, with the line end that closes it. -/
def dropComment : List Char → List Char
  | [] => []
  | '\n' :: cs => cs
  | _ :: cs => dropComment cs

/-- A comment is no longer than its text. -/
theorem length_dropComment (cs : List Char) : (dropComment cs).length ≤ cs.length := by
  fun_induction dropComment cs <;> grind

/-- In verbose mode, drops blanks and comments. -/
def skip (verbose : Bool) : List Char → List Char
  | [] => []
  | c :: cs =>
    if !verbose then c :: cs
    else if Text.isBlank c then skip verbose cs
    else if c = '#' then skip verbose (dropComment cs)
    else c :: cs
termination_by cs => cs.length
decreasing_by
  · simp
  · have := length_dropComment cs
    simp
    omega

def isHexDigit (c : Char) : Bool := ('0' ≤ c && c ≤ '9') || ('a' ≤ c && c ≤ 'f') || ('A' ≤ c && c ≤ 'F')

def hexDigitValue (c : Char) : Nat :=
  if c ≤ '9' then c.toNat - 48 else if c ≤ 'F' then c.toNat - 55 else c.toNat - 87

/-- The character whose number the digits denote in base sixteen. -/
def hexCharacter? (cs : List Char) : Option Char :=
  let n := cs.foldl (fun n c => 16 * n + hexDigitValue c) 0
  if n.isValidChar then some (Char.ofNat n) else none

/-- Digits up to a closing brace, and the text after it. -/
def hexBraced (v : Bool) : Nat → List Char → Option (List Char × List Char)
  | 0, _ => none
  | fuel + 1, cs =>
    match skip v cs with
    | '\x7d' :: rest => some ([], rest)
    | c :: rest =>
      if isHexDigit c then (hexBraced v fuel rest).map fun (ds, r) => (c :: ds, r) else none
    | [] => none

/-- Exactly `n` digits, and the text after them. -/
def hexFixed (v : Bool) : Nat → List Char → Option (List Char × List Char)
  | 0, cs => some ([], cs)
  | n + 1, cs =>
    match skip v cs with
    | c :: rest => if isHexDigit c then (hexFixed v n rest).map fun (ds, r) => (c :: ds, r) else none
    | [] => none

/-- What an escape or a plain character denotes. -/
inductive Atom where
  /-- A character; the flag tells one written with two hexadecimal digits. -/
  | literal (c : Char) (byte : Bool)
  | set (s : CharSet)
  | assertion (a : Assertion)

/-- Characters that have a meaning of their own and may be escaped to lose it. -/
def isMeta (c : Char) : Bool :=
  ['\\', '.', '+', '*', '?', '(', ')', '|', '[', ']', '\x7b', '\x7d', '^', '$', '#', '&', '-', '~'].contains c

/-- Characters that stand for themselves after a backslash. -/
def isEscapable (c : Char) : Bool :=
  isMeta c || (c.toNat < 128 && !c.isAlphanum && c != '<' && c != '>')

/-- A character by its number, after `x`, `u` or `U`. -/
def hexEscape (v : Bool) (digits : Nat) (cs : List Char) : Option (Atom × List Char) :=
  match skip v cs with
  | '\x7b' :: rest =>
    match hexBraced v (rest.length + 1) rest with
    | some (ds, r) => if ds = [] then none else (hexCharacter? ds).map fun c => (.literal c false, skip v r)
    | none => none
  | c :: rest =>
    match hexFixed v digits (c :: rest) with
    | some (ds, r) => (hexCharacter? ds).map fun c => (.literal c (digits == 2), skip v r)
    | none => none
  | [] => none

/-- Splits at the first occurrence of a separator. -/
def splitAt? (sep : List Char) : List Char → Option (List Char × List Char)
  | [] => none
  | c :: cs =>
    if sep.isPrefixOf (c :: cs) then some ([], (c :: cs).drop sep.length)
    else (splitAt? sep cs).map fun (a, b) => (c :: a, b)

/-- The set of a property in braces: a name, or a name and a value. -/
def property? (cs : List Char) : Option CharSet :=
  match splitAt? ['!', '='] cs with
  | some (n, x) => (CharSet.ofPropertyValue? n x).map .complement
  | none =>
    match splitAt? [':'] cs with
    | some (n, x) => CharSet.ofPropertyValue? n x
    | none =>
      match splitAt? ['='] cs with
      | some (n, x) => CharSet.ofPropertyValue? n x
      | none => CharSet.ofPropertyName? cs

/-- The text up to a closing brace, without what the verbose mode skips. -/
def braced (v : Bool) : Nat → List Char → Option (List Char × List Char)
  | 0, _ => none
  | fuel + 1, cs =>
    match skip v cs with
    | '\x7d' :: rest => some ([], rest)
    | c :: rest => (braced v fuel rest).map fun (name, r) => (c :: name, r)
    | [] => none

/-- With the characters that differ only in case, if case is ignored. -/
def fold (fl : Flags) (s : CharSet) : CharSet :=
  if !fl.ignoreCase then s else if fl.unicode then .folded s else .foldedAscii s

/-- A set of a Unicode property, after `p` or `P`. -/
def propertyEscape (fl : Flags) (negated : Bool) (cs : List Char) : Option (Atom × List Char) :=
  let found := match skip fl.verbose cs with
    | '\x7b' :: rest =>
      match braced fl.verbose (rest.length + 1) rest with
      | some (name, r) => (property? name).map fun s => (s, r)
      | none => none
    | '\\' :: _ => none
    | c :: rest => (CharSet.ofPropertyName? [c]).map fun s => (s, skip fl.verbose rest)
    | [] => none
  match found with
  | some (s, r) =>
    if !fl.unicode then none
    else
      let s := fold fl s
      some (.set (if negated then .complement s else s), r)
  | none => none

/-- The class of digits, blanks or word characters. Outside Unicode its complement would match
parts of characters. -/
def classEscape (fl : Flags) (unicode ascii : CharSet) (negated : Bool) : Option Atom :=
  if fl.unicode then some (.set (if negated then .complement unicode else unicode))
  else if negated then none
  else some (.set ascii)

/-- The letters and hyphens of a special word boundary, and the text after them. -/
def boundaryName (v : Bool) : Nat → List Char → List Char × List Char
  | 0, cs => ([], cs)
  | fuel + 1, cs =>
    match cs with
    | c :: rest =>
      if c.isAlpha || c == '-' then
        let (name, r) := boundaryName v fuel (skip v rest)
        (c :: name, r)
      else ([], cs)
    | [] => ([], [])

/-- After `\b`: a word boundary, which may be a special one with its name in braces. Braces around
anything but a name belong to a repetition. -/
def boundaryEscape (v : Bool) (cs : List Char) : Option (Atom × List Char) :=
  match cs with
  | '\x7b' :: rest =>
    match skip v rest with
    | [] => none
    | c :: r =>
      if c.isAlpha || c == '-' then
        match boundaryName v (r.length + 2) (c :: r) with
        | (name, '\x7d' :: r') =>
          let name := String.ofList name
          if name = "start" then some (.assertion .wordStart, r')
          else if name = "end" then some (.assertion .wordEnd, r')
          else if name = "start-half" then some (.assertion .wordStartHalf, r')
          else if name = "end-half" then some (.assertion .wordEndHalf, r')
          else none
        | _ => none
      else some (.assertion .wordBoundary, cs)
  | _ => some (.assertion .wordBoundary, cs)

/-- After a backslash. -/
def escape (fl : Flags) : List Char → Option (Atom × List Char)
  | [] => none
  | c :: rest =>
    let v := fl.verbose
    let plain := fun (c : Char) => some (Atom.literal c false, rest)
    if c = 'x' then hexEscape v 2 rest
    else if c = 'u' then hexEscape v 4 rest
    else if c = 'U' then hexEscape v 8 rest
    else if c = 'p' ∨ c = 'P' then propertyEscape fl (c == 'P') rest
    else if c = 'd' ∨ c = 'D' then
      (classEscape fl .digit .asciiDigit (c == 'D')).map fun a => (a, rest)
    else if c = 's' ∨ c = 'S' then
      (classEscape fl .blank .asciiBlank (c == 'S')).map fun a => (a, rest)
    else if c = 'w' ∨ c = 'W' then
      (classEscape fl .word .asciiWord (c == 'W')).map fun a => (a, rest)
    else if isEscapable c then plain c
    else if c = 'a' then plain '\x07'
    else if c = 'f' then plain '\x0c'
    else if c = 't' then plain '\t'
    else if c = 'n' then plain '\n'
    else if c = 'r' then plain '\r'
    else if c = 'v' then plain '\x0b'
    else if c = 'A' then some (.assertion .textStart, rest)
    else if c = 'z' then some (.assertion .textEnd, rest)
    else if c = 'b' then boundaryEscape v rest
    else if c = 'B' then some (.assertion .notWordBoundary, rest)
    else if c = '<' then some (.assertion .wordStart, rest)
    else if c = '>' then some (.assertion .wordEnd, rest)
    else none

/-- Operations between the parts of a class in brackets. -/
inductive SetOp where
  | inter | minus | symmetric
deriving DecidableEq

def SetOp.apply : SetOp → CharSet → CharSet → CharSet
  | .inter => .inter
  | .minus => .minus
  | .symmetric => .symmetric

/-- The part of a class read so far, joined with what stands before the operator in front of it. -/
def combine (fl : Flags) (pending : Option (SetOp × CharSet)) (part : CharSet) : CharSet :=
  match pending with
  | some (op, s) => op.apply (fold fl s) (fold fl part)
  | none => part

/-- A named class such as `:alpha:` with its closing bracket, after the opening one. -/
def namedClass? : List Char → Option (Bool × CharSet × List Char)
  | ':' :: rest =>
    let (negated, rest) := match rest with
      | '^' :: r => (true, r)
      | r => (false, r)
    let name := rest.takeWhile (· != ':')
    match rest.drop name.length with
    | ':' :: ']' :: r => (CharSet.ofClassName? (String.ofList name)).map fun s => (negated, s, r)
    | _ => none
  | _ => none

/-- A character in a class. Outside Unicode it has to be an ASCII one. -/
def classLiteral (fl : Flags) (c : Char) : Option Char :=
  if fl.unicode || c.toNat < 128 then some c else none

/-- One item of a class: an escape or a character. -/
def classItem (fl : Flags) : List Char → Option (Atom × List Char)
  | '\\' :: rest => escape fl rest
  | c :: rest => some (.literal c false, rest)
  | [] => none

/-- The set of an item. -/
def itemSet (fl : Flags) : Atom → Option CharSet
  | .literal c _ => (classLiteral fl c).map .single
  | .set s => some s
  | .assertion _ => none

/-- An item or a range between two characters. -/
def classRange (fl : Flags) (cs : List Char) : Option (CharSet × List Char) :=
  let v := fl.verbose
  match classItem fl cs with
  | none => none
  | some (a, rest) =>
    let rest := skip v rest
    match rest with
    | [] => none
    | '-' :: rest' =>
      let next := skip v rest'
      match next with
      | [] => none
      | c :: _ =>
        if c = ']' ∨ c = '-' then (itemSet fl a).map fun s => (s, rest)
        else
          match a, classItem fl next with
          | .literal low _, some (.literal high _, r) =>
            match classLiteral fl low, classLiteral fl high with
            | some l, some h => if l ≤ h then some (.range l h, r) else none
            | _, _ => none
          | _, _ => none
    | _ => (itemSet fl a).map fun s => (s, rest)

/-- The hyphens at the start of a class, which stand for themselves. -/
def leadingHyphens (v : Bool) : Nat → List Char → Bool × List Char
  | 0, cs => (false, cs)
  | fuel + 1, cs =>
    match cs with
    | '-' :: rest => (true, (leadingHyphens v fuel (skip v rest)).2)
    | _ => (false, cs)

/-- A class with its case and its negation settled. Outside Unicode it must hold ASCII only. -/
def finishClass (fl : Flags) (negated : Bool) (s : CharSet) : Option CharSet :=
  let s := fold fl s
  let s := if negated then .complement s else s
  if !fl.unicode && s.mem (Char.ofNat 0x80) then none else some s

mutual

/-- A class in brackets, after the opening one. -/
def bracket (fl : Flags) : Nat → List Char → Option (CharSet × List Char)
  | 0, _ => none
  | fuel + 1, cs =>
    let v := fl.verbose
    let cs := skip v cs
    let (negated, cs) := match cs with
      | '^' :: rest => (true, skip v rest)
      | _ => (false, cs)
    let (hyphen, cs) := leadingHyphens v (cs.length + 1) cs
    let (part, cs) :=
      if hyphen then (CharSet.single '-', cs)
      else
        match cs with
        | ']' :: rest => (CharSet.single ']', skip v rest)
        | _ => (CharSet.empty, cs)
    match classBody fl fuel none part cs with
    | some (s, rest) => (finishClass fl negated s).map fun s => (s, rest)
    | none => none

/-- The rest of a class up to its closing bracket. -/
def classBody (fl : Flags) :
    Nat → Option (SetOp × CharSet) → CharSet → List Char → Option (CharSet × List Char)
  | 0, _, _, _ => none
  | fuel + 1, pending, part, cs =>
    match skip fl.verbose cs with
    | [] => none
    | ']' :: rest => some (combine fl pending part, rest)
    | '[' :: rest =>
      match namedClass? rest with
      | some (negated, s, rest) =>
        let s := fold fl s
        classBody fl fuel pending (.union part (if negated then .complement s else s)) rest
      | none =>
        match bracket fl fuel rest with
        | some (s, rest) => classBody fl fuel pending (.union part s) rest
        | none => none
    | '&' :: '&' :: rest => classBody fl fuel (some (.inter, combine fl pending part)) .empty rest
    | '-' :: '-' :: rest => classBody fl fuel (some (.minus, combine fl pending part)) .empty rest
    | '~' :: '~' :: rest => classBody fl fuel (some (.symmetric, combine fl pending part)) .empty rest
    | c :: rest =>
      match classRange fl (c :: rest) with
      | some (s, rest) => classBody fl fuel pending (.union part s) rest
      | none => none

end

/-- Digits of a count, and the text after them. -/
def countDigits (v : Bool) : Nat → List Char → List Char × List Char
  | 0, cs => ([], cs)
  | fuel + 1, cs =>
    match cs with
    | c :: rest =>
      if '0' ≤ c ∧ c ≤ '9' then
        let (ds, r) := countDigits v fuel (skip v rest)
        (c :: ds, r)
      else ([], cs)
    | [] => ([], [])

/-- A count between blanks; nothing when there are no digits or when it does not fit 32 bits. -/
def repeatCount (v : Bool) (cs : List Char) : Option Nat × List Char :=
  let (ds, rest) := countDigits v (cs.length + 1) (cs.dropWhile Text.isBlank)
  let n := ds.foldl (fun n c => 10 * n + (c.toNat - 48)) 0
  (if ds = [] ∨ UInt32.size ≤ n then none else some n, skip v (rest.dropWhile Text.isBlank))

/-- Bounds in braces, after the opening one; the upper one is missing for "at least". -/
def bounds (v : Bool) (cs : List Char) : Option (Nat × Option Nat × List Char) :=
  let (low?, rest) := repeatCount v (skip v cs)
  match low?, rest with
  | some low, '\x7d' :: r => some (low, some low, r)
  | some low, ',' :: r =>
    match skip v r with
    | '\x7d' :: r => some (low, none, r)
    | r =>
      match repeatCount v r with
      | (some high, '\x7d' :: r) => if low ≤ high then some (low, some high, r) else none
      | _ => none
  | _, _ => none

/-- The flags after `(?` with their values, the colon or parenthesis that ends them, and the text
after it. -/
def flagItems (negated dangling : Bool) (seen : List Char) :
    List Char → Option (List (Char × Bool) × Char × List Char)
  | [] => none
  | c :: rest =>
    if c = ':' ∨ c = ')' then if dangling then none else some ([], c, rest)
    else if c = '-' then if negated then none else flagItems true true seen rest
    else if ['i', 'm', 's', 'U', 'u', 'R', 'x'].contains c && !seen.contains c then
      (flagItems negated false (c :: seen) rest).map fun (items, e, r) => ((c, !negated) :: items, e, r)
    else none

/-- The flags with one of them set or cleared. Which of two matches is longer does not matter here,
so the flag for that changes nothing. -/
def Flags.set (fl : Flags) (item : Char × Bool) : Flags :=
  match item.1 with
  | 'i' => { fl with ignoreCase := item.2 }
  | 'm' => { fl with multiLine := item.2 }
  | 's' => { fl with dotAll := item.2 }
  | 'R' => { fl with carriageReturn := item.2 }
  | 'x' => { fl with verbose := item.2 }
  | 'u' => { fl with unicode := item.2 }
  | _ => fl

/-- Letters, for the names of groups. -/
def isLetter (c : Char) : Bool :=
  let k := Text.Category.of c
  k.group == 'L' || k == ⟨'N', 'l'⟩

/-- Whether a character may stand in the name of a group. -/
def isNameChar (first : Bool) (c : Char) : Bool :=
  c == '_' || isLetter c
    || (!first && (c == '.' || c == '[' || c == ']' || (Text.Category.of c).group == 'N'))

/-- The name of a group up to its closing bracket. -/
def groupName (cs : List Char) : Option (List Char × List Char) :=
  let name := cs.takeWhile (· != '>')
  match cs.drop name.length, name with
  | '>' :: rest, c :: more =>
    if isNameChar true c && more.all (isNameChar false) then some (name, rest) else none
  | _, _ => none

/-- What an opening parenthesis starts. -/
inductive Opening where
  /-- Flags for the rest of the group around it. -/
  | flags (fl : Flags)
  /-- A group with its flags, and its name if it has one. -/
  | group (fl : Flags) (name : Option (List Char))

/-- After an opening parenthesis. -/
def opening (fl : Flags) (cs : List Char) : Option (Opening × List Char) :=
  match cs with
  | '?' :: rest =>
    match rest with
    | '=' :: _ => none
    | '!' :: _ => none
    | '<' :: '=' :: _ => none
    | '<' :: '!' :: _ => none
    | 'P' :: '<' :: r => (groupName r).map fun (n, r) => (.group fl (some n), r)
    | '<' :: r => (groupName r).map fun (n, r) => (.group fl (some n), r)
    | r =>
      match flagItems false false [] r with
      | none => none
      | some (items, e, r) =>
        let fl' := items.foldl Flags.set fl
        if e = ':' then some (.group fl' none, r)
        else if items = [] then none
        else some (.flags fl', r)
  | _ => some (.group fl none, cs)

/-- A sequence from its items in reverse, of which the flags leave nothing. -/
def sequence (items : List (Option Pattern)) : Pattern :=
  match items.reverse.filterMap id with
  | [] => .empty
  | [p] => p
  | ps => .seq ps

/-- Alternatives from all but the last in reverse, and the items of the last in reverse. -/
def alternatives (done : List Pattern) (items : List (Option Pattern)) : Pattern :=
  match done with
  | [] => sequence items
  | _ => .alt (done.reverse ++ [sequence items])

/-- The words that boundaries look at. -/
def wordSet (fl : Flags) : CharSet := if fl.unicode then .word else .asciiWord

/-- A literal character. -/
def literal (fl : Flags) (c : Char) (byte : Bool) : Option Pattern :=
  if !fl.unicode && byte && c.toNat ≥ 128 then none else some (.char (fold fl (.single c)))

/-- The pattern of an atom. -/
def atom (fl : Flags) : Atom → Option Pattern
  | .literal c byte => literal fl c byte
  | .set s => some (.char s)
  | .assertion a => some (.assert a (wordSet fl))

/-- Any character, or any but those that end a line. Outside Unicode it would match parts of
characters. -/
def dot (fl : Flags) : Option Pattern :=
  let newLine := CharSet.single '\n'
  if !fl.unicode then none
  else if fl.dotAll then some (.char .all)
  else if fl.carriageReturn then some (.char (.complement (.union newLine (.single '\r'))))
  else some (.char (.complement newLine))

/-- The start of the text or of a line. -/
def caret (fl : Flags) : Assertion :=
  if !fl.multiLine then .textStart else if fl.carriageReturn then .returnLineStart else .lineStart

/-- The end of the text or of a line. -/
def dollar (fl : Flags) : Assertion :=
  if !fl.multiLine then .textEnd else if fl.carriageReturn then .returnLineEnd else .lineEnd

/-- One item that is neither group, class nor repetition. -/
def primitive (fl : Flags) : List Char → Option (Pattern × List Char)
  | [] => none
  | c :: rest =>
    if c = '\\' then
      match escape fl rest with
      | some (a, r) => (atom fl a).map fun p => (p, r)
      | none => none
    else if c = '.' then (dot fl).map fun p => (p, rest)
    else if c = '^' then some (.assert (caret fl) (wordSet fl), rest)
    else if c = '$' then some (.assert (dollar fl) (wordSet fl), rest)
    else (literal fl c false).map fun p => (p, rest)

/-- Drops the question mark of a lazy repetition. -/
def dropLazy : List Char → List Char
  | '?' :: cs => cs
  | cs => cs

/-- The bounds of a repetition that starts with a character, and the text after it. -/
def repetition? (v : Bool) : List Char → Option (Option (Nat × Option Nat × List Char))
  | '?' :: r => some (some (0, some 1, dropLazy r))
  | '*' :: r => some (some (0, none, dropLazy r))
  | '+' :: r => some (some (1, none, dropLazy r))
  | '\x7b' :: r => some ((bounds v r).map fun (least, most, r) => (least, most, dropLazy (skip v r)))
  | _ => none

/-- The alternatives up to a closing parenthesis or the end, with the names of groups so far. -/
def items : Nat → Flags → List (List Char) → List Pattern → List (Option Pattern) → List Char →
    Option (Pattern × List (List Char) × List Char)
  | 0, _, _, _, _, _ => none
  | fuel + 1, fl, names, done, current, cs =>
    let cs := skip fl.verbose cs
    match repetition? fl.verbose cs, current with
    | some none, _ => none
    | some (some (least, most, rest)), some p :: current =>
      items fuel fl names done (some (.repeated p least most) :: current) rest
    | some (some _), _ => none
    | none, _ =>
      match cs with
      | [] => some (alternatives done current, names, [])
      | ')' :: rest => some (alternatives done current, names, ')' :: rest)
      | '|' :: rest => items fuel fl names (sequence current :: done) [] rest
      | '(' :: rest =>
        match opening fl (skip fl.verbose rest) with
        | none => none
        | some (.flags fl', rest) => items fuel fl' names done (none :: current) rest
        | some (.group fl' name?, rest) =>
          if name?.any names.contains then none
          else
            match items fuel fl' (name?.toList ++ names) [] [] rest with
            | some (p, names, ')' :: rest) =>
              items fuel fl names done (some (.group p) :: current) rest
            | _ => none
      | '[' :: rest =>
        match bracket fl (rest.length + 1) rest with
        | some (s, rest) => items fuel fl names done (some (.char s) :: current) rest
        | none => none
      | cs =>
        match primitive fl cs with
        | some (p, rest) => items fuel fl names done (some p :: current) rest
        | none => none

end Parse

/-- The pattern that a text denotes. -/
def ofText? (cs : List Char) : Option Pattern :=
  match Parse.items (cs.length + 1) {} [] [] [] cs with
  | some (p, _, []) => some p
  | _ => none

end Pattern
end Crunch
