import Crunch.Text.Fold

/-!
# Crunch.Pattern.CharSet

Sets of characters that a pattern of the bundled engine can name. Of the properties of characters
these are the general categories and white space.

* `CharSet`: ranges, properties and their combinations.
* `CharSet.mem`: membership.
-/

namespace Crunch

inductive CharSet where
  | range (low high : Char)
  /-- Characters of a general category, or of a whole group of them. -/
  | category (group : Char) (detail : Option Char)
  | blank
  | word
  | union (s t : CharSet)
  | inter (s t : CharSet)
  | complement (s : CharSet)
  /-- With all characters that differ only in case. -/
  | folded (s : CharSet)
  /-- The same within ASCII. -/
  | foldedAscii (s : CharSet)
deriving DecidableEq, Repr

namespace CharSet

/-- One character. -/
def single (c : Char) : CharSet := .range c c

/-- All characters. -/
def all : CharSet := .range '\x00' (Char.ofNat 0x10FFFF)

def empty : CharSet := .complement all

/-- The union of some sets. -/
def unionAll : List CharSet → CharSet
  | [] => empty
  | [s] => s
  | s :: ss => .union s (unionAll ss)

/-- The characters of one set that are not in the other. -/
def minus (s t : CharSet) : CharSet := .inter s (.complement t)

/-- The characters in exactly one of two sets. -/
def symmetric (s t : CharSet) : CharSet := .union (minus s t) (minus t s)

/-- An ASCII letter in both cases, another character alone. -/
def asciiCases (c : Char) : List Char := [c.toLower, c.toUpper]

def mem : CharSet → Char → Bool
  | .range low high, c => low ≤ c && c ≤ high
  | .category g d, c =>
    let k := Text.Category.of c
    k.group == g && (d.isNone || d == some k.detail)
  | .blank, c => Text.isBlank c
  | .word, c => Text.isWord c
  | .union s t, c => mem s c || mem t c
  | .inter s t, c => mem s c && mem t c
  | .complement s, c => !mem s c
  | .folded s, c => (Text.orbit c).any (mem s)
  | .foldedAscii s, c => (asciiCases c).any (mem s)

/-- Decimal digits. -/
def digit : CharSet := .category 'N' (some 'd')

/-- ASCII digits, white space and word characters. -/
def asciiDigit : CharSet := .range '0' '9'
def asciiBlank : CharSet := .union (.range '\t' '\r') (single ' ')
def asciiAlpha : CharSet := .union (.range 'a' 'z') (.range 'A' 'Z')
def asciiAlnum : CharSet := .union asciiAlpha asciiDigit
def asciiWord : CharSet := .union asciiAlnum (single '_')

/-- The ASCII classes with names. -/
def ofClassName? (name : String) : Option CharSet :=
  if name = "alnum" then some asciiAlnum
  else if name = "alpha" then some asciiAlpha
  else if name = "ascii" then some (.range '\x00' '\x7F')
  else if name = "blank" then some (.union (single '\t') (single ' '))
  else if name = "cntrl" then some (.union (.range '\x00' '\x1F') (single '\x7F'))
  else if name = "digit" then some asciiDigit
  else if name = "graph" then some (.range '!' '~')
  else if name = "lower" then some (.range 'a' 'z')
  else if name = "print" then some (.range ' ' '~')
  else if name = "punct" then
    some (unionAll [.range '!' '/', .range ':' '@', .range '[' (Char.ofNat 0x60), .range '\x7b' '~'])
  else if name = "space" then some asciiBlank
  else if name = "upper" then some (.range 'A' 'Z')
  else if name = "word" then some asciiWord
  else if name = "xdigit" then
    some (unionAll [asciiDigit, .range 'a' 'f', .range 'A' 'F'])
  else none

/-- Names of the general categories and their groups. -/
def categoryNames : List (String × Char × Option Char) :=
  [("l", 'L', none), ("letter", 'L', none),
   ("lu", 'L', some 'u'), ("uppercaseletter", 'L', some 'u'),
   ("ll", 'L', some 'l'), ("lowercaseletter", 'L', some 'l'),
   ("lt", 'L', some 't'), ("titlecaseletter", 'L', some 't'),
   ("lm", 'L', some 'm'), ("modifierletter", 'L', some 'm'),
   ("lo", 'L', some 'o'), ("otherletter", 'L', some 'o'),
   ("m", 'M', none), ("mark", 'M', none), ("combiningmark", 'M', none),
   ("mn", 'M', some 'n'), ("nonspacingmark", 'M', some 'n'),
   ("mc", 'M', some 'c'), ("spacingmark", 'M', some 'c'),
   ("me", 'M', some 'e'), ("enclosingmark", 'M', some 'e'),
   ("n", 'N', none), ("number", 'N', none),
   ("nd", 'N', some 'd'), ("decimalnumber", 'N', some 'd'), ("digit", 'N', some 'd'),
   ("nl", 'N', some 'l'), ("letternumber", 'N', some 'l'),
   ("no", 'N', some 'o'), ("othernumber", 'N', some 'o'),
   ("p", 'P', none), ("punctuation", 'P', none), ("punct", 'P', none),
   ("pc", 'P', some 'c'), ("connectorpunctuation", 'P', some 'c'),
   ("pd", 'P', some 'd'), ("dashpunctuation", 'P', some 'd'),
   ("ps", 'P', some 's'), ("openpunctuation", 'P', some 's'),
   ("pe", 'P', some 'e'), ("closepunctuation", 'P', some 'e'),
   ("pi", 'P', some 'i'), ("initialpunctuation", 'P', some 'i'),
   ("pf", 'P', some 'f'), ("finalpunctuation", 'P', some 'f'),
   ("po", 'P', some 'o'), ("otherpunctuation", 'P', some 'o'),
   ("s", 'S', none), ("symbol", 'S', none),
   ("sm", 'S', some 'm'), ("mathsymbol", 'S', some 'm'),
   ("sc", 'S', some 'c'), ("currencysymbol", 'S', some 'c'),
   ("sk", 'S', some 'k'), ("modifiersymbol", 'S', some 'k'),
   ("so", 'S', some 'o'), ("othersymbol", 'S', some 'o'),
   ("z", 'Z', none), ("separator", 'Z', none),
   ("zs", 'Z', some 's'), ("spaceseparator", 'Z', some 's'),
   ("zl", 'Z', some 'l'), ("lineseparator", 'Z', some 'l'),
   ("zp", 'Z', some 'p'), ("paragraphseparator", 'Z', some 'p'),
   ("c", 'C', none), ("other", 'C', none),
   ("cc", 'C', some 'c'), ("control", 'C', some 'c'), ("cntrl", 'C', some 'c'),
   ("cf", 'C', some 'f'), ("format", 'C', some 'f'),
   ("cs", 'C', some 's'), ("surrogate", 'C', some 's'),
   ("co", 'C', some 'o'), ("privateuse", 'C', some 'o'),
   ("cn", 'C', some 'n'), ("unassigned", 'C', some 'n')]

/-- Letters with a case. -/
def casedLetter : CharSet :=
  unionAll [.category 'L' (some 'u'), .category 'L' (some 'l'), .category 'L' (some 't')]

/-- The set with a general category's name. -/
def ofCategoryName? (name : String) : Option CharSet :=
  match categoryNames.lookup name with
  | some (g, d) => some (.category g d)
  | none =>
    if name = "any" then some all
    else if name = "ascii" then some (.range '\x00' '\x7F')
    else if name = "assigned" then some (.complement (.category 'C' (some 'n')))
    else if name = "lc" ∨ name = "casedletter" then some casedLetter
    else none

/-- The form in which names of properties are compared: lower case letters without a leading `is`,
blanks, hyphens and underscores. -/
def normalName (cs : List Char) : String :=
  let low := cs.map Char.toLower
  let (leading, body) := match low with
    | 'i' :: 's' :: rest => (true, rest)
    | _ => (false, low)
  let kept := body.filter fun c => c ≠ ' ' ∧ c ≠ '_' ∧ c ≠ '-' ∧ c.toNat < 128
  if leading ∧ kept = ['c'] then "isc" else String.ofList kept

/-- The set with the name of a property. -/
def ofPropertyName? (cs : List Char) : Option CharSet :=
  let name := normalName cs
  if name = "whitespace" ∨ name = "wspace" ∨ name = "space" then some .blank
  else ofCategoryName? name

/-- The set of a property with a value. -/
def ofPropertyValue? (property value : List Char) : Option CharSet :=
  let name := normalName property
  if name = "generalcategory" ∨ name = "gc" then ofCategoryName? (normalName value) else none

end CharSet
end Crunch
