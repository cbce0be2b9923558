/-!
# Crunch.Csv

Lines of separated fields.

* `Dialect.split`: the fields of a line. A field that starts with the quote runs to the matching
  quote and may hold separators; a doubled quote in it stands for one.
* `Dialect.join`: the line of a list of fields, quoted where they need it.
-/

namespace Crunch
namespace Csv

/-- The separator between fields and the quote around them. -/
structure Dialect where
  separator : Char := ','
  quote : Char := '"'
deriving DecidableEq, Repr

/-- Reads on with the current field reversed; `inside` tells whether a quote is open. -/
def Dialect.splitFrom (d : Dialect) (field : List Char) (inside : Bool) :
    List Char → Option (List (List Char))
  | [] => if inside then none else some [field.reverse]
  | c :: rest =>
    if inside then
      if c ≠ d.quote then d.splitFrom (c :: field) true rest
      else
        match rest with
        | [] => some [field.reverse]
        | c' :: rest' =>
          if c' = d.quote then d.splitFrom (c :: field) true rest'
          else d.splitFrom field false (c' :: rest')
    else if c = d.quote ∧ field = [] then d.splitFrom field true rest
    else if c = d.separator then (d.splitFrom [] false rest).map (field.reverse :: ·)
    else d.splitFrom (c :: field) false rest

/-- The fields of a line, or nothing when a quote stays open. -/
def Dialect.split (d : Dialect) (line : List Char) : Option (List (List Char)) :=
  d.splitFrom [] false line

/-- Whether a field has to be quoted. -/
def Dialect.needsQuotes (d : Dialect) (field : List Char) : Bool :=
  field.any fun c => c == d.separator || c == d.quote || c == '\n' || c == '\r'

/-- A field as it stands in a line. -/
def Dialect.written (d : Dialect) (field : List Char) : List Char :=
  if d.needsQuotes field then
    d.quote :: field.flatMap (fun c => if c = d.quote then [c, c] else [c]) ++ [d.quote]
  else field

/-- The line of a list of fields. -/
def Dialect.join (d : Dialect) : List (List Char) → List Char
  | [] => []
  | [field] => d.written field
  | field :: rest => d.written field ++ d.separator :: d.join rest

end Csv
end Crunch
