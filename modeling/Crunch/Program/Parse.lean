import Crunch.Builtin
import Crunch.Program.Parse.Expr
import Crunch.Token.Scan

/-!
# Crunch.Program.Parse

Scripts from tokens.

* `Parse.statement`, `Parse.statements`: statements, separated by line ends or semicolons.
* `Program.ofTokens`: the statements of a whole script.
* `Program.ofSource`: the same from its text.

Every compound statement has its block in braces after `do`; `else` and `catch` may start a new
line. `Parse.fuelFor` is linear in the number of tokens: no rule calls more than a fixed number of
others before it takes a token.
-/

namespace Crunch
namespace Parse

/-- The operator in front of the `=` of an assignment, or nothing for the plain one. -/
def assignment? : Token → Option (Option BinaryOp)
  | .mark .equals => some none
  | .mark .plusAssign => some (some .add)
  | .mark .minusAssign => some (some .sub)
  | .mark .mulAssign => some (some .mul)
  | .mark .divAssign => some (some .div)
  | .mark .modAssign => some (some .mod)
  | _ => none

/-- The tokens after any separators of statements. -/
def skipSeparators : List Placed → List Placed
  | (.newLine, _) :: ts => skipSeparators ts
  | (.mark .semicolon, _) :: ts => skipSeparators ts
  | ts => ts

/-- The tokens after a keyword and the line ends in front of it, with the line of the keyword. -/
def continuation? (k : Keyword) (ts : List Placed) : Option (Nat × List Placed) :=
  match skipLines ts with
  | (t, line) :: rest => if t = .keyword k then some (line, rest) else none
  | [] => none

/-- A name that a variable may have. -/
def variableName (line : Nat) (ts : List Placed) : Outcome (Read String) := do
  let (s, rest) ← name line ts
  if isReserved s then reject line (.reserved s) else return (s, rest)

/-- Whether a statement may end before these tokens. -/
def endsStatement (inBlock : Bool) : List Placed → Outcome Unit
  | [] => .ok ()
  | (.newLine, _) :: _ => .ok ()
  | (.mark .semicolon, _) :: _ => .ok ()
  | (t, line) :: _ =>
    if inBlock ∧ t = .mark .rBrace then .ok () else reject line (.unexpected (.afterStatement t.text))

/-- What a `for` runs over. -/
def source (fuel : Nat) (ts : List Placed) : Outcome (Read Source) := do
  let (start, rest) ← expr fuel ts
  match rest with
  | (.mark .dotDot, _) :: rest =>
    let (bound, rest) ← expr fuel rest
    return (.range start bound false, rest)
  | (.mark .dotDotEq, _) :: rest =>
    let (bound, rest) ← expr fuel rest
    return (.range start bound true, rest)
  | _ => return (.elements start, rest)

/-- An assignment or an expression. -/
def simple (fuel line : Nat) : List Placed → Outcome (Read Statement)
  | (.identifier s, l) :: (t, opLine) :: rest =>
    match assignment? t with
    | none => do
      let (e, rest) ← expr fuel ((.identifier s, l) :: (t, opLine) :: rest)
      return (.expression line e, rest)
    | some op? => do
      if isReserved s then reject opLine (.reserved s)
      let (e, rest) ← expr fuel rest
      match op? with
      | none => return (.assign opLine s e, rest)
      | some op => return (.compound opLine s op e, rest)
  | ts => do
    let (e, rest) ← expr fuel ts
    return (.expression line e, rest)

mutual

/-- One statement, whose first token stands on `line`. -/
def statement : Nat → Nat → List Placed → Outcome (Read Statement)
  | 0, _, _ => .error .outOfFuel
  | fuel + 1, line, ts =>
    match ts with
    | (.keyword .let, _) :: rest => do
      let (s, rest) ← variableName line rest
      let (_, rest) ← expect (.mark .equals) "after variable name" line rest
      let (e, rest) ← expr fuel rest
      return (.declare line s e, rest)
    | (.keyword .if, _) :: rest => do
      let (c, rest) ← expr fuel rest
      let (body, rest) ← block fuel line rest
      let ((bs, otherwise), rest) ← branches fuel line rest
      return (.choice line ((c, body) :: bs) otherwise, rest)
    | (.keyword .while, _) :: rest => do
      let (c, rest) ← expr fuel rest
      let (body, rest) ← block fuel line rest
      return (.loop line c body, rest)
    | (.keyword .for, _) :: rest => do
      let (s, rest) ← variableName line rest
      let (_, rest) ← expect (.keyword .in) "after loop variable" line rest
      let (src, rest) ← source fuel rest
      let (body, rest) ← block fuel line rest
      return (.each line s src body, rest)
    | (.keyword .try, _) :: rest => do
      let (body, rest) ← block fuel line rest
      let (hs, rest) ← handlers fuel rest
      if hs.isEmpty then
        let found := match rest with
          | (t, _) :: _ => t.text
          | [] => "end of input"
        reject line (.unexpected (.noHandler found))
      else return (.attempt line body hs, rest)
    | (.keyword .raise, _) :: rest => do
      let (s, rest) ← name line rest
      return (.raise line s, rest)
    | (.keyword .import, _) :: rest => do
      let (s, rest) ← name line rest
      return (.load line s, rest)
    | ts => simple fuel line ts

/-- The further branches of an `if`. -/
def branches : Nat → Nat → List Placed →
    Outcome (Read (List (Expr × List Statement) × Option (List Statement)))
  | 0, _, _ => .error .outOfFuel
  | fuel + 1, line, ts =>
    match continuation? .else ts with
    | none => .ok (([], none), ts)
    | some (_, (.keyword .if, _) :: rest) => do
      let (c, rest) ← expr fuel rest
      let (body, rest) ← block fuel line rest
      let ((bs, otherwise), rest) ← branches fuel line rest
      return (((c, body) :: bs, otherwise), rest)
    | some (_, rest) => do
      let (body, rest) ← block fuel line rest
      return (([], some body), rest)

/-- The handlers of a `try`. -/
def handlers : Nat → List Placed → Outcome (Read (List (Handler Statement)))
  | 0, _ => .error .outOfFuel
  | fuel + 1, ts =>
    match continuation? .catch ts with
    | none => .ok ([], ts)
    | some (line, rest) => do
      let (s, rest) ← name line rest
      let (body, rest) ← block fuel line rest
      let (hs, rest) ← handlers fuel rest
      return (⟨s, line, body⟩ :: hs, rest)

/-- A block in braces after `do`. -/
def block : Nat → Nat → List Placed → Outcome (Read (List Statement))
  | 0, _, _ => .error .outOfFuel
  | fuel + 1, line, ts => do
    let (doLine, rest) ← expect (.keyword .do) "before block" line ts
    let (braceLine, rest) ← expect (.mark .lBrace) "after 'do'" doLine rest
    statements fuel true braceLine rest

/-- Statements up to the closing brace or, outside a block, to the end. At an end inside a block
the line is that of the last statement or of the opening brace. -/
def statements : Nat → Bool → Nat → List Placed → Outcome (Read (List Statement))
  | 0, _, _, _ => .error .outOfFuel
  | fuel + 1, inBlock, line, ts =>
    match skipSeparators ts with
    | [] => if inBlock then reject line .unexpectedEnd else .ok ([], [])
    | (t, l) :: rest =>
      if inBlock ∧ t = .mark .rBrace then .ok ([], rest)
      else do
        let (s, rest) ← statement fuel l ((t, l) :: rest)
        endsStatement inBlock rest
        let (ss, rest) ← statements fuel inBlock s.line rest
        return (s :: ss, rest)

end

/-- Enough fuel for these tokens. -/
def fuelFor (ts : List Placed) : Nat := 16 * ts.length + 32

end Parse

/-- The statements of a whole script. -/
def Program.ofTokens (ts : List Placed) : Except (Halt Rejection) Program :=
  (Parse.statements (Parse.fuelFor ts) false 1 ts).map Prod.fst

/-- A script from its text. -/
def Program.ofSource (source : String) : Except (Halt Rejection) Program :=
  match tokenize source with
  | .ok ts => ofTokens ts
  | .error e => .error (.error e)

end Crunch
