import Mcs51.Expression.Tree

/-!
# Grammar of expressions

From the loosest to the tightest binding: a function `lambda` and a choice `a if c else b`; `or`;
`and`; `not`; comparisons and `in`, which do not chain; `|`; `^`; `&`; shifts; sums; products;
signs; then attributes, calls and indices. Commas make a tuple.

A reader takes what stands at the start of a row of lexemes and gives the rest of the row. Readers
call each other in circles, so each has a bound on the calls below it, `fuel`; one call reads at
least one lexeme in every few, so a bound in proportion to the row is never reached. A function or a
comprehension is numbered by the length of the row that starts with it.
-/

namespace Mcs51.Expression

/-- The row after the given mark, if it starts with it. -/
def expect? (m : Mark) : List Lexeme → Option (List Lexeme)
  | .mark n :: row => if n == m then some row else none
  | _ => none

/-- The row starts with the given mark. -/
def startsWith (m : Mark) (row : List Lexeme) : Bool := row.head? == some (.mark m)

/-- The row starts with something that ends a list of expressions. -/
def endsList (row : List Lexeme) : Bool :=
  match row with
  | [] | .lineEnd :: _ => true
  | .mark m :: _ =>
    m == .assign || m == .closeBrace || m == .closeBracket || m == .closeParen || m == .semicolon
  | _ => false

/-! ## Operators -/

/-- The operator at the start of a row, and the rest. -/
def operator? : List Lexeme → Option (BinaryOp × List Lexeme)
  | .mark .notWord :: .mark .inWord :: rest => some (.nonMember, rest)
  | .mark m :: rest =>
    let op? : Option BinaryOp := match m with
      | .orWord => some .either
      | .andWord => some .both
      | .less => some (.relation .less)
      | .greater => some (.relation .greater)
      | .lessEqual => some (.relation .lessEqual)
      | .greaterEqual => some (.relation .greaterEqual)
      | .equal => some (.relation .equal)
      | .notEqual => some (.relation .notEqual)
      | .inWord => some .member
      | .bar => some .bitOr
      | .caret => some .bitXor
      | .ampersand => some .bitAnd
      | .shiftLeft => some .shiftLeft
      | .shiftRight => some .shiftRight
      | .plus => some .add
      | .minus => some .subtract
      | .star => some .multiply
      | .slash => some .divide
      | .doubleSlash => some .floorDivide
      | .percent => some .modulo
      | _ => none
    op?.map fun op => (op, rest)
  | _ => none

/-- The operator of a mark that updates its target. -/
def updateOp? : Mark → Option BinaryOp
  | .plusAssign => some .add
  | .minusAssign => some .subtract
  | .starAssign => some .multiply
  | .slashAssign => some .divide
  | .doubleSlashAssign => some .floorDivide
  | .percentAssign => some .modulo
  | .ampersandAssign => some .bitAnd
  | .barAssign => some .bitOr
  | .caretAssign => some .bitXor
  | .shiftLeftAssign => some .shiftLeft
  | .shiftRightAssign => some .shiftRight
  | _ => none

/-- The sign that a mark is in front of an operand. -/
def sign? : Mark → Option UnaryOp
  | .plus => some .plus
  | .minus => some .minus
  | .tilde => some .invert
  | _ => none

/-! ## Expressions -/

mutual

/-- A function, a choice, or anything that binds tighter. A choice is left alone if `choices` is
false. -/
def conditional : Nat → Bool → List Lexeme → Option (Tree × List Lexeme)
  | 0, _, _ => none
  | fuel + 1, choices, row =>
    match row with
    | .mark .lambdaWord :: rest => do
      let (params, rest) ← parameters fuel true rest
      let rest ← expect? .colon rest
      let (body, rest) ← conditional fuel choices rest
      return (.lambda row.length params body, rest)
    | _ => do
      let (x, row) ← operation fuel 0 row
      if choices && startsWith .ifWord row then
        let (condition, row) ← operation fuel 0 row.tail
        let row ← expect? .elseWord row
        let (no, row) ← conditional fuel true row
        return (.choice condition x no, row)
      return (x, row)

/-- Operands joined by operators of the given level or above. -/
def operation : Nat → Nat → List Lexeme → Option (Tree × List Lexeme)
  | 0, _, _ => none
  | fuel + 1, level, row =>
    match row with
    | .mark .notWord :: rest =>
      if level ≤ notLevel then do
        let (x, rest) ← operation fuel notLevel rest
        operations fuel level false (.unary .negate x) rest
      else none
    | _ => do
      let (x, row) ← operand fuel row
      operations fuel level false x row

/-- What operators of the given level or above make of `x`; `compared` says whether the last of them
does not chain. -/
def operations : Nat → Nat → Bool → Tree → List Lexeme → Option (Tree × List Lexeme)
  | 0, _, _, _, _ => none
  | fuel + 1, level, compared, x, row =>
    match operator? row with
    | none => some (x, row)
    | some (op, rest) =>
      if op.level < level then some (x, row)
      else if compared && op.level == relationLevel then none
      else do
        let (y, rest) ← operation fuel (op.level + 1) rest
        operations fuel level (op.level == relationLevel) (.binary op x y) rest

/-- An operand with its signs, attributes, calls and indices. -/
def operand : Nat → List Lexeme → Option (Tree × List Lexeme)
  | 0, _ => none
  | fuel + 1, row =>
    match row with
    | .integer n :: rest => suffixes fuel (.integer n) rest
    | .real x :: rest => suffixes fuel (.real x) rest
    | .text t :: rest => suffixes fuel (.text t) rest
    | .bytes t :: rest => suffixes fuel (.bytes t) rest
    | .name t :: rest => suffixes fuel (.name t) rest
    | .mark .openBracket :: .mark .closeBracket :: rest => suffixes fuel (.list []) rest
    | .mark .openBracket :: rest => do
      let (x, rest) ← conditional fuel true rest
      if startsWith .forWord rest then
        let (clauses, rest) ← comprehension fuel .closeBracket rest
        suffixes fuel (.listFor row.length x clauses) rest
      else
        let (items, rest) ← moreItems fuel true rest
        suffixes fuel (.list (x :: items)) (← expect? .closeBracket rest)
    | .mark .openBrace :: .mark .closeBrace :: rest => suffixes fuel (.dict []) rest
    | .mark .openBrace :: rest => do
      let ((key, value), rest) ← entry fuel rest
      if startsWith .forWord rest then
        let (clauses, rest) ← comprehension fuel .closeBrace rest
        suffixes fuel (.dictFor row.length key value clauses) rest
      else
        let (entries, rest) ← moreEntries fuel rest
        suffixes fuel (.dict ((key, value) :: entries)) (← expect? .closeBrace rest)
    | .mark .openParen :: .mark .closeParen :: rest => suffixes fuel (.tuple []) rest
    | .mark .openParen :: rest => do
      let (x, rest) ← expressions fuel true rest
      suffixes fuel x (← expect? .closeParen rest)
    | .mark m :: rest => do
      let op ← sign? m
      let (x, rest) ← operand fuel rest
      return (.unary op x, rest)
    | _ => none

/-- The attributes, calls and indices after `x`. -/
def suffixes : Nat → Tree → List Lexeme → Option (Tree × List Lexeme)
  | 0, _, _ => none
  | fuel + 1, x, row =>
    match row with
    | .mark .dot :: .name name :: rest => suffixes fuel (.field x name) rest
    | .mark .dot :: _ => none
    | .mark .openBracket :: .mark .colon :: rest => slice fuel x none (.mark .colon :: rest)
    | .mark .openBracket :: rest => do
      let (i, rest) ← expressions fuel false rest
      if startsWith .closeBracket rest then suffixes fuel (.index x i) rest.tail
      else slice fuel x (some i) rest
    | .mark .openParen :: rest => do
      let (args, rest) ← arguments fuel true rest
      suffixes fuel (.call x args) (← expect? .closeParen rest)
    | row => some (x, row)

/-- A slice of `x` after its lower bound, and what follows it. -/
def slice : Nat → Tree → Option Tree → List Lexeme → Option (Tree × List Lexeme)
  | 0, _, _, _ => none
  | fuel + 1, x, low, row => do
    let (high, row) ← bound fuel row
    let (step, row) ← bound fuel row
    suffixes fuel (.slice x low high step) (← expect? .closeBracket row)

/-- A bound of a slice with its colon; both may be missing. -/
def bound : Nat → List Lexeme → Option (Option Tree × List Lexeme)
  | 0, _ => none
  | fuel + 1, row =>
    match row with
    | .mark .colon :: row =>
      if startsWith .colon row || startsWith .closeBracket row then some (none, row)
      else do
        let (x, row) ← conditional fuel true row
        return (some x, row)
    | row => some (none, row)

/-- One expression, or a tuple of several with commas between them. A comma after the last one is
taken only if `trailing` is set. -/
def expressions : Nat → Bool → List Lexeme → Option (Tree × List Lexeme)
  | 0, _, _ => none
  | fuel + 1, trailing, row => do
    let (x, row) ← conditional fuel true row
    if startsWith .comma row then
      let (items, row) ← moreItems fuel trailing row
      return (.tuple (x :: items), row)
    return (x, row)

/-- The items that follow one, each with the comma before it. -/
def moreItems : Nat → Bool → List Lexeme → Option (List Tree × List Lexeme)
  | 0, _, _ => none
  | fuel + 1, trailing, row =>
    match row with
    | .mark .comma :: row =>
      if endsList row then (if trailing then some ([], row) else none)
      else do
        let (x, row) ← conditional fuel true row
        let (items, row) ← moreItems fuel trailing row
        return (x :: items, row)
    | row => some ([], row)

/-- An entry of a dictionary. -/
def entry : Nat → List Lexeme → Option ((Tree × Tree) × List Lexeme)
  | 0, _ => none
  | fuel + 1, row => do
    let (key, row) ← conditional fuel true row
    let row ← expect? .colon row
    let (value, row) ← conditional fuel true row
    return ((key, value), row)

/-- The entries that follow one, each with the comma before it. -/
def moreEntries : Nat → List Lexeme → Option (List (Tree × Tree) × List Lexeme)
  | 0, _ => none
  | fuel + 1, row =>
    match row with
    | .mark .comma :: row =>
      if startsWith .closeBrace row then some ([], row)
      else do
        let (x, row) ← entry fuel row
        let (entries, row) ← moreEntries fuel row
        return (x :: entries, row)
    | row => some ([], row)

/-- The clauses of a comprehension up to its closing mark. -/
def comprehension : Nat → Mark → List Lexeme → Option (List (Clause Tree) × List Lexeme)
  | 0, _, _ => none
  | fuel + 1, close, row =>
    if startsWith close row then some ([], row.tail)
    else match row with
      | .mark .forWord :: row => do
        let (target, row) ← targets fuel row
        let row ← expect? .inWord row
        let (source, row) ← operation fuel 0 row
        let (clauses, row) ← comprehension fuel close row
        return (.each target source :: clauses, row)
      | .mark .ifWord :: row => do
        let (condition, row) ← conditional fuel false row
        let (clauses, row) ← comprehension fuel close row
        return (.onlyIf condition :: clauses, row)
      | _ => none

/-- What a loop assigns to: an operand, or a tuple of several. -/
def targets : Nat → List Lexeme → Option (Tree × List Lexeme)
  | 0, _ => none
  | fuel + 1, row => do
    let (x, row) ← operand fuel row
    if startsWith .comma row then
      let (items, row) ← moreTargets fuel row
      return (.tuple (x :: items), row)
    return (x, row)

/-- The targets that follow one, each with the comma before it. -/
def moreTargets : Nat → List Lexeme → Option (List Tree × List Lexeme)
  | 0, _ => none
  | fuel + 1, row =>
    match row with
    | .mark .comma :: row =>
      if endsList row then some ([], row)
      else do
        let (x, row) ← operand fuel row
        let (items, row) ← moreTargets fuel row
        return (x :: items, row)
    | row => some ([], row)

/-- The arguments of a call up to its closing mark; `first` says whether none stands before. -/
def arguments : Nat → Bool → List Lexeme → Option (List (Argument Tree) × List Lexeme)
  | 0, _, _ => none
  | fuel + 1, first, row =>
    if startsWith .closeParen row then some ([], row)
    else do
      let row ← if first then some row else expect? .comma row
      if startsWith .closeParen row then return ([], row)
      let (arg, row) ← match row with
        | .mark .star :: row => do
          let (x, row) ← conditional fuel true row
          pure (Argument.spread x, row)
        | .mark .doubleStar :: row => do
          let (x, row) ← conditional fuel true row
          pure (Argument.spreadNamed x, row)
        | .name name :: .mark .assign :: row => do
          let (x, row) ← conditional fuel true row
          pure (Argument.named name x, row)
        | row => do
          let (x, row) ← conditional fuel true row
          pure (Argument.place x, row)
      let (args, row) ← arguments fuel false row
      return (arg :: args, row)

/-- The parameters of a function up to the mark that ends them; `first` says whether none stands
before. -/
def parameters : Nat → Bool → List Lexeme → Option (List (Param Tree) × List Lexeme)
  | 0, _, _ => none
  | fuel + 1, first, row =>
    if startsWith .closeParen row || startsWith .colon row then some ([], row)
    else do
      let row ← if first then some row else expect? .comma row
      if startsWith .closeParen row then return ([], row)
      let (param, row) ← match row with
        | .mark .star :: .name name :: row => some (Param.rest (some name), row)
        | .mark .star :: row => some (Param.rest none, row)
        | .mark .doubleStar :: .name name :: row => some (Param.restNamed name, row)
        | .name name :: .mark .assign :: row => do
          let (x, row) ← conditional fuel true row
          pure (Param.optional name x, row)
        | .name name :: row => some (Param.required name, row)
        | _ => none
      let (params, row) ← parameters fuel false row
      return (param :: params, row)

end

/-! ## Statements -/

/-- A statement that is part of a line. -/
def smallStatement (fuel : Nat) (row : List Lexeme) : Option (Statement × List Lexeme) :=
  match row with
  | .mark .passWord :: rest => some (.pass, rest)
  | .mark .breakWord :: rest => some (.leave, rest)
  | .mark .continueWord :: rest => some (.next, rest)
  | .mark .returnWord :: rest =>
    match rest with
    | [] | .lineEnd :: _ | .mark .semicolon :: _ => some (.give none, rest)
    | _ => do
      let (x, rest) ← expressions fuel false rest
      return (.give (some x), rest)
  | _ => do
    let (x, rest) ← expressions fuel false row
    match rest with
    | .mark .assign :: rest =>
      let (value, rest) ← expressions fuel false rest
      return (.assign x value, rest)
    | .mark m :: more => match updateOp? m with
      | some op => do
        let (value, rest) ← expressions fuel false more
        return (.update op x value, rest)
      | none => return (.evaluate x, rest)
    | _ => return (.evaluate x, rest)

/-- The statements of a line with semicolons between them, and perhaps one after the last. The row
may end in place of the line. -/
def lineStatements : Nat → List Lexeme → Option (List Statement × List Lexeme)
  | 0, _ => none
  | fuel + 1, row => do
    let (first, row) ← smallStatement fuel row
    match row with
    | [] => return ([first], [])
    | .lineEnd :: row => return ([first], row)
    | .mark .semicolon :: [] => return ([first], [])
    | .mark .semicolon :: .lineEnd :: row => return ([first], row)
    | .mark .semicolon :: row =>
      let (rest, row) ← lineStatements fuel row
      return (first :: rest, row)
    | _ => none

mutual

/-- A statement, or the statements of one line. -/
def statement : Nat → List Lexeme → Option (List Statement × List Lexeme)
  | 0, _ => none
  | fuel + 1, row =>
    match row with
    | .mark .defWord :: .name name :: rest => do
      let rest ← expect? .openParen rest
      let (params, rest) ← parameters fuel true rest
      let rest ← expect? .closeParen rest
      let (body, rest) ← suite fuel rest
      return ([.define row.length name params body], rest)
    | .mark .ifWord :: rest => do
      let (s, rest) ← branches fuel rest
      return ([s], rest)
    | .mark .forWord :: rest => do
      let (target, rest) ← targets fuel rest
      let rest ← expect? .inWord rest
      let (source, rest) ← expressions fuel false rest
      let (body, rest) ← suite fuel rest
      return ([.each target source body], rest)
    | _ => lineStatements fuel row

/-- The condition of a branch, its statements, and what is done otherwise. -/
def branches : Nat → List Lexeme → Option (Statement × List Lexeme)
  | 0, _ => none
  | fuel + 1, row => do
    let (condition, row) ← conditional fuel true row
    let (yes, row) ← suite fuel row
    match row with
    | .mark .elifWord :: row =>
      let (no, row) ← branches fuel row
      return (.branch condition yes [no], row)
    | .mark .elseWord :: row =>
      let (no, row) ← suite fuel row
      return (.branch condition yes no, row)
    | row => return (.branch condition yes [], row)

/-- A colon and the statements under it, on the same line or on lines of their own. -/
def suite : Nat → List Lexeme → Option (List Statement × List Lexeme)
  | 0, _ => none
  | fuel + 1, row => do
    match ← expect? .colon row with
    | .lineEnd :: .indent :: row => indented fuel row
    | .lineEnd :: _ => none
    | row => lineStatements fuel row

/-- Statements up to the end of their indentation. -/
def indented : Nat → List Lexeme → Option (List Statement × List Lexeme)
  | 0, _ => none
  | fuel + 1, row =>
    match row with
    | .outdent :: row => some ([], row)
    | row => do
      let (first, row) ← statement fuel row
      let (rest, row) ← indented fuel row
      return (first ++ rest, row)

end

/-- The statements of a row, between which line ends may stand. -/
def statementsFrom : Nat → List Lexeme → Option (List Statement)
  | 0, _ => none
  | fuel + 1, row =>
    match row with
    | [] => some []
    | .lineEnd :: row => statementsFrom fuel row
    | row => do
      let (first, row) ← statement fuel row
      return first ++ (← statementsFrom fuel row)

/-- The bound on calls for a row. -/
def fuelFor (row : List Lexeme) : Nat := 8 * row.length + 8

/-- The statements of a row. -/
def statements? (row : List Lexeme) : Option (List Statement) := statementsFrom (fuelFor row) row

end Mcs51.Expression
