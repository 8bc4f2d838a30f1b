import PixelTurtle.Expr.Token
import PixelTurtle.Number.Numeral

/-!
# Parsing expressions

From the loosest to the tightest: comparisons, sums, products, signs, and last numerals, names and
parentheses. Binary operators group to the left.

* `comparison`, `sum` and `product` are chains of operators over operands of the next level.
* `operand` reads signs, numerals, names and parentheses. Its budget bounds the nesting.
* `Expr.parse` reads a whole text. A text that is just a name or a numeral is not split into tokens.
-/

namespace PixelTurtle

/-- Why a text is no expression. -/
inductive ParseError
  /-- A problem, with its column in the trimmed text. -/
  | malformed (p : Problem) (column : Nat)
  /-- A numeral whose digits have no value. -/
  | numeral (digits : List Char)
  /-- Too many signs and parentheses inside each other. -/
  | tooDeep
  deriving DecidableEq, Repr

namespace Expr

/-- Reads an expression off the tokens and returns what is left of them. -/
abbrev Parser := List Token → Except ParseError (Expr × List Token)

/-! ## Chains of operators -/

/-- The operators of a level. -/
abbrev Level := Symbol → Option BinOp

def comparisonLevel : Level
  | .eq => some .eq
  | .ne => some .ne
  | .lt => some .lt
  | .le => some .le
  | .gt => some .gt
  | .ge => some .ge
  | _ => none

def sumLevel : Level
  | .plus => some .add
  | .minus => some .sub
  | _ => none

def productLevel : Level
  | .times => some .mul
  | .slash => some .div
  | .percent => some .mod
  | _ => none

/-- The operator of a level at the start of the tokens, and the tokens after it. -/
def operator? (level : Level) : List Token → Option (BinOp × List Token)
  | ⟨.symbol s, _⟩ :: tokens => (level s).map fun op => (op, tokens)
  | _ => none

/-- Goes on with a chain whose left part is `e`, by at most `n` operators. -/
def chainFrom (level : Level) (operand : Parser) : Nat → Expr → Parser
  | 0, e, tokens => .ok (e, tokens)
  | n + 1, e, tokens =>
    match operator? level tokens with
    | none => .ok (e, tokens)
    | some (op, rest) =>
      match operand rest with
      | .error err => .error err
      | .ok (r, rest) => chainFrom level operand n (.bin (.known op) e r) rest

/-- A chain of operands joined by the operators of a level, by at most `n` of them. -/
def chain (level : Level) (n : Nat) (operand : Parser) : Parser := fun tokens =>
  match operand tokens with
  | .error err => .error err
  | .ok (e, rest) => chainFrom level operand n e rest

/-- Products of operands. -/
def product (n : Nat) (operand : Parser) : Parser :=
  chain productLevel n operand

/-- Sums of products. -/
def sum (n : Nat) (operand : Parser) : Parser :=
  chain sumLevel n (product n operand)

/-- Comparisons of sums. -/
def comparison (n : Nat) (operand : Parser) : Parser :=
  chain comparisonLevel n (sum n operand)

/-! ## Operands -/

/-- The sign that a symbol is. -/
def sign? : Symbol → Option UnaryOp
  | .plus => some .plus
  | .minus => some .minus
  | _ => none

/-- Requires a closing parenthesis after `e`. -/
def close (finish : Nat) (e : Expr) : Parser
  | ⟨.symbol .rparen, _⟩ :: tokens => .ok (e, tokens)
  | t :: _ => .error (.malformed .unclosed (t.pos + 1))
  | [] => .error (.malformed .unclosed (finish + 1))

/-- Signs, numerals, names and parentheses. The text has `finish` characters and at most `n` tokens.
A sign takes one unit of the budget and a pair of parentheses five. -/
def operand (finish n : Nat) : Nat → Parser
  | 0 => fun _ => .error .tooDeep
  | budget + 1 => fun tokens =>
    match tokens with
    | [] => .error (.malformed .unexpectedEnd (finish + 1))
    | ⟨.numeral digits, _⟩ :: rest =>
      match Number.Numeral.parse? digits with
      | some m => .ok (.num m.toFloat, rest)
      | none => .error (.numeral digits)
    | ⟨.ident name, _⟩ :: rest => .ok (.var name, rest)
    | ⟨.symbol s, pos⟩ :: rest =>
      match sign? s with
      | some op =>
        match operand finish n budget rest with
        | .error err => .error err
        | .ok (e, rest) => .ok (.unary op e, rest)
      | none =>
        if s = .lparen then
          match budget with
          | inner + 4 =>
            match comparison n (operand finish n inner) rest with
            | .error err => .error err
            | .ok (e, rest) => close finish e rest
          | _ => .error .tooDeep
        else .error (.malformed (.unexpectedSymbol s) (pos + 1))

/-- The budget of an expression for signs and parentheses inside each other. -/
def nestingBudget : Nat := 950

/-- Reads all the tokens of the trimmed `text` as one expression. -/
def ofTokens (text : List Char) (tokens : List Token) : Except ParseError Expr :=
  match comparison tokens.length (operand text.length tokens.length nestingBudget) tokens with
  | .error err => .error err
  | .ok (e, []) => .ok e
  | .ok (_, t :: rest) =>
    .error (.malformed (.leftover text ((t :: rest).map Token.lexeme)) (t.pos + 1))

/-- Reads a text as an expression. -/
def parse (cs : List Char) : Except ParseError Expr :=
  let text := Text.trim cs
  if text.isEmpty then .error (.malformed .empty 1)
  else if Name.isIdentifier text then .ok (.var (Name.canonical text))
  else
    match Number.finite? text with
    | some x => .ok (.num x)
    | none =>
      match Token.scan text with
      | .error (p, column) => .error (.malformed p column)
      | .ok tokens => ofTokens text tokens

end Expr

end PixelTurtle
