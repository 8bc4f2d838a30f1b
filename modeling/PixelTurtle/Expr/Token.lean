import PixelTurtle.Expr.Basic
import PixelTurtle.Expr.Name
import PixelTurtle.Text.Blank
import PixelTurtle.Text.Digit

/-!
# Tokens of expressions

The text of an expression is a sequence of numerals, names and symbols, with blanks between them.

* `Symbol` are the symbols, `Lexeme` the three kinds of tokens.
* `Lexeme.read` reads the lexeme at the start of a text.
* `Token.scan` splits a whole text, or tells what is wrong with it and in which column.
-/

namespace PixelTurtle

/-- The symbols of expressions. -/
inductive Symbol
  | lparen
  | rparen
  | plus
  | minus
  | times
  | slash
  | percent
  | eq
  | ne
  | lt
  | le
  | gt
  | ge
  deriving DecidableEq, Repr

def Symbol.text : Symbol → String
  | .lparen => "("
  | .rparen => ")"
  | .plus => "+"
  | .minus => "-"
  | .times => "*"
  | .slash => "/"
  | .percent => "%"
  | .eq => "=="
  | .ne => "!="
  | .lt => "<"
  | .le => "<="
  | .gt => ">"
  | .ge => ">="

/-- The symbols of two characters. -/
def Symbol.double? : Char → Char → Option Symbol
  | '=', '=' => some .eq
  | '!', '=' => some .ne
  | '<', '=' => some .le
  | '>', '=' => some .ge
  | _, _ => none

/-- The symbols of one character. -/
def Symbol.single? : Char → Option Symbol
  | '(' => some .lparen
  | ')' => some .rparen
  | '+' => some .plus
  | '-' => some .minus
  | '*' => some .times
  | '/' => some .slash
  | '%' => some .percent
  | '<' => some .lt
  | '>' => some .gt
  | _ => none

/-- A token without its place. A numeral is kept as written, without underscores. -/
inductive Lexeme
  | numeral (digits : List Char)
  | ident (name : String)
  | symbol (s : Symbol)
  deriving DecidableEq, Repr

def Lexeme.text : Lexeme → String
  | .numeral digits => String.ofList digits
  | .ident name => name
  | .symbol s => s.text

/-- A token, with the number of characters before it. -/
structure Token where
  lexeme : Lexeme
  pos : Nat
  deriving DecidableEq, Repr

/-- What is wrong with an expression. -/
inductive Problem
  | empty
  | lone (c : Char)
  | unexpectedChar (c : Char)
  | badNumeral
  | unexpectedEnd
  | unexpectedSymbol (s : Symbol)
  | unclosed
  | leftover (text : List Char) (rest : List Lexeme)
  deriving DecidableEq, Repr

def Problem.message : Problem → String
  | .empty => "Empty expression"
  | .lone c => "Unexpected '" ++ c.toString ++ "' in expression"
  | .unexpectedChar c => "Unexpected character '" ++ c.toString ++ "' in expression"
  | .badNumeral => "Invalid number literal"
  | .unexpectedEnd => "Unexpected end of expression"
  | .unexpectedSymbol s => "Unexpected token '" ++ s.text ++ "' in expression"
  | .unclosed => "Expected ')'"
  | .leftover text rest =>
    "Unexpected extra tokens in expression: '" ++ String.ofList text ++ "' -> leftover: " ++
      " ".intercalate (rest.map Lexeme.text)

namespace Lexeme

/-- The characters that go on a numeral. -/
def isNumeralPart (c : Char) : Bool :=
  Text.isDigit c || c == '.' || c == '_'

/-- A numeral without its underscores has a digit and at most one point. -/
def ofNumeral (raw : List Char) : Except Problem Lexeme :=
  let digits := raw.filter (· != '_')
  if digits == ['.'] || 1 < digits.count '.' then .error .badNumeral else .ok (.numeral digits)

/-- The lexeme at the start of `c :: cs`, where `c` is no blank, and how many characters of `cs`
belong to it. -/
def read (c : Char) (cs : List Char) : Except Problem (Lexeme × Nat) :=
  match cs.head?.bind (Symbol.double? c) with
  | some s => .ok (.symbol s, 1)
  | none =>
    match Symbol.single? c with
    | some s => .ok (.symbol s, 0)
    | none =>
      if c == '!' || c == '=' then .error (.lone c)
      else if Text.isDigit c || c == '.' then
        let run := cs.takeWhile isNumeralPart
        (ofNumeral (c :: run)).map fun l => (l, run.length)
      else if Name.isStart c then
        let run := cs.takeWhile Name.isPart
        .ok (.ident (Name.canonical (c :: run)), run.length)
      else .error (.unexpectedChar c)

end Lexeme

namespace Token

/-- The tokens of a text that starts after `pos` characters. A problem comes with its column. -/
def scanFrom (pos : Nat) : List Char → Except (Problem × Nat) (List Token)
  | [] => .ok []
  | c :: cs =>
    if Text.isBlank c then scanFrom (pos + 1) cs
    else
      match Lexeme.read c cs with
      | .error p => .error (p, pos + 1)
      | .ok (l, n) =>
        match scanFrom (pos + n + 1) (cs.drop n) with
        | .error e => .error e
        | .ok tokens => .ok (⟨l, pos⟩ :: tokens)
termination_by cs => cs.length
decreasing_by all_goals simp only [List.length_cons, List.length_drop]; omega

/-- The tokens of a text. A problem comes with its column, counted from one. -/
def scan (cs : List Char) : Except (Problem × Nat) (List Token) :=
  scanFrom 0 cs

end Token

end PixelTurtle
