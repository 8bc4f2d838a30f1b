import PixelTurtle.Text.Blank

/-!
# Source lines

A source text is a sequence of lines. Blocks are told by indentation, where a tab counts for four
blanks, and comments run to the end of the line.

* `splitLines` splits a text, whatever its line ends are.
* `stripComment` cuts a comment off.
* `Line` is a line with its measured indentation and its trimmed content, `Line.ofRaw` measures it,
  and `linesOf` measures all lines of a text.
-/

namespace PixelTurtle.Source

/-- Splits a text at its line ends, given the characters of the current line in reverse. -/
def splitLinesFrom (current : List Char) : List Char → List (List Char)
  | [] => [current.reverse]
  | '\r' :: '\n' :: cs => current.reverse :: splitLinesFrom [] cs
  | c :: cs =>
    if c == '\n' || c == '\r' then current.reverse :: splitLinesFrom [] cs
    else splitLinesFrom (c :: current) cs

/-- The lines of a text. A line ends with a line feed, a carriage return or both. -/
def splitLines (cs : List Char) : List (List Char) :=
  splitLinesFrom [] cs

/-- The text before the first comment mark. -/
def stripComment : List Char → List Char
  | [] => []
  | '/' :: '/' :: _ => []
  | c :: cs => if c == '#' then [] else c :: stripComment cs

/-- A source line. -/
structure Line where
  /-- Counted from one. -/
  number : Nat
  /-- The width of the indentation. -/
  indent : Nat
  /-- The number of characters of the indentation. -/
  offset : Nat
  /-- The trimmed text without its comment. -/
  content : List Char
  raw : List Char
  deriving DecidableEq, Repr

/-- The characters of an indentation. -/
def isIndent (c : Char) : Bool :=
  c == ' ' || c == '\t'

/-- How far a character of the indentation moves. -/
def indentWidth (c : Char) : Nat :=
  if c == '\t' then 4 else 1

namespace Line

/-- Measures a line. -/
def ofRaw (number : Nat) (raw : List Char) : Line where
  number := number
  indent := (raw.takeWhile isIndent).foldl (fun width c => width + indentWidth c) 0
  offset := (raw.takeWhile isIndent).length
  content := Text.trim (stripComment (raw.dropWhile isIndent))
  raw := raw

/-- Whether a line holds a statement. -/
def isStatement (line : Line) : Bool :=
  !line.content.isEmpty

end Line

/-- The measured lines of a text. -/
def linesOf (source : List Char) : List Line :=
  (splitLines source).mapIdx fun i raw => Line.ofRaw (i + 1) raw

end PixelTurtle.Source
