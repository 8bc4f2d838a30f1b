import PixelTurtle.Text.Lowercase

/-!
# Names

A name starts with an ASCII letter or an underscore, and goes on with these and ASCII digits. Names
are kept in lower case.

* `isIdentifier` accepts whole names.
* `canonical` is the form in which a word is kept.
-/

namespace PixelTurtle.Name

def isStart (c : Char) : Bool :=
  c.isAlpha || c == '_'

def isPart (c : Char) : Bool :=
  c.isAlphanum || c == '_'

/-- Whether a text is a name. -/
def isIdentifier : List Char → Bool
  | [] => false
  | c :: cs => isStart c && cs.all isPart

/-- A word in lower case. -/
def canonical (cs : List Char) : String :=
  String.ofList (Text.lower cs)

end PixelTurtle.Name
