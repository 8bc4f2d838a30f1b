/-!
# Words to choose from

Where an instruction asks for one of two words, a tree that was built by hand may hold another one.
Such a word is kept as it is, and a written tree shows it again.

* `Choice a b` is one of the words `a` and `b`, or another word.
* `Choice.text` is the word, and `Choice.ofText` finds the choice of a word.
-/

namespace PixelTurtle

/-- One of the words `a` and `b`, or another word. -/
inductive Choice (a b : String)
  | first
  | second
  | other (word : String) (outside : word ≠ a ∧ word ≠ b)
  deriving DecidableEq

namespace Choice

variable {a b : String}

/-- The chosen word. -/
def text : Choice a b → String
  | .first => a
  | .second => b
  | .other word _ => word

/-- The choice of a word. -/
def ofText (word : String) : Choice a b :=
  if ha : word = a then .first
  else if hb : word = b then .second
  else .other word ⟨ha, hb⟩

end Choice

end PixelTurtle
