/-!
# Blank characters and words

Blanks are the white space characters of the character standard. They separate words, and leading
and trailing ones are trimmed.

* `isBlank` is the table.
* `trimLeft`, `trimRight` and `trim` remove blanks at the ends.
* `words` splits a text at blanks.
-/

namespace PixelTurtle.Text

/-- White space: the ASCII controls from tab to carriage return and the four separators, the space,
and the spaces and line separators beyond ASCII. -/
def isBlank (c : Char) : Bool :=
  let n := c.toNat
  (9 ≤ n && n ≤ 13) || (0x1C ≤ n && n ≤ 0x20) ||
    (0x80 ≤ n &&
      (n == 0x85 || n == 0xA0 || n == 0x1680 || (0x2000 ≤ n && n ≤ 0x200A) || n == 0x2028 ||
        n == 0x2029 || n == 0x202F || n == 0x205F || n == 0x3000))

def trimLeft (cs : List Char) : List Char :=
  cs.dropWhile isBlank

def trimRight (cs : List Char) : List Char :=
  (cs.reverse.dropWhile isBlank).reverse

def trim (cs : List Char) : List Char :=
  trimRight (trimLeft cs)

/-- The characters of `cs` up to its first blank. -/
def word (cs : List Char) : List Char :=
  cs.takeWhile (!isBlank ·)

/-- What is left of `cs` from its first blank on. -/
def afterWord (cs : List Char) : List Char :=
  cs.dropWhile (!isBlank ·)

/-- The head of what `dropWhile` leaves fails the test. -/
theorem head_of_dropWhile {α : Type} {p : α → Bool} {l : List α} {a : α}
    (h : a ∈ (l.dropWhile p).head?) : p a = false := by
  have hhead := List.head?_dropWhile_not p l
  rwa [Option.mem_def.1 h] at hhead

theorem dropWhile_head {α : Type} {p : α → Bool} {l r : List α} {a : α}
    (h : l.dropWhile p = a :: r) : p a = false :=
  head_of_dropWhile (congrArg List.head? h)

/-- The first word of a trimmed text is not empty, so what follows it is shorter. -/
theorem length_afterWord_lt {cs rest : List Char} {c : Char} (h : trimLeft cs = c :: rest) :
    (afterWord (c :: rest)).length < cs.length := by
  have hc : isBlank c = false := dropWhile_head h
  have h₁ : afterWord (c :: rest) = afterWord rest := by simp [afterWord, hc]
  have h₂ : (afterWord rest).length ≤ rest.length := (List.dropWhile_sublist _).length_le
  have h₃ : (trimLeft cs).length ≤ cs.length := (List.dropWhile_sublist _).length_le
  rw [h, List.length_cons] at h₃
  rw [h₁]
  omega

/-- The maximal blank-free pieces of a text, in order. -/
def words (cs : List Char) : List (List Char) :=
  match _h : trimLeft cs with
  | [] => []
  | c :: rest => word (c :: rest) :: words (afterWord (c :: rest))
termination_by cs.length
decreasing_by exact length_afterWord_lt _h

end PixelTurtle.Text
