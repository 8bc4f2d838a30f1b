/-!
# Code points

A text from outside is a sequence of code points. It may hold surrogates without a partner, which
are code points but no characters. For each of them stands a character of a plane that has no
assigned characters, so that lengths, positions and character classes come out right.

* `ofCodePoint` is the character of a code point, `codePoint` the code point of a character.
* `codePoint_ofCodePoint` says that a surrogate survives.
-/

namespace PixelTurtle.Text

/-- Whether a code point is a surrogate. -/
def isSurrogate (n : Nat) : Bool :=
  0xD800 ≤ n && n < 0xE000

/-- The distance of a surrogate from the character that stands for it. -/
def surrogateShift : Nat := 0xC0000 - 0xD800

/-- The character of a code point. -/
def ofCodePoint (n : Nat) : Char :=
  if isSurrogate n then .ofNat (n + surrogateShift) else .ofNat n

/-- The code point of a character. -/
def codePoint (c : Char) : Nat :=
  if isSurrogate (c.toNat - surrogateShift) then c.toNat - surrogateShift else c.toNat

/-- A surrogate is found again in the character that stands for it. -/
theorem codePoint_ofCodePoint {n : Nat} (h : isSurrogate n = true) :
    codePoint (ofCodePoint n) = n := by
  have hn : 0xD800 ≤ n ∧ n < 0xE000 := by simpa [isSurrogate] using h
  have hv : (n + surrogateShift).isValidChar := by
    right
    simp only [surrogateShift]
    omega
  have ht : (Char.ofNat (n + surrogateShift)).toNat = n + surrogateShift := by
    rw [Char.ofNat, dif_pos hv]
    rfl
  simp [ofCodePoint, codePoint, h, ht]

end PixelTurtle.Text
