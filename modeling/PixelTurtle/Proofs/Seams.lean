import PixelTurtle.Proofs.ExprRoundTrip

/-!
# Seams between texts

A lexeme ends before a character with which no name, no numeral and no symbol goes on, such as a
blank or a closing parenthesis. At such a seam a text comes apart: its tokens are those of the text
before the seam, and then those of the text after it, as if each stood alone.

* `Breaks` are the characters that make a seam.
* `scanFrom_append` takes a text apart at a seam, and `scanFrom_add` moves a text to another place.
  At a blank, `scan_append_blank` puts the two together.
* `Scans.append` and `Scans.untrimmed` say it of the lexemes.
-/

namespace PixelTurtle

/-! ## Characters that make a seam -/

/-- No lexeme that starts before the character goes on with it. -/
structure Breaks (d : Char) : Prop where
  equals : d ≠ '='
  part : Name.isPart d = false
  numeral : Lexeme.isNumeralPart d = false

theorem breaks_rparen : Breaks ')' := ⟨by decide, rfl, rfl⟩

theorem isDigit_of_isBlank {c : Char} (h : Text.isBlank c = true) : Text.isDigit c = false := by
  have hdecimal : Text.isDecimal c = false := by
    by_contra hd
    rw [Bool.not_eq_false] at hd
    rw [isBlank_of_isDecimal hd] at h
    cases h
  rw [Text.isDigit, hdecimal, Bool.false_or, Bool.and_eq_false_iff]
  simp only [Text.isBlank, Bool.or_eq_true, Bool.and_eq_true, decide_eq_true_eq, beq_iff_eq] at h
  refine or_iff_not_imp_left.2 fun _ => ?_
  simp only [Text.otherDigits, List.any_cons, List.any_nil, Bool.or_eq_false_iff,
    Bool.and_eq_false_iff, decide_eq_false_iff_not, and_true]
  and_intros <;> omega

theorem breaks_of_isBlank {c : Char} (h : Text.isBlank c = true) : Breaks c where
  equals := by
    rintro rfl
    cases h
  part := by
    by_contra hpart
    rw [Bool.not_eq_false] at hpart
    rw [isBlank_of_isPart hpart] at h
    cases h
  numeral := by
    rw [Lexeme.isNumeralPart, isDigit_of_isBlank h, Bool.false_or, Bool.or_eq_false_iff,
      beq_eq_false_iff_ne, beq_eq_false_iff_ne]
    constructor <;> rintro rfl <;> cases h

/-! ## Lexemes before a seam -/

section Reading

variable {a b : List Char} {c d : Char} {l : Lexeme} {n : Nat}

theorem takeWhile_append_cons {α : Type} {p : α → Bool} {x : α} (h : p x = false) (l r : List α) :
    (l ++ x :: r).takeWhile p = l.takeWhile p := by
  induction l with
  | nil => exact List.takeWhile_cons_of_neg (by rw [h]; exact Bool.false_ne_true)
  | cons y l ih =>
    rw [List.cons_append, List.takeWhile_cons, List.takeWhile_cons, ih]

/-- The lexeme at the start of a text is not changed by what comes after a seam. -/
theorem Lexeme.read_append (hd : Breaks d) (c : Char) (a b : List Char) :
    Lexeme.read c (a ++ d :: b) = Lexeme.read c a := by
  have hdouble : (a ++ d :: b).head?.bind (Symbol.double? c) = a.head?.bind (Symbol.double? c) := by
    cases a with
    | nil =>
      show Symbol.double? c d = none
      unfold Symbol.double?
      split <;> first | rfl | exact absurd rfl hd.equals
    | cons x a => rfl
  rw [Lexeme.read, Lexeme.read, hdouble, takeWhile_append_cons hd.numeral,
    takeWhile_append_cons hd.part]

theorem Lexeme.length_of_read (h : Lexeme.read c a = .ok (l, n)) : n ≤ a.length := by
  have hrun (p : Char → Bool) : (a.takeWhile p).length ≤ a.length :=
    (List.takeWhile_sublist p).length_le
  unfold Lexeme.read at h
  split at h
  · rename_i s hs
    cases h
    cases a with
    | nil => cases hs
    | cons x a => exact Nat.succ_pos _
  · split at h
    · cases h
      exact Nat.zero_le _
    · split_ifs at h
      · dsimp only at h
        cases hl : ofNumeral (c :: a.takeWhile isNumeralPart) with
        | error p =>
          rw [hl] at h
          cases h
        | ok l =>
          rw [hl] at h
          cases h
          exact hrun _
      · cases h
        exact hrun _

end Reading

/-! ## Scanning -/

namespace Token

/-- The token in a text before which `k` characters were put. -/
def shift (k : Nat) (t : Token) : Token :=
  { t with pos := t.pos + k }

/-- A text that stands elsewhere has the same tokens, or the same problem, elsewhere. -/
theorem scanFrom_add (pos k : Nat) (cs : List Char) :
    scanFrom (pos + k) cs = match scanFrom pos cs with
      | .error (p, column) => .error (p, column + k)
      | .ok ts => .ok (ts.map (shift k)) := by
  fun_induction scanFrom pos cs with
  | case1 pos =>
    rw [scanFrom]
    rfl
  | case2 pos c cs hc ih => rw [scanFrom, if_pos hc, Nat.add_right_comm, ih]
  | case3 pos c cs hc p hr =>
    rw [scanFrom, if_neg hc, hr, Nat.add_right_comm]
  | case4 pos c cs hc l n hr e he ih =>
    rw [scanFrom, if_neg hc, hr]
    simp only [he] at ih
    simp only [Nat.add_right_comm _ k, ih]
  | case5 pos c cs hc l n hr ts hts ih =>
    rw [scanFrom, if_neg hc, hr]
    simp only [hts] at ih
    simp only [Nat.add_right_comm _ k, ih, List.map_cons, shift]

theorem scanFrom_blanks_append {blanks : List Char} (h : ∀ c ∈ blanks, Text.isBlank c = true)
    (pos : Nat) (cs : List Char) :
    scanFrom pos (blanks ++ cs) = scanFrom (pos + blanks.length) cs := by
  induction blanks generalizing pos with
  | nil => rfl
  | cons c blanks ih =>
    obtain ⟨hc, hrest⟩ := List.forall_mem_cons.1 h
    rw [List.cons_append, scanFrom, if_pos hc, ih hrest, List.length_cons, Nat.add_assoc,
      Nat.add_comm 1]

/-- **A text comes apart at a seam.** -/
theorem scanFrom_append {d : Char} (hd : Breaks d) (pos : Nat) (a b : List Char) :
    scanFrom pos (a ++ d :: b) = do
      let ts ← scanFrom pos a
      let us ← scanFrom (pos + a.length) (d :: b)
      return ts ++ us := by
  fun_induction scanFrom pos a with
  | case1 pos =>
    exact (bind_pure _).symm
  | case2 pos c cs hc ih =>
    rw [List.cons_append, scanFrom, if_pos hc, ih, List.length_cons]
    simp only [Nat.add_right_comm pos 1, Nat.add_assoc]
  | case3 pos c cs hc p hr =>
    rw [List.cons_append, scanFrom, if_neg hc, Lexeme.read_append hd, hr]
    rfl
  | case4 pos c cs hc l n hr e he ih =>
    rw [List.cons_append, scanFrom, if_neg hc, Lexeme.read_append hd, hr]
    simp only [List.drop_append_of_le_length (Lexeme.length_of_read hr), ih, he]
    rfl
  | case5 pos c cs hc l n hr ts hts ih =>
    have hlen := Lexeme.length_of_read hr
    have hpos : pos + n + 1 + (cs.drop n).length = pos + (c :: cs).length := by
      rw [List.length_drop, List.length_cons]
      omega
    rw [List.cons_append, scanFrom, if_neg hc, Lexeme.read_append hd, hr]
    simp only [List.drop_append_of_le_length hlen, ih, hts, hpos]
    cases scanFrom (pos + (c :: cs).length) (d :: b) with
    | error e => rfl
    | ok us => rfl

/-- **Scanning is compositional at blanks.** The tokens of two texts with a blank between them are
those of the first text and then those of the second, moved to where it stands. A problem of the
first text is the problem of the whole, and so is a problem of the second if the first has none. -/
theorem scan_append_blank {c : Char} (hc : Text.isBlank c = true) (a b : List Char) :
    scan (a ++ c :: b) = match scan a, scan b with
      | .ok ts, .ok us => .ok (ts ++ us.map (shift (a.length + 1)))
      | .ok _, .error (p, column) => .error (p, a.length + 1 + column)
      | .error e, _ => .error e := by
  have hright : scanFrom (0 + a.length) (c :: b) = match scan b with
      | .error (p, column) => .error (p, column + (a.length + 1))
      | .ok us => .ok (us.map (shift (a.length + 1))) := by
    rw [scanFrom, if_pos hc, Nat.add_assoc, scanFrom_add, scan]
  rw [scan, scanFrom_append (breaks_of_isBlank hc), hright, ← scan]
  cases scan a with
  | error e => rfl
  | ok ts =>
    cases scan b with
    | error e =>
      show Except.error (e.1, e.2 + (a.length + 1)) = .error (e.1, a.length + 1 + e.2)
      rw [Nat.add_comm]
    | ok us => rfl

/-- A no-break space parts `<` from `=`, and what is wrong with the second text is found there. -/
theorem scan_append_blank_noBreakSpace :
    Text.isBlank '\u00a0' = true ∧
      scan ("step <".toList ++ '\u00a0' :: "- 1.5".toList) =
        .ok [⟨.ident "step", 0⟩, ⟨.symbol .lt, 5⟩, ⟨.symbol .minus, 7⟩,
          ⟨.numeral "1.5".toList, 9⟩] ∧
      scan ("step <".toList ++ '\u00a0' :: "= 1.5".toList) = .error (.lone '=', 8) ∧
      scan ("step !".toList ++ '\u00a0' :: "= 1.5".toList) = .error (.lone '!', 6) := by
  have hblank : Text.isBlank '\u00a0' = true := rfl
  have hstep : scan "step <".toList = .ok [⟨.ident "step", 0⟩, ⟨.symbol .lt, 5⟩] := by
    decide +kernel
  have hminus : scan "- 1.5".toList = .ok [⟨.symbol .minus, 0⟩, ⟨.numeral "1.5".toList, 2⟩] := by
    decide +kernel
  have hequals : scan "= 1.5".toList = .error (.lone '=', 1) := by decide +kernel
  have hnot : scan "step !".toList = .error (.lone '!', 6) := by decide +kernel
  refine ⟨hblank, ?_, ?_, ?_⟩
  · rw [scan_append_blank hblank, hstep, hminus]
    rfl
  · rw [scan_append_blank hblank, hstep, hequals]
    rfl
  · rw [scan_append_blank hblank, hnot]

end Token

/-! ## Lexemes of joined texts -/

section Joining

variable {cs a b blanks : List Char} {ls la lb : List Lexeme} {ts : List Token} {d : Char}

/-- The lexemes of a text do not depend on where it stands. -/
theorem scans_of_scan (h : Token.scan cs = .ok ts) : Scans cs (ts.map Token.lexeme) := by
  intro pos
  refine ⟨ts.map (Token.shift pos), ?_, ?_⟩
  · rw [← Nat.zero_add pos, Token.scanFrom_add, ← Token.scan, h, Nat.zero_add]
  · rw [List.map_map]
    rfl

/-- The lexemes of two texts that are joined at a seam. -/
theorem Scans.append (ha : Scans a la) (hd : Breaks d) (hb : Scans (d :: b) lb) :
    Scans (a ++ d :: b) (la ++ lb) := by
  intro pos
  obtain ⟨ts, hts, hla⟩ := ha pos
  obtain ⟨us, hus, hlb⟩ := hb (pos + a.length)
  refine ⟨ts ++ us, ?_, by rw [List.map_append, hla, hlb]⟩
  rw [Token.scanFrom_append hd, hts]
  simp only [bind, Except.bind, hus]
  rfl

theorem Scans.blanks_append (h : Scans cs ls) (hblanks : ∀ c ∈ blanks, Text.isBlank c = true) :
    Scans (blanks ++ cs) ls := by
  intro pos
  rw [Token.scanFrom_blanks_append hblanks]
  exact h _

theorem exists_trimRight (cs : List Char) :
    ∃ after, cs = Text.trimRight cs ++ after ∧ ∀ c ∈ after, Text.isBlank c = true := by
  refine ⟨(cs.reverse.takeWhile Text.isBlank).reverse, ?_,
    fun c hc => List.mem_takeWhile_imp (List.mem_reverse.1 hc)⟩
  rw [Text.trimRight, ← List.reverse_append, List.takeWhile_append_dropWhile, List.reverse_reverse]

theorem exists_trim (cs : List Char) :
    ∃ before after, cs = before ++ (Text.trim cs ++ after) ∧
      (∀ c ∈ before, Text.isBlank c = true) ∧ ∀ c ∈ after, Text.isBlank c = true := by
  obtain ⟨after, hinner, hafter⟩ := exists_trimRight (Text.trimLeft cs)
  refine ⟨cs.takeWhile Text.isBlank, after, ?_, fun c hc => List.mem_takeWhile_imp hc, hafter⟩
  rw [Text.trim, ← hinner]
  exact List.takeWhile_append_dropWhile.symm

/-- A text goes on after a seam, whatever blanks are around it. -/
theorem Scans.untrimmed (h : Scans (Text.trim cs) la) (hd : Breaks d) (hb : Scans (d :: b) lb) :
    Scans (cs ++ d :: b) (la ++ lb) := by
  obtain ⟨before, after, hcs, hbefore, hafter⟩ := exists_trim cs
  rw [hcs, List.append_assoc, List.append_assoc]
  refine Scans.blanks_append ?_ hbefore
  have hrest : Scans (after ++ d :: b) lb := hb.blanks_append hafter
  cases after with
  | nil => exact h.append hd hb
  | cons c after => exact h.append (breaks_of_isBlank (hafter c List.mem_cons_self)) hrest

end Joining

end PixelTurtle
