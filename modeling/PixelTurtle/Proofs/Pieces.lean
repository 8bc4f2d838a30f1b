import PixelTurtle.Proofs.Seams

/-!
# The pieces of a text

The tokens of a text lose nothing of it: between blanks stand the written forms of the tokens, one
after the other, and each of them is as long as it can be. There is only one way to take a text
apart like this, so that the pieces and the tokens determine each other.

* `Lexeme.IsWritten` says how a lexeme may be written, `Lexeme.StopsBefore` that what comes after it
  does not go on with it. `Lexeme.exists_run_of_read` and `Lexeme.read_of_isWritten` say that this
  is how lexemes are read.
* `Token.Piece` is a token with its written form and the blanks before it.
* `Token.ComesApart` says that a text consists of pieces, and `Token.scan_eq_ok_iff_comesApart` that
  these are the tokens of the text.
-/

namespace PixelTurtle

/-! ## Symbols -/

namespace Symbol

variable {c d : Char} {s : Symbol}

theorem double?_eq_some_iff : double? c d = some s ↔ s.text.toList = [c, d] := by
  constructor
  · intro h
    unfold double? at h
    split at h <;> cases h <;> rfl
  · intro h
    cases s <;> simp [text] at h <;> obtain ⟨rfl, rfl⟩ := h <;> rfl

theorem single?_eq_some_iff : single? c = some s ↔ s.text.toList = [c] := by
  constructor
  · intro h
    unfold single? at h
    split at h <;> cases h <;> rfl
  · intro h
    cases s <;> simp [text] at h <;> subst h <;> rfl

theorem length_text_le (s : Symbol) : s.text.toList.length ≤ 2 := by
  cases s <;> decide

theorem text_ne_nil (s : Symbol) : s.text.toList ≠ [] := by
  cases s <;> decide

theorem isBlank_of_text {run : List Char} (h : s.text.toList = c :: run) :
    Text.isBlank c = false := by
  cases s <;> simp [text] at h <;> obtain ⟨rfl, -⟩ := h <;> rfl

end Symbol

/-! ## Written lexemes -/

namespace Lexeme

/-- The written forms of a lexeme. A name may be written with capitals, and a numeral with
underscores, which must not come first. -/
def IsWritten : Lexeme → List Char → Prop
  | .symbol s, cs => cs = s.text.toList
  | .ident name, cs => Name.isIdentifier cs = true ∧ name = Name.canonical cs
  | .numeral digits, cs => cs.head? ≠ some '_' ∧ (∀ c ∈ cs, isNumeralPart c = true) ∧
    digits = cs.filter (· != '_') ∧ digits ≠ [] ∧ digits ≠ ['.'] ∧ digits.count '.' ≤ 1

/-- The lexeme that is written `cs` does not go on with the first character of `rest`. -/
def StopsBefore (l : Lexeme) (cs rest : List Char) : Prop :=
  ∀ d ∈ rest.head?,
    match l with
    | .symbol _ => ∀ s : Symbol, s.text.toList ≠ cs ++ [d]
    | .ident _ => Name.isIdentifier (cs ++ [d]) = false
    | .numeral _ => isNumeralPart d = false

section

variable {c : Char} {cs run rest : List Char} {l : Lexeme} {n : Nat}

theorem ofNumeral_eq_ok_iff :
    ofNumeral cs = .ok l ↔ l = .numeral (cs.filter (· != '_')) ∧
      cs.filter (· != '_') ≠ ['.'] ∧ (cs.filter (· != '_')).count '.' ≤ 1 := by
  unfold ofNumeral
  dsimp only
  split_ifs with hbad
  · rw [Bool.or_eq_true, beq_iff_eq, decide_eq_true_iff] at hbad
    refine iff_of_false nofun ?_
    rintro ⟨-, hpoint, hcount⟩
    rcases hbad with hbad | hbad
    · exact hpoint hbad
    · omega
  · rw [Bool.or_eq_true, beq_iff_eq, decide_eq_true_iff, not_or, Nat.not_lt] at hbad
    constructor
    · rintro ⟨⟩
      exact ⟨rfl, hbad⟩
    · rintro ⟨rfl, -⟩
      rfl

/-- Only names and numerals start with a character with which one of them goes on. -/
theorem read_of_isPart (hc : (Name.isPart c || isNumeralPart c) = true) (cs : List Char) :
    read c cs =
      if Text.isDigit c || c == '.' then
        (ofNumeral (c :: cs.takeWhile isNumeralPart)).map fun l =>
          (l, (cs.takeWhile isNumeralPart).length)
      else if Name.isStart c then
        .ok (.ident (Name.canonical (c :: cs.takeWhile Name.isPart)),
          (cs.takeWhile Name.isPart).length)
      else .error (.unexpectedChar c) := by
  have hdouble : cs.head?.bind (Symbol.double? c) = none := by
    cases cs with
    | nil => rfl
    | cons d cs =>
      show Symbol.double? c d = none
      unfold Symbol.double?
      split <;> first | rfl | exact absurd hc (by decide)
  have hsingle : Symbol.single? c = none := by
    unfold Symbol.single?
    split <;> first | rfl | exact absurd hc (by decide)
  have hlone : ¬ (c == '!' || c == '=') = true := by
    rw [Bool.or_eq_true, beq_iff_eq, beq_iff_eq]
    rintro (rfl | rfl)
    · exact absurd hc (by decide)
    · exact absurd hc (by decide)
  rw [read, hdouble, hsingle]
  simp only [if_neg hlone]

/-- What is read is a written lexeme, and it goes as far as it can. -/
theorem exists_run_of_read (h : read c cs = .ok (l, n)) :
    ∃ run rest, cs = run ++ rest ∧ run.length = n ∧ l.IsWritten (c :: run) ∧
      l.StopsBefore (c :: run) rest := by
  have hstops (p : Char → Bool) : ∀ d ∈ (cs.dropWhile p).head?, p d = false :=
    fun _ hd => Text.head_of_dropWhile hd
  unfold read at h
  split at h
  · rename_i s hs
    cases h
    cases cs with
    | nil => cases hs
    | cons d cs =>
      refine ⟨[d], cs, rfl, rfl, (Symbol.double?_eq_some_iff.1 hs).symm, fun e _ s' hs' => ?_⟩
      have hlength := s'.length_text_le
      rw [hs'] at hlength
      exact absurd hlength (by simp)
  · rename_i hdouble
    split at h
    · rename_i s hs
      cases h
      refine ⟨[], cs, rfl, rfl, (Symbol.single?_eq_some_iff.1 hs).symm, fun d hd s' hs' => ?_⟩
      rw [Option.mem_def.1 hd] at hdouble
      cases hdouble.symm.trans (Symbol.double?_eq_some_iff.2 hs')
    · split_ifs at h with hlone hdigit hstart
      · dsimp only at h
        cases hnum : ofNumeral (c :: cs.takeWhile isNumeralPart) with
        | error p =>
          rw [hnum] at h
          cases h
        | ok l' =>
          rw [hnum] at h
          cases h
          obtain ⟨rfl, hpoint, hcount⟩ := ofNumeral_eq_ok_iff.1 hnum
          have hc : c ≠ '_' := by
            rintro rfl
            exact absurd hdigit (by decide)
          have hpart : isNumeralPart c = true := by
            rw [isNumeralPart, hdigit]
            rfl
          refine ⟨_, _, List.takeWhile_append_dropWhile.symm, rfl,
            ⟨?_, ?_, rfl, ?_, hpoint, hcount⟩, hstops isNumeralPart⟩
          · exact fun h => hc (Option.some.inj h)
          · exact List.forall_mem_cons.2 ⟨hpart, fun d hd => List.mem_takeWhile_imp hd⟩
          · exact List.ne_nil_of_mem (List.mem_filter.2 ⟨List.mem_cons_self, bne_iff_ne.2 hc⟩)
      · cases h
        have hrun : (cs.takeWhile Name.isPart).all Name.isPart = true :=
          List.all_eq_true.2 fun d hd => List.mem_takeWhile_imp hd
        refine ⟨_, _, List.takeWhile_append_dropWhile.symm, rfl, ⟨?_, rfl⟩, fun d hd => ?_⟩
        · rw [Name.isIdentifier, hstart, hrun]
          rfl
        · show (Name.isStart c && (cs.takeWhile Name.isPart ++ [d]).all Name.isPart) = false
          rw [List.all_append, List.all_cons, hstops Name.isPart d hd, Bool.false_and,
            Bool.and_false, Bool.and_false]

/-- A written lexeme that goes as far as it can is read. -/
theorem read_of_isWritten (hl : l.IsWritten (c :: run)) (hstops : l.StopsBefore (c :: run) rest) :
    read c (run ++ rest) = .ok (l, run.length) := by
  cases l with
  | symbol s =>
    match run with
    | [] =>
      have hdouble : rest.head?.bind (Symbol.double? c) = none := by
        rw [Option.bind_eq_none_iff]
        intro d hd
        rw [Option.eq_none_iff_forall_ne_some]
        intro s' hs'
        exact hstops d hd s' (Symbol.double?_eq_some_iff.1 hs')
      rw [List.nil_append, read, hdouble, Symbol.single?_eq_some_iff.2 hl.symm]
      rfl
    | [d] =>
      have hdouble : ([d] ++ rest).head?.bind (Symbol.double? c) = some s :=
        Symbol.double?_eq_some_iff.2 hl.symm
      rw [read, hdouble]
      rfl
    | d :: e :: run =>
      have hlength := s.length_text_le
      rw [← hl] at hlength
      exact absurd hlength (by simp)
  | ident name =>
    obtain ⟨hname, rfl⟩ := hl
    have hpart := isPart_of_mem hname List.mem_cons_self
    simp only [Name.isIdentifier, Bool.and_eq_true, List.all_eq_true] at hname
    have hrun : (run ++ rest).takeWhile Name.isPart = run := by
      refine takeWhile_append_stops hname.2 fun d hd => ?_
      have hlonger : (Name.isStart c && (run ++ [d]).all Name.isPart) = false := hstops d hd
      rwa [hname.1, List.all_append, List.all_eq_true.2 hname.2, Bool.true_and, Bool.true_and,
        List.all_cons, List.all_nil, Bool.and_true] at hlonger
    rw [read_of_isPart (by rw [hpart]; rfl), isDigit_of_isStart hname.1, if_neg Bool.false_ne_true,
      if_pos hname.1, hrun]
  | numeral digits =>
    obtain ⟨hfirst, hparts, rfl, -, hpoint, hcount⟩ := hl
    have hpart := hparts c List.mem_cons_self
    have hdigit : (Text.isDigit c || c == '.') = true := by
      rw [isNumeralPart, Bool.or_eq_true, beq_iff_eq] at hpart
      rcases hpart with hpart | rfl
      · exact hpart
      · exact absurd rfl hfirst
    have hrun : (run ++ rest).takeWhile isNumeralPart = run :=
      takeWhile_append_stops (fun d hd => hparts d (List.mem_cons_of_mem _ hd)) hstops
    rw [read_of_isPart (by rw [hpart, Bool.or_true]), if_pos hdigit, hrun,
      ofNumeral_eq_ok_iff.2 ⟨rfl, hpoint, hcount⟩]
    rfl

theorem IsWritten.ne_nil (h : l.IsWritten cs) : cs ≠ [] := by
  rintro rfl
  cases l with
  | symbol s => exact s.text_ne_nil h.symm
  | ident name => cases h.1
  | numeral digits => exact h.2.2.2.1 h.2.2.1

theorem IsWritten.isBlank_head (h : l.IsWritten (c :: run)) : Text.isBlank c = false := by
  cases l with
  | symbol s => exact Symbol.isBlank_of_text h.symm
  | ident name => exact isBlank_of_isPart (isPart_of_mem h.1 List.mem_cons_self)
  | numeral digits =>
    by_contra hblank
    rw [Bool.not_eq_false] at hblank
    cases (h.2.1 c List.mem_cons_self).symm.trans (breaks_of_isBlank hblank).numeral

end

end Lexeme

/-! ## Pieces -/

namespace Token

/-- A token, with its written form and the blanks before it. -/
structure Piece where
  blanks : List Char
  spelling : List Char
  token : Token

namespace Piece

def text (p : Piece) : List Char :=
  p.blanks ++ p.spelling

/-- The piece stands in a text, with `before` characters before it and the text `after` after it. -/
structure Stands (p : Piece) (before : Nat) (after : List Char) : Prop where
  blanks : ∀ c ∈ p.blanks, Text.isBlank c = true
  pos : p.token.pos = before + p.blanks.length
  written : p.token.lexeme.IsWritten p.spelling
  stops : p.token.lexeme.StopsBefore p.spelling after

end Piece

/-- The text `cs`, which starts after `pos` characters, consists of the pieces `ps` and the blanks
`last`. -/
structure ComesApart (pos : Nat) (cs : List Char) (ps : List Piece) (last : List Char) : Prop where
  text : cs = ps.flatMap Piece.text ++ last
  blank_last : ∀ c ∈ last, Text.isBlank c = true
  stands : ∀ before p after, ps = before ++ p :: after →
    p.Stands (pos + (before.flatMap Piece.text).length) (after.flatMap Piece.text ++ last)

section Pieces

variable {pos : Nat} {cs rest last : List Char} {p : Piece} {ps : List Piece} {ts : List Token}
  {c : Char}

theorem comesApart_nil_iff :
    ComesApart pos cs [] last ↔ cs = last ∧ ∀ c ∈ last, Text.isBlank c = true := by
  constructor
  · rintro ⟨htext, hlast, -⟩
    exact ⟨htext, hlast⟩
  · rintro ⟨htext, hlast⟩
    exact ⟨htext, hlast, fun before p after h => by simp at h⟩

/-- The first piece comes off the front of a text. -/
theorem comesApart_cons_iff :
    ComesApart pos cs (p :: ps) last ↔ ∃ rest, cs = p.text ++ rest ∧ p.Stands pos rest ∧
      ComesApart (pos + p.text.length) rest ps last := by
  constructor
  · rintro ⟨htext, hlast, hstands⟩
    refine ⟨ps.flatMap Piece.text ++ last, ?_, hstands [] p ps rfl, rfl, hlast, ?_⟩
    · rw [htext, List.flatMap_cons, List.append_assoc]
    · intro before q after hps
      have hq := hstands (p :: before) q after (congrArg (p :: ·) hps)
      rwa [List.flatMap_cons, List.length_append, ← Nat.add_assoc] at hq
  · rintro ⟨rest, rfl, hp, htext, hlast, hstands⟩
    refine ⟨?_, hlast, fun before q after hps => ?_⟩
    · rw [htext, List.flatMap_cons, List.append_assoc]
    · cases before with
      | nil =>
        cases hps
        rwa [← htext]
      | cons b before =>
        cases hps
        rw [List.flatMap_cons, List.length_append, ← Nat.add_assoc]
        exact hstands before q after rfl

/-- A blank before the text belongs to its first piece, or to the blanks at its end. -/
theorem ComesApart.blank (h : ComesApart (pos + 1) cs ps last) (hc : Text.isBlank c = true) :
    ∃ ps' last', ComesApart pos (c :: cs) ps' last' ∧
      ps'.map Piece.token = ps.map Piece.token := by
  cases ps with
  | nil =>
    obtain ⟨rfl, hblank⟩ := comesApart_nil_iff.1 h
    refine ⟨[], c :: cs, comesApart_nil_iff.2 ⟨rfl, ?_⟩, rfl⟩
    exact List.forall_mem_cons.2 ⟨hc, hblank⟩
  | cons p ps =>
    obtain ⟨rest, rfl, hp, hps⟩ := comesApart_cons_iff.1 h
    have hpos : p.token.pos = pos + (c :: p.blanks).length := by
      rw [hp.pos, List.length_cons]
      omega
    refine ⟨{ p with blanks := c :: p.blanks } :: ps, last, comesApart_cons_iff.2 ?_, rfl⟩
    refine ⟨rest, rfl, ⟨List.forall_mem_cons.2 ⟨hc, hp.blanks⟩, hpos, hp.written, hp.stops⟩, ?_⟩
    show ComesApart (pos + (p.text.length + 1)) rest ps last
    rwa [Nat.add_comm p.text.length, ← Nat.add_assoc]

/-! ## Tokens and pieces -/

/-- **The tokens of a text are pieces of it.** -/
theorem exists_comesApart_of_scanFrom (h : scanFrom pos cs = .ok ts) :
    ∃ ps last, ComesApart pos cs ps last ∧ ps.map Piece.token = ts := by
  fun_induction scanFrom pos cs generalizing ts with
  | case1 pos =>
    cases h
    exact ⟨[], [], comesApart_nil_iff.2 ⟨rfl, List.forall_mem_nil _⟩, rfl⟩
  | case2 pos c cs hc ih =>
    obtain ⟨ps, last, hps, rfl⟩ := ih h
    exact hps.blank hc
  | case3 pos c cs hc p hr => cases h
  | case4 pos c cs hc l n hr e he ih => cases h
  | case5 pos c cs hc l n hr us hus ih =>
    cases h
    obtain ⟨run, rest, rfl, rfl, hwritten, hstops⟩ := Lexeme.exists_run_of_read hr
    rw [List.drop_left] at ih hus
    obtain ⟨ps, last, hps, rfl⟩ := ih hus
    refine ⟨⟨[], c :: run, ⟨l, pos⟩⟩ :: ps, last, comesApart_cons_iff.2 ⟨rest, rfl, ?_, hps⟩, rfl⟩
    exact ⟨List.forall_mem_nil _, rfl, hwritten, hstops⟩

/-- **The pieces of a text are its tokens.** -/
theorem scanFrom_of_comesApart (h : ComesApart pos cs ps last) :
    scanFrom pos cs = .ok (ps.map Piece.token) := by
  induction ps generalizing pos cs with
  | nil =>
    obtain ⟨rfl, hblank⟩ := comesApart_nil_iff.1 h
    rw [← List.append_nil cs, scanFrom_blanks_append hblank, scanFrom]
    rfl
  | cons p ps ih =>
    obtain ⟨rest, rfl, hp, hps⟩ := comesApart_cons_iff.1 h
    obtain ⟨blanks, spelling, ⟨l, n⟩⟩ := p
    obtain ⟨hblanks, hpos, hwritten, hstops⟩ := hp
    dsimp only at hblanks hpos hwritten hstops
    obtain ⟨c, run, rfl⟩ := List.exists_cons_of_ne_nil hwritten.ne_nil
    have hc : ¬ Text.isBlank c = true := by
      rw [hwritten.isBlank_head]
      exact Bool.false_ne_true
    have hrest : n + run.length + 1 = pos + (blanks ++ c :: run).length := by
      rw [hpos, List.length_append, List.length_cons]
      omega
    have htail : scanFrom (n + run.length + 1) rest = .ok (ps.map Piece.token) := by
      rw [hrest]
      exact ih hps
    rw [Piece.text, List.append_assoc, scanFrom_blanks_append hblanks, ← hpos,
      List.cons_append, scanFrom, if_neg hc, Lexeme.read_of_isWritten hwritten hstops]
    dsimp only
    rw [List.drop_left, htail]
    rfl

theorem ComesApart.le_pos (h : ComesApart pos cs ps last) (hp : p ∈ ps) :
    pos ≤ p.token.pos := by
  obtain ⟨before, after, rfl⟩ := List.append_of_mem hp
  rw [(h.stands before p after rfl).pos]
  omega

/-- The tokens come one after the other. -/
theorem ComesApart.pairwise (h : ComesApart pos cs ps last) :
    (ps.map Piece.token).Pairwise fun t u => t.pos < u.pos := by
  induction ps generalizing pos cs with
  | nil => exact .nil
  | cons p ps ih =>
    obtain ⟨rest, rfl, hp, hps⟩ := comesApart_cons_iff.1 h
    refine .cons (fun u hu => ?_) (ih hps)
    obtain ⟨q, hq, rfl⟩ := List.mem_map.1 hu
    have hlater := hps.le_pos hq
    have hspelling := List.length_pos_of_ne_nil hp.written.ne_nil
    rw [Piece.text, List.length_append] at hlater
    rw [hp.pos]
    omega

end Pieces

/-- **Scanning loses nothing.** A text has the tokens `ts` if and only if these are the tokens of
pieces of which, with blanks at the end, the text consists. A piece is a token in a written form
that goes as far as it can, after blanks, and the position of the token is where its written form
starts. The positions increase. -/
theorem scan_eq_ok_iff_comesApart (cs : List Char) (ts : List Token) :
    scan cs = .ok ts ↔
      ∃ ps last, ComesApart 0 cs ps last ∧ ps.map Piece.token = ts ∧
        ts.Pairwise fun t u => t.pos < u.pos := by
  constructor
  · intro h
    obtain ⟨ps, last, hps, rfl⟩ := exists_comesApart_of_scanFrom h
    exact ⟨ps, last, hps, rfl, hps.pairwise⟩
  · rintro ⟨ps, last, hps, rfl, -⟩
    exact scanFrom_of_comesApart hps

end Token

end PixelTurtle
