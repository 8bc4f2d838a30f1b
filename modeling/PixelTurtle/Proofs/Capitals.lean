import PixelTurtle.Proofs.Placement
import PixelTurtle.Proofs.Pieces

/-!
# Capitals

Programs may be written in capitals, in small letters or in both. A text in which all capitals of
ASCII are made small is read as the same program, and what is wrong with it is wrong with the same
line. Letters beyond ASCII stay as they are, but the form of a small sigma depends on the letters
around it, which may be capitals.

* `Caseless` functions of characters do not tell a capital from its small letter.
* `Text.lower_map_toLower`, `Number.Numeral.parse?_map_toLower` and `Token.scanFrom_map_toLower` say
  that words, numerals and tokens do not depend on capitals. `Expr.parse_map_toLower` says it of
  expressions: only what is shown of a leftover text differs.
* `Agree` compares readings by their results and by the lines of their complaints.
* `Line.agree_statement` compares the readings of a line, kind by kind, and `agree_block` those of
  lines. `parse_toLower` is the result for programs.
-/

namespace PixelTurtle

/-! ## Characters -/

/-- The function does not tell a capital of ASCII from its small letter. -/
def Caseless {α : Type} (f : Char → α) : Prop :=
  ∀ c : Char, f c.toLower = f c

section Characters

variable {α : Type} {f : Char → α} {c d : Char}

theorem toLower_capital : ∀ n < 26, (Char.ofNat (n + 65)).toLower = Char.ofNat (n + 97) := by
  decide

theorem capital_or_toLower_eq (c : Char) :
    (∃ n < 26, c = Char.ofNat (n + 65)) ∨ c.toLower = c := by
  by_cases h : 65 ≤ c.toNat ∧ c.toNat ≤ 90
  · refine .inl ⟨c.toNat - 65, by omega, ?_⟩
    rw [Nat.sub_add_cancel h.1, Char.ofNat_toNat]
  · exact .inr (dif_neg h)

/-- It is enough to look at the capitals. -/
theorem caseless_of_capitals
    (h : ∀ n < 26, f (Char.ofNat (n + 97)) = f (Char.ofNat (n + 65))) : Caseless f := by
  intro c
  rcases capital_or_toLower_eq c with ⟨n, hn, rfl⟩ | hc
  · rw [toLower_capital n hn, h n hn]
  · rw [hc]

theorem Caseless.comp (h : Caseless f) : f ∘ Char.toLower = f :=
  funext h

/-- The characters of a class without capitals stay as they are. -/
theorem toLower_eq_self (p : Char → Bool) (h : ∀ n < 26, p (Char.ofNat (n + 65)) = false)
    (hc : p c = true) : c.toLower = c := by
  rcases capital_or_toLower_eq c with ⟨n, hn, rfl⟩ | hlower
  · cases hc.symm.trans (h n hn)
  · exact hlower

theorem isAlpha_letter : ∀ n < 26, (Char.ofNat (n + 97)).isAlpha = true ∧
    (Char.ofNat (n + 65)).isAlpha = true := by
  decide

/-- A character that is no letter is the small form of itself only. -/
theorem toLower_eq_iff (hd : d.isAlpha = false) : c.toLower = d ↔ c = d := by
  rcases capital_or_toLower_eq c with ⟨n, hn, rfl⟩ | hc
  · obtain ⟨hsmall, hcapital⟩ := isAlpha_letter n hn
    rw [toLower_capital n hn]
    refine iff_of_false ?_ ?_ <;> rintro rfl
    · cases hsmall.symm.trans hd
    · cases hcapital.symm.trans hd
  · rw [hc]

theorem toLower_beq (hd : d.isAlpha = false) (c : Char) : (c.toLower == d) = (c == d) := by
  rw [Bool.eq_iff_iff, beq_iff_eq, beq_iff_eq, toLower_eq_iff hd]

theorem caseless_bne (hd : d.isAlpha = false) : Caseless (· != d) :=
  fun c => congrArg not (toLower_beq hd c)

theorem toNat_toLower_beq {n : Nat} (hn : 0x80 ≤ n) (c : Char) :
    (c.toLower.toNat == n) = (c.toNat == n) := by
  rcases capital_or_toLower_eq c with ⟨k, hk, rfl⟩ | hc
  · have hcode : ∀ k < 26, (Char.ofNat (k + 97)).toNat < 0x80 ∧
        (Char.ofNat (k + 65)).toNat < 0x80 := by
      decide
    have := hcode k hk
    rw [toLower_capital k hk, Bool.eq_iff_iff, beq_iff_eq, beq_iff_eq]
    omega
  · rw [hc]

/-- A text without letters is the small form of itself only. -/
theorem map_toLower_eq_iff {cs ds : List Char} (hds : ds.any Char.isAlpha = false) :
    cs.map Char.toLower = ds ↔ cs = ds := by
  induction ds generalizing cs with
  | nil => exact List.map_eq_nil_iff
  | cons d ds ih =>
    obtain ⟨hd, hds⟩ := Bool.or_eq_false_iff.1 hds
    cases cs with
    | nil => exact iff_of_false nofun nofun
    | cons c cs =>
      rw [List.map_cons, List.cons_eq_cons, List.cons_eq_cons, toLower_eq_iff hd, ih hds]

theorem map_toLower_beq {cs ds : List Char} (hds : ds.any Char.isAlpha = false) :
    (cs.map Char.toLower == ds) = (cs == ds) := by
  rw [Bool.eq_iff_iff, beq_iff_eq, beq_iff_eq, map_toLower_eq_iff hds]

/-- A text starts with a character that is no letter, if its small form does. -/
theorem map_toLower_ne_cons (hd : d.isAlpha = false) {cs : List Char}
    (h : ∀ tail, cs = d :: tail → False) (tail : List Char) :
    cs.map Char.toLower = d :: tail → False := by
  intro hcs
  obtain ⟨c, cs, rfl, hc, -⟩ := List.map_eq_cons_iff.1 hcs
  exact h cs (by rw [(toLower_eq_iff hd).1 hc])

theorem map_toLower_ne_cons_cons {e : Char} (hd : d.isAlpha = false) (he : e.isAlpha = false)
    {cs : List Char} (h : ∀ tail, c = d → cs = e :: tail → False) (tail : List Char)
    (hc : c.toLower = d) : cs.map Char.toLower = e :: tail → False :=
  map_toLower_ne_cons he (fun tail => h tail ((toLower_eq_iff hd).1 hc)) tail

theorem caseless_toLower : Caseless Char.toLower := caseless_of_capitals (by decide)

theorem caseless_isBlank : Caseless Text.isBlank := caseless_of_capitals (by decide)

theorem caseless_isIndent : Caseless Source.isIndent := caseless_of_capitals (by decide)

theorem caseless_decimalValue? : Caseless Text.decimalValue? := caseless_of_capitals (by decide)

theorem caseless_isDecimal : Caseless Text.isDecimal := caseless_of_capitals (by decide)

theorem caseless_isDigit : Caseless Text.isDigit := caseless_of_capitals (by decide +kernel)

theorem caseless_isNumeralPart : Caseless Lexeme.isNumeralPart :=
  caseless_of_capitals (by decide +kernel)

theorem caseless_isStart : Caseless Name.isStart := caseless_of_capitals (by decide)

theorem caseless_isPart : Caseless Name.isPart := caseless_of_capitals (by decide)

theorem caseless_single? : Caseless Symbol.single? := caseless_of_capitals (by decide)

theorem caseless_isCased : Caseless Text.isCased := caseless_of_capitals (by decide +kernel)

theorem caseless_lowerChar : Caseless Text.lowerChar := caseless_of_capitals (by decide +kernel)

/-- No letter is looked through. -/
theorem isCaseIgnorable_of_isAlpha (h : c.isAlpha = true) : Text.isCaseIgnorable c = false := by
  have hranges : ∀ r ∈ Text.caseIgnorableRanges, r.2 < 65 ∨ 90 < r.1 ∧ r.2 < 97 ∨ 122 < r.1 := by
    decide +kernel
  have hletter : (65 ≤ c.toNat ∧ c.toNat ≤ 90) ∨ (97 ≤ c.toNat ∧ c.toNat ≤ 122) := by
    change (c.isUpper || c.isLower) = true at h
    rwa [Bool.or_eq_true, isUpper_iff, isLower_iff] at h
  refine List.any_eq_false.2 fun r hr => ?_
  have := hranges r hr
  rw [Bool.and_eq_true, decide_eq_true_eq, decide_eq_true_eq]
  omega

theorem caseless_isCaseIgnorable : Caseless Text.isCaseIgnorable := by
  refine caseless_of_capitals fun n hn => ?_
  obtain ⟨hsmall, hcapital⟩ := isAlpha_letter n hn
  rw [isCaseIgnorable_of_isAlpha hsmall, isCaseIgnorable_of_isAlpha hcapital]

end Characters

/-! ## Texts -/

namespace Text

theorem trimLeft_map_toLower (cs : List Char) :
    trimLeft (cs.map Char.toLower) = (trimLeft cs).map Char.toLower := by
  rw [trimLeft, trimLeft, List.dropWhile_map, caseless_isBlank.comp]

theorem trimRight_map_toLower (cs : List Char) :
    trimRight (cs.map Char.toLower) = (trimRight cs).map Char.toLower := by
  rw [trimRight, trimRight, ← List.map_reverse, List.dropWhile_map, caseless_isBlank.comp,
    List.map_reverse]

theorem trim_map_toLower (cs : List Char) :
    trim (cs.map Char.toLower) = (trim cs).map Char.toLower := by
  rw [trim, trimLeft_map_toLower, trimRight_map_toLower, trim]

theorem words_map_toLower (cs : List Char) :
    words (cs.map Char.toLower) = (words cs).map (List.map Char.toLower) := by
  have hbreak : Caseless (!isBlank ·) := fun c => congrArg not (caseless_isBlank c)
  fun_induction words cs with
  | case1 cs h =>
    rw [words, trimLeft_map_toLower, h]
    rfl
  | case2 cs c rest h ih =>
    rw [words, trimLeft_map_toLower, h]
    show word ((c :: rest).map Char.toLower) :: words (afterWord ((c :: rest).map Char.toLower)) = _
    rw [List.map_cons (l := words _), ← ih, word, word, afterWord, afterWord, List.takeWhile_map,
      List.dropWhile_map, hbreak.comp]

theorem lowerSigma_map_toLower (afterLetter : Bool) (rest : List Char) :
    lowerSigma afterLetter (rest.map Char.toLower) = lowerSigma afterLetter rest := by
  rw [lowerSigma, List.dropWhile_map, caseless_isCaseIgnorable.comp, List.head?_map, Option.any_map,
    lowerSigma]
  simp only [caseless_isCased _]

/-- The letters around a sigma decide its form, whether they are capitals or not. -/
theorem lowerFrom_map_toLower (afterLetter : Bool) (cs : List Char) :
    lowerFrom afterLetter (cs.map Char.toLower) = lowerFrom afterLetter cs := by
  have hascii : Caseless fun c => decide (c.toNat < 0x80) := caseless_of_capitals (by decide)
  induction cs generalizing afterLetter with
  | nil => rfl
  | cons c cs ih =>
    have hc : c.toLower.toNat < 0x80 ↔ c.toNat < 0x80 := decide_eq_decide.1 (hascii c)
    have hafter : lowerFrom.letterAfter afterLetter c.toLower =
        lowerFrom.letterAfter afterLetter c := by
      rw [lowerFrom.letterAfter, lowerFrom.letterAfter, caseless_isCaseIgnorable,
        caseless_isCased]
    rw [List.map_cons, lowerFrom, lowerFrom, hafter, caseless_toLower, caseless_lowerChar,
      lowerSigma_map_toLower, toNat_toLower_beq (by decide)]
    simp only [hc, ih]

theorem lower_map_toLower (cs : List Char) : lower (cs.map Char.toLower) = lower cs :=
  lowerFrom_map_toLower false cs

end Text

namespace Name

theorem canonical_map_toLower (cs : List Char) :
    canonical (cs.map Char.toLower) = canonical cs := by
  rw [canonical, Text.lower_map_toLower, canonical]

theorem isIdentifier_map_toLower (cs : List Char) :
    isIdentifier (cs.map Char.toLower) = isIdentifier cs := by
  cases cs with
  | nil => rfl
  | cons c cs =>
    rw [List.map_cons, isIdentifier, isIdentifier, caseless_isStart, List.all_map,
      caseless_isPart.comp]

end Name

/-! ## Numerals -/

namespace Number

theorem ofDigits_map_toLower (ds : List Char) : ofDigits (ds.map Char.toLower) = ofDigits ds := by
  rw [ofDigits, List.foldl_map, ofDigits]
  simp only [caseless_decimalValue? _]

namespace Numeral

theorem sign_map_toLower (cs : List Char) :
    sign (cs.map Char.toLower) = ((sign cs).1, (sign cs).2.map Char.toLower) := by
  fun_cases sign cs with
  | case1 cs => rfl
  | case2 cs => rfl
  | case3 cs hminus hplus =>
    rw [sign]
    · exact map_toLower_ne_cons rfl hminus
    · exact map_toLower_ne_cons rfl hplus

theorem fraction_map_toLower (cs : List Char) :
    fraction (cs.map Char.toLower) =
      ((fraction cs).1.map Char.toLower, (fraction cs).2.map Char.toLower) := by
  fun_cases fraction cs with
  | case1 cs =>
    show (_, _) = (_, _)
    rw [List.takeWhile_map, List.dropWhile_map, caseless_isDecimal.comp]
  | case2 cs hpoint =>
    rw [fraction]
    · rfl
    · exact map_toLower_ne_cons rfl hpoint

/-- The mark of an exponent may be a capital. -/
theorem exponent?_map_toLower (cs : List Char) :
    exponent? (cs.map Char.toLower) = exponent? cs := by
  have hmark : Caseless fun c => c == 'e' || c == 'E' := caseless_of_capitals (by decide)
  cases cs with
  | nil => rfl
  | cons c cs =>
    have hc := hmark c
    dsimp only at hc
    simp only [List.map_cons, exponent?, hc, sign_map_toLower, List.isEmpty_map, List.all_map,
      caseless_isDecimal.comp, ofDigits_map_toLower]

theorem parse?_map_toLower (cs : List Char) : parse? (cs.map Char.toLower) = parse? cs := by
  simp only [parse?, sign_map_toLower, List.takeWhile_map, List.dropWhile_map,
    caseless_isDecimal.comp, fraction_map_toLower, List.isEmpty_map, exponent?_map_toLower,
    ← List.map_append, ofDigits_map_toLower, List.length_map]

end Numeral

theorem finite?_map_toLower (cs : List Char) : finite? (cs.map Char.toLower) = finite? cs := by
  rw [finite?, Numeral.parse?_map_toLower, finite?]

end Number

/-! ## Expressions -/

namespace Symbol

theorem any_isAlpha_text (s : Symbol) : s.text.toList.any Char.isAlpha = false := by
  cases s <;> rfl

theorem double?_toLower (c d : Char) : double? c.toLower d.toLower = double? c d := by
  refine Option.ext fun s => ?_
  rw [double?_eq_some_iff, double?_eq_some_iff, eq_comm, eq_comm (b := [c, d])]
  show [c, d].map Char.toLower = _ ↔ _
  exact map_toLower_eq_iff s.any_isAlpha_text

end Symbol

/-- The lexeme at the start of a text does not depend on capitals. -/
theorem Lexeme.read_map_toLower (c : Char) (cs : List Char) :
    read c.toLower (cs.map Char.toLower) = read c cs := by
  have hdouble : (cs.map Char.toLower).head?.bind (Symbol.double? c.toLower) =
      cs.head?.bind (Symbol.double? c) := by
    cases cs with
    | nil => rfl
    | cons d cs => exact Symbol.double?_toLower c d
  have hnumeral : (cs.takeWhile isNumeralPart).map Char.toLower = cs.takeWhile isNumeralPart := by
    refine (List.map_congr_left fun d hd => ?_).trans (List.map_id _)
    exact toLower_eq_self isNumeralPart (by decide +kernel) (List.mem_takeWhile_imp hd)
  rw [read, hdouble, caseless_single?, caseless_isDigit, caseless_isStart, toLower_beq rfl,
    toLower_beq rfl, toLower_beq rfl, List.takeWhile_map, List.takeWhile_map,
    caseless_isNumeralPart.comp, caseless_isPart.comp, hnumeral, read]
  split
  · rfl
  · split
    · rfl
    · split_ifs with hlone hdigit hstart
      · rw [toLower_eq_self (fun c => c == '!' || c == '=') (by decide) hlone]
      · rw [toLower_eq_self (fun c => Text.isDigit c || c == '.') (by decide +kernel) hdigit]
      · dsimp only
        rw [← List.map_cons, Name.canonical_map_toLower, List.length_map]
      · rw [toLower_eq_self (!Name.isStart ·) (by decide) (by simpa using hstart)]

theorem Token.scanFrom_map_toLower (pos : Nat) (cs : List Char) :
    scanFrom pos (cs.map Char.toLower) = scanFrom pos cs := by
  fun_induction scanFrom pos cs with
  | case1 pos => rw [List.map_nil, scanFrom]
  | case2 pos c cs hc ih => rw [List.map_cons, scanFrom, caseless_isBlank, if_pos hc, ih]
  | case3 pos c cs hc p hr =>
    rw [List.map_cons, scanFrom, caseless_isBlank, if_neg hc, Lexeme.read_map_toLower, hr]
  | case4 pos c cs hc l n hr e he ih =>
    rw [List.map_cons, scanFrom, caseless_isBlank, if_neg hc, Lexeme.read_map_toLower, hr]
    dsimp only
    rw [← List.map_drop, ih, he]
  | case5 pos c cs hc l n hr ts hts ih =>
    rw [List.map_cons, scanFrom, caseless_isBlank, if_neg hc, Lexeme.read_map_toLower, hr]
    dsimp only
    rw [← List.map_drop, ih, hts]

/-- A text that differs in the capitals has the same value, or is malformed as well. -/
theorem Expr.parse_map_toLower (cs : List Char) :
    parse (cs.map Char.toLower) = parse cs ∨
      ∃ p p' column, parse (cs.map Char.toLower) = .error (.malformed p column) ∧
        parse cs = .error (.malformed p' column) := by
  unfold parse
  simp only [Text.trim_map_toLower, List.isEmpty_map, Name.isIdentifier_map_toLower,
    Name.canonical_map_toLower, Number.finite?_map_toLower, Token.scan, Token.scanFrom_map_toLower]
  split_ifs
  · exact .inl rfl
  · exact .inl rfl
  · split
    · exact .inl rfl
    · split
      · exact .inl rfl
      · unfold ofTokens
        rw [List.length_map]
        split
        · exact .inl rfl
        · exact .inl rfl
        · exact .inr ⟨_, _, _, rfl, rfl⟩

/-! ## Parameters of colors -/

theorem Amount.parseUnsigned?_map_toLower (cs : List Char) :
    parseUnsigned? (cs.map Char.toLower) = parseUnsigned? cs := by
  have hhead {d : Char} (hd : d.isAlpha = false) :
      ((cs.map Char.toLower).head? == some d) = (cs.head? == some d) := by
    cases cs with
    | nil => rfl
    | cons c cs => exact toLower_beq hd c
  rw [parseUnsigned?, Name.isIdentifier_map_toLower, Name.canonical_map_toLower, hhead rfl,
    hhead rfl, Number.finite?_map_toLower, parseUnsigned?]

theorem HsvParam.toOption_parseOffset (sign : UnaryOp) (raw body : List Char) :
    (parseOffset sign raw body).toOption = (Amount.parseUnsigned? body).map (.offset sign) := by
  unfold parseOffset
  cases Amount.parseUnsigned? body <;> rfl

theorem HsvParam.toOption_parse_map_toLower_of_unsigned {cs : List Char} (hnil : cs ≠ [])
    (hignore : cs ≠ ['_']) (hplus : ∀ body, cs ≠ '+' :: body) (hminus : ∀ body, cs ≠ '-' :: body) :
    (parse (cs.map Char.toLower)).toOption = (Amount.parseUnsigned? cs).map .absolute := by
  rw [parse, Amount.parseUnsigned?_map_toLower]
  · cases Amount.parseUnsigned? cs <;> rfl
  · exact fun h => hnil (List.map_eq_nil_iff.1 h)
  · exact fun h => hignore ((map_toLower_eq_iff rfl).1 h)
  · exact map_toLower_ne_cons rfl hplus
  · exact map_toLower_ne_cons rfl hminus

/-- The parameter is the same, if there is one. -/
theorem HsvParam.toOption_parse_map_toLower (cs : List Char) :
    (parse (cs.map Char.toLower)).toOption = (parse cs).toOption := by
  fun_cases parse cs with
  | case1 => rfl
  | case2 => rfl
  | case3 body =>
    show (parseOffset _ _ _).toOption = _
    rw [toOption_parseOffset, toOption_parseOffset, Amount.parseUnsigned?_map_toLower]
  | case4 body =>
    show (parseOffset _ _ _).toOption = _
    rw [toOption_parseOffset, toOption_parseOffset, Amount.parseUnsigned?_map_toLower]
  | case5 raw hnil hignore hplus hminus a ha =>
    rw [toOption_parse_map_toLower_of_unsigned hnil hignore hplus hminus, ha]
    rfl
  | case6 raw hnil hignore hplus hminus ha =>
    rw [toOption_parse_map_toLower_of_unsigned hnil hignore hplus hminus, ha]
    rfl

namespace Source

/-! ## Lines -/

theorem splitLinesFrom_map_toLower (current cs : List Char) :
    splitLinesFrom (current.map Char.toLower) (cs.map Char.toLower) =
      (splitLinesFrom current cs).map (List.map Char.toLower) := by
  fun_induction splitLinesFrom current cs with
  | case1 current =>
    rw [List.map_nil, splitLinesFrom, ← List.map_reverse]
    rfl
  | case2 current cs ih =>
    show splitLinesFrom _ ('\r' :: '\n' :: cs.map Char.toLower) = _
    rw [splitLinesFrom, ← List.map_nil (f := Char.toLower), ih, ← List.map_reverse]
    rfl
  | case3 current c cs hpair hc ih =>
    rw [List.map_cons, splitLinesFrom, toLower_beq rfl, toLower_beq rfl, if_pos hc,
      ← List.map_nil (f := Char.toLower), ih, ← List.map_reverse]
    · rfl
    · exact map_toLower_ne_cons_cons rfl rfl hpair
  | case4 current c cs hpair hc ih =>
    rw [List.map_cons, splitLinesFrom, toLower_beq rfl, toLower_beq rfl, if_neg hc, ← List.map_cons,
      ih]
    exact map_toLower_ne_cons_cons rfl rfl hpair

theorem splitLines_map_toLower (cs : List Char) :
    splitLines (cs.map Char.toLower) = (splitLines cs).map (List.map Char.toLower) :=
  splitLinesFrom_map_toLower [] cs

theorem stripComment_map_toLower (cs : List Char) :
    stripComment (cs.map Char.toLower) = (stripComment cs).map Char.toLower := by
  fun_induction stripComment cs with
  | case1 => rfl
  | case2 => rfl
  | case3 c cs hpair hc =>
    rw [List.map_cons, stripComment, toLower_beq rfl, if_pos hc]
    · rfl
    · exact map_toLower_ne_cons_cons rfl rfl hpair
  | case4 c cs hpair hc ih =>
    rw [List.map_cons, stripComment, toLower_beq rfl, if_neg hc, ih]
    · rfl
    · exact map_toLower_ne_cons_cons rfl rfl hpair

/-- The line with the capitals of its text made small. -/
def Line.small (line : Line) : Line :=
  { line with content := line.content.map Char.toLower, raw := line.raw.map Char.toLower }

theorem Line.ofRaw_map_toLower (n : Nat) (raw : List Char) :
    Line.ofRaw n (raw.map Char.toLower) = (Line.ofRaw n raw).small := by
  have hwidth : Caseless indentWidth := caseless_of_capitals (by decide)
  unfold Line.ofRaw Line.small
  simp only [List.takeWhile_map, List.dropWhile_map, caseless_isIndent.comp, List.foldl_map,
    hwidth _, List.length_map, stripComment_map_toLower, Text.trim_map_toLower]

theorem linesOf_map_toLower (source : List Char) :
    linesOf (source.map Char.toLower) = (linesOf source).map Line.small := by
  rw [linesOf, splitLines_map_toLower, linesOf]
  refine List.ext_getElem ?_ fun i h₁ h₂ => ?_
  · simp only [List.length_mapIdx, List.length_map]
  · simp only [List.getElem_mapIdx, List.getElem_map, Line.ofRaw_map_toLower]

/-! ## Readings -/

/-- The line of a complaint. -/
def Error.line? : Error → Option Nat
  | .malformed _ line _ => some line
  | .numeral _ => none

/-- Both readings succeed with the same result, or both fail, and if one has a complaint, the other
has one about the same line. -/
def Agree {α : Type} (x y : Except Error α) : Prop :=
  x.mapError Error.line? = y.mapError Error.line?

section Agree

variable {α β : Type} {x y : Except Error α}

theorem Agree.refl (x : Except Error α) : Agree x x := rfl

theorem Agree.bind {f g : α → Except Error β} (h : Agree x y) (hfg : ∀ a, Agree (f a) (g a)) :
    Agree (x >>= f) (y >>= g) := by
  cases x with
  | error e =>
    cases y with
    | error e' => exact congrArg Except.error (Except.error.inj h)
    | ok b => cases h
  | ok a =>
    cases y with
    | error e' => cases h
    | ok b =>
      cases h
      exact hfg a

theorem agree_bind_map {γ : Type} {g : α → γ} {x : Except Error γ} {f' : γ → Except Error β}
    {f : α → Except Error β} (h : x = y.map g) (hf : ∀ a, Agree (f' (g a)) (f a)) :
    Agree (x >>= f') (y >>= f) := by
  subst h
  cases y with
  | error e => exact .refl _
  | ok a => exact hf a

theorem Agree.ok_iff (h : Agree x y) (a : α) : x = .ok a ↔ y = .ok a := by
  rw [← Host.mapError_eq_ok (f := Error.line?), h, Host.mapError_eq_ok]

theorem exists_malformed_iff {n : Nat} :
    (∃ c column, x = .error (.malformed c n column)) ↔
      x.mapError Error.line? = .error (some n) := by
  constructor
  · rintro ⟨c, column, rfl⟩
    rfl
  · intro h
    match x, h with
    | .error (.malformed c _ column), rfl => exact ⟨c, column, rfl⟩

theorem Agree.malformed_iff (h : Agree x y) (n : Nat) :
    (∃ c column, x = .error (.malformed c n column)) ↔
      ∃ c column, y = .error (.malformed c n column) := by
  rw [exists_malformed_iff, exists_malformed_iff, h]

end Agree

/-! ## Statements -/

theorem untilText?_map_toLower (cs : List Char) :
    untilText? (cs.map Char.toLower) = (untilText? cs).map (List.map Char.toLower) := by
  match cs with
  | [] | [_] | [_, _] | [_, _, _] | [_, _, _, _] => rfl
  | u :: n :: t :: i :: l :: rest =>
    have hdotted {n : Nat} (hn : 0x80 ≤ n) := toNat_toLower_beq hn i
    simp only [List.map_cons, untilText?, caseless_toLower _, hdotted (show 0x80 ≤ 0x130 by decide),
      hdotted (show 0x80 ≤ 0x131 by decide)]
    split_ifs
    · cases rest with
      | nil => rfl
      | cons c rest =>
        simp only [List.map_cons, caseless_isBlank _]
        split_ifs
        · rw [← List.map_cons, Text.trimLeft_map_toLower]
          rfl
        · rfl
    · rfl

namespace Line

-- Two complaints about one line agree by definition, whatever they say and wherever they point.

theorem agree_expression (line : Line) (text : List Char) (k k' : Nat) :
    Agree (line.small.expression (text.map Char.toLower) k) (line.expression text k') := by
  unfold expression
  rcases Expr.parse_map_toLower text with h | ⟨p, p', column, h, h'⟩
  · rw [h]
    split
    · rfl
    · rfl
    · rfl
    · rfl
  · rw [h, h']
    rfl

theorem agree_assigned (line : Line) : Agree line.small.assigned line.assigned := by
  have hequals : Caseless (· != '=') := caseless_bne rfl
  unfold assigned expressionAtEnd
  show Agree (line.small.expression (((line.content.map Char.toLower).dropWhile _).drop 1) _) _
  rw [List.dropWhile_map, hequals.comp, ← List.map_drop]
  exact agree_expression ..

/-- The same header comes before the colon, or the same is wrong with it. -/
theorem beforeColon_small (line : Line) (keyword : String) :
    line.small.beforeColon keyword =
      (line.beforeColon keyword).map (List.map Char.toLower) := by
  have hcolon : Caseless (· != ':') := caseless_bne rfl
  have hafter : ((line.content.map Char.toLower).reverse.takeWhile (· != ':')).reverse =
      (line.content.reverse.takeWhile (· != ':')).reverse.map Char.toLower := by
    rw [← List.map_reverse, List.takeWhile_map, hcolon.comp, List.map_reverse]
  have hcontent : line.small.content = line.content.map Char.toLower := rfl
  unfold beforeColon
  simp only [hcontent, hafter, List.length_map, Text.trim_map_toLower, List.isEmpty_map,
    ← List.map_take, Text.trimRight_map_toLower]
  split_ifs
  · rfl
  · rfl
  · rfl

theorem agree_declaration (line : Line) (ws : List (List Char)) :
    Agree (line.small.declaration (ws.map (List.map Char.toLower))) (line.declaration ws) := by
  match ws with
  | [] | [_] | [_, _] | [_, _, _] => rfl
  | _ :: name :: eq :: _ :: _ =>
    have heq : (eq.map Char.toLower != ['=']) = (eq != ['=']) :=
      congrArg not (map_toLower_beq rfl)
    simp only [List.map_cons, declaration, heq, Name.isIdentifier_map_toLower,
      Name.canonical_map_toLower]
    split_ifs
    · rfl
    · rfl
    · exact (agree_assigned line).bind fun e => .refl _

theorem agree_assignment (line : Line) (name : List Char) :
    Agree (line.small.assignment (name.map Char.toLower)) (line.assignment name) := by
  simp only [assignment, Name.canonical_map_toLower]
  exact (agree_assigned line).bind fun e => .refl _

theorem agree_repetition (line : Line) : Agree line.small.repetition line.repetition := by
  refine agree_bind_map (beforeColon_small line _) fun header => ?_
  dsimp only
  rw [← List.map_drop, Text.trimLeft_map_toLower, untilText?_map_toLower, List.isEmpty_map]
  cases untilText? (Text.trimLeft (header.drop 6)) with
  | none =>
    dsimp only [Option.map]
    split_ifs
    · rfl
    · exact (agree_expression ..).bind fun e => .refl _
  | some condition =>
    cases condition with
    | nil => rfl
    | cons c condition => exact (agree_expression line (c :: condition) _ _).bind fun e => .refl _

theorem agree_conditional (line : Line) : Agree line.small.conditional line.conditional := by
  refine agree_bind_map (beforeColon_small line _) fun header => ?_
  dsimp only
  rw [← List.map_drop, Text.trimLeft_map_toLower, List.isEmpty_map]
  split_ifs
  · rfl
  · exact (agree_expression ..).bind fun e => .refl _

theorem agree_jump (line : Line) (inLoop : Bool) (keyword : String) (i : Instr)
    (ws : List (List Char)) :
    Agree (line.small.jump inLoop keyword i (ws.map (List.map Char.toLower)))
      (line.jump inLoop keyword i ws) := by
  match ws with
  | [] | _ :: _ :: _ => rfl
  | [_] =>
    simp only [List.map_cons, List.map_nil, jump]
    split_ifs <;> rfl

theorem agree_movement (line : Line) (keyword : String) (instr : Expr → Instr)
    (ws : List (List Char)) :
    Agree (line.small.movement keyword instr (ws.map (List.map Char.toLower)))
      (line.movement keyword instr ws) := by
  match ws with
  | [] | [_] => rfl
  | w :: _ :: _ =>
    have htext : Text.trimLeft (line.small.content.drop w.length) =
        (Text.trimLeft (line.content.drop w.length)).map Char.toLower := by
      rw [← Text.trimLeft_map_toLower, List.map_drop]
      rfl
    simp only [List.map_cons, movement, List.length_map, htext]
    exact (agree_expression ..).bind fun e => .refl _

theorem agree_penChange (line : Line) (ws : List (List Char)) :
    Agree (line.small.penChange (ws.map (List.map Char.toLower))) (line.penChange ws) := by
  match ws with
  | [] | [_] | _ :: _ :: _ :: _ => rfl
  | [_, state] =>
    simp only [List.map_cons, List.map_nil, penChange, Name.canonical_map_toLower]
    split_ifs <;> rfl

/-- Whichever parameter is wrong, the complaint is about the line. -/
theorem agree_colorChange_toOption (line : Line) (w h s v : List Char) :
    Agree (line.colorChange [w, h, s, v])
      (match (HsvParam.parse h).toOption, (HsvParam.parse s).toOption,
          (HsvParam.parse v).toOption with
      | some h, some s, some v => .ok (.simple (.hsv h s v (some line.number)))
      | _, _, _ => line.error .hsvForm 0) := by
  rw [colorChange]
  cases HsvParam.parse h with
  | error e => rfl
  | ok h =>
    cases HsvParam.parse s with
    | error e => rfl
    | ok s =>
      cases HsvParam.parse v with
      | error e => rfl
      | ok v => rfl

theorem agree_colorChange (line : Line) (ws : List (List Char)) :
    Agree (line.small.colorChange (ws.map (List.map Char.toLower))) (line.colorChange ws) := by
  match ws with
  | [] | [_] | [_, _] | [_, _, _] | _ :: _ :: _ :: _ :: _ :: _ => rfl
  | [w, h, s, v] =>
    refine (agree_colorChange_toOption line.small ..).trans ?_
    rw [HsvParam.toOption_parse_map_toLower, HsvParam.toOption_parse_map_toLower,
      HsvParam.toOption_parse_map_toLower]
    exact (agree_colorChange_toOption line w h s v).symm

theorem isAssignment_map_toLower (ws : List (List Char)) :
    isAssignment (ws.map (List.map Char.toLower)) = isAssignment ws := by
  match ws with
  | [] | [_] | [_, _] => rfl
  | name :: eq :: _ :: _ =>
    rw [List.map_cons, List.map_cons, List.map_cons, isAssignment, Name.isIdentifier_map_toLower,
      map_toLower_beq rfl, isAssignment]

/-- **A statement may be written with capitals.** -/
theorem agree_statement (inLoop : Bool) (line : Line) :
    Agree (line.small.statement inLoop) (line.statement inLoop) := by
  have hwords : Text.words line.small.content =
      (Text.words line.content).map (List.map Char.toLower) :=
    Text.words_map_toLower line.content
  have hfirst : (Text.words line.small.content).head?.getD [] =
      ((Text.words line.content).head?.getD []).map Char.toLower := by
    rw [hwords, List.head?_map]
    cases (Text.words line.content).head? <;> rfl
  unfold statement
  simp only [hfirst, Name.canonical_map_toLower]
  simp only [hwords, isAssignment_map_toLower]
  generalize Command.resolve (Name.canonical ((Text.words line.content).head?.getD [])) = keyword
  split_ifs
  · exact agree_declaration ..
  · exact agree_assignment ..
  · split
    · exact agree_repetition _
    · exact agree_conditional _
    · exact agree_jump ..
    · exact agree_jump ..
    · exact agree_movement ..
    · exact agree_movement ..
    · exact agree_movement ..
    · exact agree_movement ..
    · exact agree_penChange ..
    · exact agree_colorChange ..
    · rfl

end Line

/-! ## Programs -/

/-- **A run of lines may be written with capitals.** -/
theorem agree_block (inLoop : Bool) (lines : List Line) :
    Agree (block inLoop (lines.map Line.small)) (block inLoop lines) := by
  -- The body of a block and the lines after it are shorter than the run, but neither is its tail.
  induction hn : lines.length using Nat.strongRecOn generalizing lines inLoop with
  | ind n ih =>
  cases lines with
  | nil => exact .refl _
  | cons line rest =>
    have hbelow : line.small.below (rest.map Line.small) = (line.below rest).map Line.small :=
      List.takeWhile_map ..
    have hafter : line.small.after (rest.map Line.small) = (line.after rest).map Line.small :=
      List.dropWhile_map ..
    have hinner : (line.below rest).length ≤ rest.length := (List.takeWhile_sublist _).length_le
    have houter : (line.after rest).length ≤ rest.length := List.length_dropWhile_le _ _
    rw [List.length_cons] at hn
    simp only [List.map_cons, block_cons, hbelow, hafter]
    refine (Line.agree_statement inLoop line).bind fun s => ?_
    cases s with
    | simple i => exact (ih _ (by omega) inLoop rest rfl).bind fun is => .refl _
    | header h =>
      refine (ih _ (by omega) _ (line.below rest) rfl).bind fun body => ?_
      exact (ih _ (by omega) inLoop (line.after rest) rfl).bind fun is => .refl _

theorem agree_parse (s : String) : Agree (parse s.toLower) (parse s) := by
  have hchars : s.toLower.toList = s.toList.map Char.toLower := String.toList_map
  have hstatement : Line.isStatement ∘ Line.small = Line.isStatement := by
    funext line
    exact congrArg not List.isEmpty_map
  unfold parse
  rw [hchars, linesOf_map_toLower, List.filter_map, hstatement]
  exact agree_block false _

/-- **The language is case-insensitive.** `String.toLower` makes the capitals of ASCII small and
leaves all other characters as they are. A text and its small form are read as the same program,
line numbers included, or there are complaints about both, and they are about the same line. -/
theorem parse_toLower (s : String) :
    (∀ is, parse s = .ok is ↔ parse s.toLower = .ok is) ∧
      ∀ line, (∃ c column, parse s = .error (.malformed c line column)) ↔
        ∃ c column, parse s.toLower = .error (.malformed c line column) := by
  have hagree := agree_parse s
  exact ⟨fun is => (hagree.ok_iff is).symm, fun line => (hagree.malformed_iff line).symm⟩

end Source

end PixelTurtle
