import PixelTurtle.Proofs.Complaints
import PixelTurtle.Proofs.Evaluation
import PixelTurtle.Proofs.Grammar
import PixelTurtle.Proofs.Seams

/-!
# Names and numerals on their own

A text that is just a name or a numeral is read without splitting it into tokens. This only saves
work: split into tokens, such a text is an expression of the same value, with a sign that is applied
to a number in place of a number with a sign. So a text can be put in parentheses, and keeps its
value. The exception is a numeral with an exponent. Tokens know no exponents, and so this numeral
can be read on its own only.

* `Expr.readTokens` reads a text by its tokens.
* `Grammar.Derives.of_lexemes` says that trees do not depend on places, and `parse_parens_cases`
  what becomes of a text in parentheses.
* `exists_digits_of_parse?` takes numerals apart, `comparison_signed` reads what is before the
  exponent, and `exists_scans_exponent` splits the exponent into tokens.
* `shortcuts_agree` puts this together.
-/

namespace PixelTurtle

open PixelTurtle.Expr PixelTurtle.Text

/-! ## Trees and places -/

namespace Grammar

variable {p : Phrase} {ts us : List Token} {e : Expr} {text : List Char}

/-- What the tokens derive depends on their lexemes only. -/
theorem Derives.of_lexemes (h : Derives p ts e) (hus : us.map Token.lexeme = ts.map Token.lexeme) :
    Derives p us e := by
  induction h generalizing us with
  | one _ ih => exact .one (ih hus)
  | more _ hop hs _ ihl ihr =>
    rw [List.map_append, List.map_eq_append_iff] at hus
    obtain ⟨left, right, rfl, hleft, hright⟩ := hus
    obtain ⟨⟨l, pos⟩, right, rfl, hl, htail⟩ := List.map_eq_cons_iff.1 hright
    obtain rfl : l = _ := hl
    exact .more (ihl hleft) hop hs (ihr htail)
  | sign hop hs _ ih =>
    obtain ⟨⟨l, pos⟩, us, rfl, hl, hrest⟩ := List.map_eq_cons_iff.1 hus
    obtain rfl : l = _ := hl
    exact .sign hop hs (ih hrest)
  | unsigned _ ih => exact .unsigned (ih hus)
  | numeral hm =>
    obtain ⟨⟨l, pos⟩, rfl, hl⟩ := List.map_eq_singleton_iff.1 hus
    obtain rfl : l = _ := hl
    exact .numeral hm
  | ident =>
    obtain ⟨⟨l, pos⟩, rfl, hl⟩ := List.map_eq_singleton_iff.1 hus
    obtain rfl : l = _ := hl
    exact .ident
  | parens _ ih =>
    obtain ⟨⟨l, pos⟩, us, rfl, hl, hrest⟩ := List.map_eq_cons_iff.1 hus
    obtain rfl : l = _ := hl
    rw [List.map_append, List.map_eq_append_iff] at hrest
    obtain ⟨inner, last, rfl, hinner, hlast⟩ := hrest
    obtain ⟨⟨r, pos'⟩, rfl, hr⟩ := List.map_eq_singleton_iff.1 hlast
    obtain rfl : r = _ := hr
    exact .parens (ih hinner)

theorem weight_of_lexemes (h : us.map Token.lexeme = ts.map Token.lexeme) :
    weight us = weight ts := by
  induction ts generalizing us with
  | nil => rw [List.map_eq_nil_iff.1 h]
  | cons t ts ih =>
    obtain ⟨u, us, rfl, hu, hus⟩ := List.map_eq_cons_iff.1 h
    rw [weight_cons, weight_cons, ih hus, cost, cost, hu]

/-- Few tokens do not nest too deep. -/
theorem Derives.ofTokens_of_weight (h : IsExpression ts e) (hfew : weight ts < nestingBudget) :
    ofTokens text ts = .ok e := by
  refine (h.ofTokens_eq text).resolve_left fun hdeep => ?_
  have : nestingBudget ≤ weight ts := blames_of_ofTokens hdeep
  omega

end Grammar

open Grammar

/-! ## Texts without shortcuts -/

/-- Reads a text by its tokens, without any shortcut. -/
def Expr.readTokens (text : List Char) : Except ParseError Expr :=
  match Token.scan text with
  | .error (p, column) => .error (.malformed p column)
  | .ok tokens => ofTokens text tokens

section Parentheses

variable {cs text : List Char} {ts : List Token} {ls : List Lexeme} {e : Expr}

theorem readTokens_of_scans (h : Scans text ls) :
    ∃ ts, ts.map Token.lexeme = ls ∧ readTokens text = ofTokens text ts := by
  obtain ⟨ts, hts, hls⟩ := h 0
  refine ⟨ts, hls, ?_⟩
  rw [readTokens, Token.scan, hts]

/-- A text in parentheses is read by its tokens. -/
theorem parse_parens_eq (cs : List Char) : parse (parens cs) = readTokens (parens cs) := by
  rw [parse, trim_eq_self (trimmed_parens cs)]
  rfl

theorem scans_parens_of_trim (h : Scans (trim cs) ls) : Scans (parens cs) (wrapped ls) := by
  have hclose : Scans [')'] [.symbol .rparen] := scans_read rfl (read_rparen _) scans_nil
  exact scans_read rfl (read_lparen _) (h.untrimmed breaks_rparen hclose)

/-- An expression in parentheses is the same expression, unless it nests too deep. -/
theorem parse_parens_cases (hts : Token.scan (trim cs) = .ok ts) (h : IsExpression ts e) :
    (parse (parens cs) = .error .tooDeep ∨ parse (parens cs) = .ok e) ∧
    (weight ts + 5 < nestingBudget → parse (parens cs) = .ok e) := by
  obtain ⟨us, hus, hread⟩ := readTokens_of_scans (scans_parens_of_trim (scans_of_scan hts))
  obtain ⟨⟨l, pos⟩, rest, rfl, hl, hrest⟩ := List.map_eq_cons_iff.1 hus
  obtain rfl : l = .symbol .lparen := hl
  rw [List.map_eq_append_iff] at hrest
  obtain ⟨inner, last, rfl, hinner, hlast⟩ := hrest
  obtain ⟨⟨r, pos'⟩, rfl, hr⟩ := List.map_eq_singleton_iff.1 hlast
  obtain rfl : r = .symbol .rparen := hr
  have hwrapped : IsExpression (⟨.symbol .lparen, pos⟩ :: (inner ++ [⟨.symbol .rparen, pos'⟩])) e :=
    .one (.one (.one (.unsigned (.parens (h.of_lexemes hinner)))))
  rw [parse_parens_eq, hread]
  refine ⟨hwrapped.ofTokens_eq _, fun hfew => hwrapped.ofTokens_of_weight ?_⟩
  rw [weight_cons, weight_append, weight_of_lexemes hinner]
  show 5 + (weight ts + 0) < _
  omega

end Parentheses

/-! ## Numerals -/

/-- `HasSign op text body`: the text is `body` with the sign `op` before it, or without one. -/
inductive HasSign : Option UnaryOp → List Char → List Char → Prop
  | none (body : List Char) : HasSign none body body
  | plus (body : List Char) : HasSign (some .plus) ('+' :: body) body
  | minus (body : List Char) : HasSign (some .minus) ('-' :: body) body

/-- The tree with a sign before it, if there is one. -/
def signed (op : Option UnaryOp) (e : Expr) : Expr :=
  op.elim e (.unary · e)

def signLexemes (op : Option UnaryOp) : List Lexeme :=
  op.toList.map fun op => .symbol op.toSymbol

/-- A row of digits with at most one point among them, which has a value. -/
structure IsRow (digits : List Char) : Prop where
  literal : IsLiteral digits
  ne_nil : digits ≠ []
  ne_point : digits ≠ ['.']

namespace Number.Numeral

variable {text : List Char} {m : Numeral}

theorem exists_hasSign (text : List Char) :
    ∃ op, HasSign op text (sign text).2 ∧ (sign text).1 = (op == some .minus) := by
  unfold sign
  split
  · exact ⟨_, .minus _, rfl⟩
  · exact ⟨_, .plus _, rfl⟩
  · exact ⟨_, .none _, rfl⟩

/-- The sign of a numeral does not matter to its digits. -/
theorem parse?_eq_map (h : sign (sign text).2 = (false, (sign text).2)) :
    parse? text = (parse? (sign text).2).map fun m => { m with negative := (sign text).1 } := by
  unfold parse?
  rw [h]
  dsimp only
  split_ifs
  · rfl
  · rw [Option.map_map]
    rfl

theorem count_point {ds : List Char} (h : ∀ c ∈ ds, isDecimal c = true) : ds.count '.' = 0 :=
  List.count_eq_zero.2 fun hmem => absurd (h _ hmem) (by decide)

/-- Digits alone are a row. -/
theorem isRow_of_isDecimal {ds : List Char} (h : ∀ c ∈ ds, isDecimal c = true) (hne : ds ≠ []) :
    IsRow ds where
  literal := ⟨fun c hc => .inl (h c hc), by rw [count_point h]; exact Nat.zero_le _⟩
  ne_nil := hne
  ne_point := by
    rintro rfl
    exact absurd (h '.' List.mem_cons_self) (by decide)

theorem isRow_of_point {whole part : List Char} (hwhole : ∀ c ∈ whole, isDecimal c = true)
    (hpart : ∀ c ∈ part, isDecimal c = true) (hne : ¬ (whole = [] ∧ part = [])) :
    IsRow (whole ++ '.' :: part) where
  literal := by
    refine ⟨fun c hc => ?_, ?_⟩
    · rcases List.mem_append.1 hc with hc | hc
      · exact .inl (hwhole c hc)
      · exact (List.mem_cons.1 hc).symm.imp_left (hpart c)
    · rw [List.count_append, List.count_cons_self, count_point hwhole, count_point hpart]
  ne_nil := by simp
  ne_point h := by
    rw [List.append_eq_singleton_iff] at h
    rcases h with ⟨hnil, hsingle⟩ | ⟨-, hnil⟩
    · exact hne ⟨hnil, (List.cons.inj hsingle).2⟩
    · cases hnil

theorem negative_of_parse? (h : parse? text = some m) : m.negative = (sign text).1 := by
  unfold parse? at h
  dsimp only at h
  split_ifs at h
  obtain ⟨k, -, rfl⟩ := Option.map_eq_some_iff.1 h
  rfl

/-- After its sign, a numeral has a row of digits, and then its exponent. -/
theorem exists_digits_of_parse? (h : parse? text = some m) :
    ∃ digits rest, (sign text).2 = digits ++ rest ∧ IsRow digits ∧
      (exponent? rest).isSome = true := by
  unfold parse? at h
  dsimp only at h
  generalize (sign text).2 = body at h ⊢
  have hbody : body.takeWhile isDecimal ++ body.dropWhile isDecimal = body :=
    List.takeWhile_append_dropWhile
  have hwhole : ∀ c ∈ body.takeWhile isDecimal, isDecimal c = true :=
    fun c hc => List.mem_takeWhile_imp hc
  generalize body.takeWhile isDecimal = whole at h hbody hwhole
  split_ifs at h with hempty
  obtain ⟨k, hk, -⟩ := Option.map_eq_some_iff.1 h
  rw [Bool.and_eq_true, List.isEmpty_iff, List.isEmpty_iff] at hempty
  have hsome : (exponent? (fraction (body.dropWhile isDecimal)).2).isSome = true := by
    rw [hk]
    rfl
  clear h hk
  generalize body.dropWhile isDecimal = after at hbody hempty hsome
  unfold fraction at hempty hsome
  split at hempty
  · rename_i fr
    refine ⟨whole ++ '.' :: fr.takeWhile isDecimal, fr.dropWhile isDecimal, ?_,
      isRow_of_point hwhole (fun c hc => List.mem_takeWhile_imp hc) hempty, hsome⟩
    rw [List.append_assoc, List.cons_append, List.takeWhile_append_dropWhile, hbody]
  · rename_i hpoint
    refine ⟨whole, after, hbody.symm, isRow_of_isDecimal hwhole fun hnil => hempty ⟨hnil, rfl⟩, ?_⟩
    split at hsome
    · exact (hpoint _ rfl).elim
    · exact hsome

/-- An exponent is a letter, a sign or none, and digits. -/
theorem exists_letter_of_exponent? {rest : List Char} (h : (exponent? rest).isSome = true)
    (hne : rest ≠ []) : ∃ c tail, rest = c :: tail ∧ (c = 'e' ∨ c = 'E') ∧
      ∀ d ∈ (sign tail).2, isDecimal d = true := by
  cases rest with
  | nil => exact absurd rfl hne
  | cons c tail =>
    unfold exponent? at h
    dsimp only at h
    have hletter : (c == 'e' || c == 'E') = true := by
      by_contra hno
      rw [if_neg hno] at h
      cases h
    rw [if_pos hletter] at h
    have hdigits : ¬ ((sign tail).2.isEmpty || !(sign tail).2.all isDecimal) = true := by
      intro hbad
      rw [if_pos hbad] at h
      cases h
    rw [Bool.or_eq_true, beq_iff_eq, beq_iff_eq] at hletter
    rw [Bool.or_eq_true, not_or, Bool.not_eq_true', Bool.not_eq_false, List.all_eq_true] at hdigits
    exact ⟨c, tail, rfl, hletter, hdigits.2⟩

end Number.Numeral

/-! ## Numerals by their tokens -/

section Tokens

variable {op : Option UnaryOp} {text body digits : List Char} {ls : List Lexeme}
  {us rest : List Token} {finish n b : Nat} {m : Number.Numeral}

theorem HasSign.scans (h : HasSign op text body) (hs : Scans body ls) :
    Scans text (signLexemes op ++ ls) := by
  cases h with
  | none => exact hs
  | plus =>
    refine scans_read (n := 0) rfl ?_ hs
    cases body <;> rfl
  | minus =>
    refine scans_read (n := 0) rfl ?_ hs
    cases body <;> rfl

/-- A sign, if there is one, and a row of digits are read up to their end. -/
theorem operand_signed (h : HasSign op text body) (hm : Number.Numeral.parse? digits = some m)
    (hus : us.map Token.lexeme = signLexemes op ++ [.numeral digits]) :
    operand finish n (b + 2) (us ++ rest) = .ok (signed op (.num m.toFloat), rest) := by
  have number (k pos : Nat) : operand finish n (k + 1) (⟨.numeral digits, pos⟩ :: rest) =
      .ok (.num m.toFloat, rest) := by
    simp only [operand, hm]
  have sign {s : UnaryOp} (hs : s = .plus ∨ s = .minus)
      (hus : us.map Token.lexeme = [.symbol s.toSymbol, .numeral digits]) :
      operand finish n (b + 2) (us ++ rest) = .ok (.unary s (.num m.toFloat), rest) := by
    obtain ⟨⟨l, pos⟩, us, rfl, hl, htail⟩ := List.map_eq_cons_iff.1 hus
    obtain rfl : l = _ := hl
    obtain ⟨⟨l, pos'⟩, rfl, hl⟩ := List.map_eq_singleton_iff.1 htail
    obtain rfl : l = _ := hl
    exact operand_sign hs (number b pos')
  cases h with
  | none =>
    obtain ⟨⟨l, pos⟩, rfl, hl⟩ := List.map_eq_singleton_iff.1 hus
    obtain rfl : l = _ := hl
    exact number (b + 1) pos
  | plus => exact sign (.inl rfl) hus
  | minus => exact sign (.inr rfl) hus

theorem comparison_signed (h : HasSign op text body) (hm : Number.Numeral.parse? digits = some m)
    (hus : us.map Token.lexeme = signLexemes op ++ [.numeral digits]) (hrest : Follows 0 rest) :
    comparison n (operand finish n (b + 2)) (us ++ rest) =
      .ok (signed op (.num m.toFloat), rest) :=
  chain_one (chain_one (chain_one (operand_signed h hm hus) (hrest .product (Nat.zero_le _)))
    (hrest .sum (Nat.zero_le _))) (hrest .comparison (Nat.zero_le _))

/-- A word after an expression in parentheses leaves them open. -/
theorem operand_unclosed {e : Expr} {name : String} {ts : List Token} {pos' : Nat} (pos : Nat)
    (h : comparison n (operand finish n b) ts = .ok (e, ⟨.ident name, pos'⟩ :: rest)) :
    operand finish n (b + 5) (⟨.symbol .lparen, pos⟩ :: ts) =
      .error (.malformed .unclosed (pos' + 1)) := by
  simp only [operand, sign?, if_true, h, close]

/-- Digits after a letter are a row, or there are none. -/
theorem exists_scans_decimals {ds : List Char} (h : ∀ c ∈ ds, isDecimal c = true) :
    ∃ ls, Scans ds ls := by
  by_cases hne : ds = []
  · exact ⟨[], hne ▸ scans_nil⟩
  · have hrow := Number.Numeral.isRow_of_isDecimal h hne
    have hscans : Scans (ds ++ []) [.numeral ds] :=
      scans_digits hrow.literal hne hrow.ne_point nofun scans_nil
    exact ⟨_, by rwa [List.append_nil] at hscans⟩

/-- The tokens of an exponent start with a word. -/
theorem exists_scans_exponent {tail : List Char} {c : Char} (hc : c = 'e' ∨ c = 'E')
    (htail : ∀ d ∈ (Number.Numeral.sign tail).2, isDecimal d = true) :
    ∃ name ls, Scans (c :: tail) (.ident name :: ls) := by
  have hafter : ∃ ls, Scans (tail.dropWhile Name.isPart) ls := by
    obtain ⟨op, hsign, -⟩ := Number.Numeral.exists_hasSign tail
    generalize (Number.Numeral.sign tail).2 = ds at htail hsign
    cases hsign with
    | none =>
      exact exists_scans_decimals fun d hd => htail d ((List.dropWhile_sublist _).subset hd)
    | plus =>
      obtain ⟨ls, hls⟩ := exists_scans_decimals htail
      exact ⟨_, (HasSign.plus ds).scans hls⟩
    | minus =>
      obtain ⟨ls, hls⟩ := exists_scans_decimals htail
      exact ⟨_, (HasSign.minus ds).scans hls⟩
  obtain ⟨ls, hls⟩ := hafter
  have hword : Name.isIdentifier (c :: tail.takeWhile Name.isPart) = true := by
    have hstart : Name.isStart c = true := by
      rcases hc with rfl | rfl <;> rfl
    rw [Name.isIdentifier, hstart, Bool.true_and, List.all_eq_true]
    exact fun d hd => List.mem_takeWhile_imp hd
  have hstop : ∀ d ∈ (tail.dropWhile Name.isPart).head?, Name.isPart d = false :=
    fun _ hd => head_of_dropWhile hd
  have hscans := scans_word hword hstop hls
  rw [List.cons_append, List.takeWhile_append_dropWhile] at hscans
  exact ⟨_, ls, hscans⟩

end Tokens

/-! ## Shortcuts -/

/-- The text is a numeral with an exponent. -/
def HasExponent (text : List Char) : Prop :=
  (Number.finite? text).isSome = true ∧ ∃ c ∈ text, c = 'e' ∨ c = 'E'

/-- The parts of a numeral with the value `x`. -/
structure Parts (text : List Char) (x : Float) (op : Option UnaryOp) (digits rest : List Char)
    (m : Number.Numeral) : Prop where
  sign : HasSign op text (digits ++ rest)
  row : IsRow digits
  value : Number.Numeral.parse? digits = some m
  exponent : (Number.Numeral.exponent? rest).isSome = true
  whole : rest = [] → x = ({ m with negative := op == some .minus } : Number.Numeral).toFloat

section Shortcuts

variable {cs text digits rest : List Char} {x : Float} {op : Option UnaryOp} {m : Number.Numeral}
  {e : Expr}

theorem exists_parts (h : Number.finite? text = some x) :
    ∃ op digits rest m, Parts text x op digits rest m := by
  obtain ⟨m₀, hm₀, hx⟩ := Option.bind_eq_some_iff.1 h
  obtain ⟨op, hsign, hnegative⟩ := Number.Numeral.exists_hasSign text
  obtain ⟨digits, rest, hbody, hrow, hexp⟩ := Number.Numeral.exists_digits_of_parse? hm₀
  obtain ⟨m, hm⟩ := Number.Numeral.exists_parse? hrow.literal.1 hrow.literal.2 hrow.ne_nil
    hrow.ne_point
  refine ⟨op, digits, rest, m, hbody ▸ hsign, hrow, hm, hexp, ?_⟩
  rintro rfl
  rw [List.append_nil] at hbody
  have hself : Number.Numeral.sign (Number.Numeral.sign text).2 =
      (false, (Number.Numeral.sign text).2) := by
    rw [hbody]
    exact Number.Numeral.sign_eq_self hrow.literal.1
  rw [Number.Numeral.parse?_eq_map hself, hbody, hm, Option.map_some] at hm₀
  cases hm₀
  rw [hnegative] at hx
  dsimp only at hx
  split_ifs at hx
  exact (Option.some.inj hx).symm

/-- A sign is applied to the number after it. -/
theorem evaluate_signed (h : HasSign op text (digits ++ rest)) (hm : m.negative = false)
    (env : Env) : (signed op (.num m.toFloat)).evaluate env =
      .ok ({ m with negative := op == some .minus } : Number.Numeral).toFloat := by
  obtain ⟨negative, d, scale⟩ := m
  cases hm
  rw [evaluate_eq_eval]
  cases h <;> rfl

theorem readTokens_of_isIdentifier (h : Name.isIdentifier text = true) :
    readTokens text = .ok (.var (Name.canonical text)) := by
  have hs : Scans (text ++ []) [.ident (Name.canonical text)] := scans_word h nofun scans_nil
  rw [List.append_nil] at hs
  obtain ⟨ts, hls, hread⟩ := readTokens_of_scans hs
  obtain ⟨⟨l, pos⟩, rfl, hl⟩ := List.map_eq_singleton_iff.1 hls
  obtain rfl : l = _ := hl
  have hvar : IsExpression [⟨.ident (Name.canonical text), pos⟩] (.var (Name.canonical text)) :=
    .one (.one (.one (.unsigned .ident)))
  rw [hread]
  exact hvar.ofTokens_of_weight (Nat.succ_pos 949)

/-- A numeral without an exponent is read by its tokens. -/
theorem readTokens_of_parts (h : Parts text x op digits [] m) :
    readTokens text = .ok (signed op (.num m.toFloat)) := by
  have hdigits : Scans (digits ++ []) [.numeral digits] :=
    scans_digits h.row.literal h.row.ne_nil h.row.ne_point nofun scans_nil
  obtain ⟨ts, hls, hread⟩ := readTokens_of_scans (h.sign.scans hdigits)
  have hcomparison : comparison ts.length (operand text.length ts.length nestingBudget) (ts ++ []) =
      .ok (signed op (.num m.toFloat), []) :=
    comparison_signed h.sign h.value hls (follows_nil 0)
  rw [List.append_nil] at hcomparison
  rw [hread, ofTokens]
  simp only [hcomparison]

/-- The tokens of a numeral with an exponent: a word comes after the digits. -/
theorem exists_scans_of_parts (h : Parts text x op digits rest m) (hne : rest ≠ []) :
    ∃ name ls, Scans text (signLexemes op ++ .numeral digits :: .ident name :: ls) := by
  obtain ⟨c, tail, rfl, hc, htail⟩ := Number.Numeral.exists_letter_of_exponent? h.exponent hne
  obtain ⟨name, ls, hls⟩ := exists_scans_exponent hc htail
  refine ⟨name, ls, h.sign.scans (scans_digits h.row.literal h.row.ne_nil h.row.ne_point ?_ hls)⟩
  rintro d ⟨⟩
  rcases hc with rfl | rfl <;> rfl

/-- The tokens before a word and those after it. -/
theorem exists_word_of_lexemes {us : List Token} {name : String} {ls : List Lexeme}
    (hus : us.map Token.lexeme = signLexemes op ++ .numeral digits :: .ident name :: ls) :
    ∃ before pos after, us = before ++ ⟨.ident name, pos⟩ :: after ∧
      before.map Token.lexeme = signLexemes op ++ [.numeral digits] := by
  rw [← List.singleton_append, ← List.append_assoc, List.map_eq_append_iff] at hus
  obtain ⟨before, rest, rfl, hbefore, hrest⟩ := hus
  obtain ⟨⟨l, pos⟩, after, rfl, hl, -⟩ := List.map_eq_cons_iff.1 hrest
  obtain rfl : l = _ := hl
  exact ⟨before, pos, after, rfl, hbefore⟩

/-- A numeral with an exponent is not read by its tokens, with or without parentheses. -/
theorem refused_of_parts (h : Parts (trim cs) x op digits rest m) (hne : rest ≠ []) :
    (∃ ls column, readTokens (trim cs) = .error (.malformed (.leftover (trim cs) ls) column)) ∧
    ∃ column, parse (parens cs) = .error (.malformed .unclosed column) := by
  obtain ⟨name, ls, hscans⟩ := exists_scans_of_parts h hne
  have hfollows (pos : Nat) (after : List Token) : Follows 0 (⟨.ident name, pos⟩ :: after) :=
    fun _ _ => rfl
  constructor
  · obtain ⟨us, hus, hread⟩ := readTokens_of_scans hscans
    obtain ⟨before, pos, after, rfl, hbefore⟩ := exists_word_of_lexemes hus
    refine ⟨(⟨.ident name, pos⟩ :: after).map Token.lexeme, pos + 1, ?_⟩
    rw [hread, ofTokens]
    simp only [nestingBudget,
      comparison_signed (b := 948) h.sign h.value hbefore (hfollows pos after)]
  · obtain ⟨us, hus, hread⟩ := readTokens_of_scans (scans_parens_of_trim hscans)
    obtain ⟨⟨l, pos⟩, inner, rfl, hl, hinner⟩ := List.map_eq_cons_iff.1 hus
    obtain rfl : l = .symbol .lparen := hl
    rw [List.append_assoc] at hinner
    obtain ⟨before, pos', after, rfl, hbefore⟩ := exists_word_of_lexemes hinner
    refine ⟨pos' + 1, ?_⟩
    rw [parse_parens_eq, hread, ofTokens]
    have hunclosed (finish n : Nat) : operand finish n nestingBudget
        (⟨.symbol .lparen, pos⟩ :: (before ++ ⟨.ident name, pos'⟩ :: after)) =
        .error (.malformed .unclosed (pos' + 1)) :=
      operand_unclosed pos (comparison_signed h.sign h.value hbefore (hfollows pos' after))
    simp only [comparison, Expr.sum, product, chain, hunclosed]

/-- A numeral has an exponent if something comes after its digits. -/
theorem hasExponent_iff (hx : Number.finite? text = some x) (h : Parts text x op digits rest m) :
    HasExponent text ↔ rest ≠ [] := by
  have hfinite : (Number.finite? text).isSome = true := by
    rw [hx]
    rfl
  constructor
  · rintro ⟨-, c, hc, hletter⟩ rfl
    have hplain : c ∉ digits := by
      intro hmem
      rcases hletter with rfl | rfl
      · rcases h.row.literal.1 _ hmem with hd | hd <;> exact absurd hd (by decide)
      · rcases h.row.literal.1 _ hmem with hd | hd <;> exact absurd hd (by decide)
    have hsign : c ≠ '+' ∧ c ≠ '-' := by
      rcases hletter with rfl | rfl <;> decide
    have hparts := h.sign
    rw [List.append_nil] at hparts
    cases hparts with
    | none => exact hplain hc
    | plus => exact hplain ((List.mem_cons.1 hc).resolve_left hsign.1)
    | minus => exact hplain ((List.mem_cons.1 hc).resolve_left hsign.2)
  · intro hne
    obtain ⟨c, tail, rfl, hc, -⟩ := Number.Numeral.exists_letter_of_exponent? h.exponent hne
    refine ⟨hfinite, c, ?_, hc⟩
    have hmem : c ∈ digits ++ c :: tail := List.mem_append_right _ List.mem_cons_self
    cases h.sign with
    | none => exact hmem
    | plus => exact List.mem_cons_of_mem _ hmem
    | minus => exact List.mem_cons_of_mem _ hmem

/-- The value of a shortcut is that of its tokens. -/
theorem exists_readTokens_of_parse (h : parse cs = .ok e) (hexp : ¬ HasExponent (trim cs)) :
    ∃ e', readTokens (trim cs) = .ok e' ∧ ∀ env, e'.evaluate env = e.evaluate env := by
  unfold parse at h
  dsimp only at h
  split_ifs at h with hempty hname
  · cases h
    exact ⟨_, readTokens_of_isIdentifier hname, fun _ => rfl⟩
  · cases hx : Number.finite? (trim cs) with
    | none =>
      rw [hx] at h
      exact ⟨e, h, fun _ => rfl⟩
    | some x =>
      rw [hx] at h
      cases h
      obtain ⟨op, digits, rest, m, hparts⟩ := exists_parts hx
      obtain rfl : rest = [] := by
        by_contra hne
        exact hexp ((hasExponent_iff hx hparts).2 hne)
      have hnegative : m.negative = false := by
        rw [Number.Numeral.negative_of_parse? hparts.value,
          Number.Numeral.sign_eq_self hparts.row.literal.1]
      refine ⟨_, readTokens_of_parts hparts, fun env => ?_⟩
      rw [evaluate_signed hparts.sign hnegative, ← hparts.whole rfl, evaluate_eq_eval]
      rfl

end Shortcuts

/-- **Shortcuts agree with the tokens, and parentheses change nothing.** If a text is an expression
and no numeral with an exponent, it is also read by its tokens alone, all of them, as an expression
that has the same value in every environment. In parentheses it is this expression, unless it nests
too deep for one more pair, which it cannot if it has few tokens. A numeral with an exponent is read
on its own only: by its tokens, there is something left over after its digits, and in parentheses
the closing one is missed there. -/
theorem shortcuts_agree {cs : List Char} {e : Expr} (h : parse cs = .ok e) :
    (¬ HasExponent (trim cs) → ∃ ts e', Token.scan (trim cs) = .ok ts ∧
      ofTokens (trim cs) ts = .ok e' ∧ (∀ env, e'.evaluate env = e.evaluate env) ∧
      (parse (parens cs) = .error .tooDeep ∨ parse (parens cs) = .ok e') ∧
      (weight ts + 5 < nestingBudget → parse (parens cs) = .ok e')) ∧
    (HasExponent (trim cs) →
      (∃ ls column, readTokens (trim cs) = .error (.malformed (.leftover (trim cs) ls) column)) ∧
      ∃ column, parse (parens cs) = .error (.malformed .unclosed column)) := by
  constructor
  · intro hexp
    obtain ⟨e', hread, hvalue⟩ := exists_readTokens_of_parse h hexp
    cases hts : Token.scan (trim cs) with
    | error err =>
      rw [readTokens, hts] at hread
      cases hread
    | ok ts =>
      rw [readTokens, hts] at hread
      obtain ⟨hcases, hfew⟩ := parse_parens_cases hts (isExpression_of_ofTokens hread)
      exact ⟨ts, e', rfl, hread, hvalue, hcases, hfew⟩
  · intro hexp
    obtain ⟨x, hx⟩ := Option.isSome_iff_exists.1 hexp.1
    obtain ⟨op, digits, rest, m, hparts⟩ := exists_parts hx
    exact refused_of_parts hparts ((hasExponent_iff hx hparts).1 hexp)

/-- A negative number between blanks keeps its value in parentheses. -/
theorem shortcuts_agree_negative :
    parse " -2.5 ".toList = .ok (.num (-2.5)) ∧ ¬ HasExponent (trim " -2.5 ".toList) ∧
    ∃ ts e', Token.scan (trim " -2.5 ".toList) = .ok ts ∧ weight ts + 5 < nestingBudget ∧
      parse (parens " -2.5 ".toList) = .ok e' ∧
      ∀ env, e'.evaluate env = Expr.evaluate env (.num (-2.5)) := by
  have hparse : parse " -2.5 ".toList = .ok (.num (-2.5)) := by decide +kernel
  have hexp : ¬ HasExponent (trim " -2.5 ".toList) := by
    have htrim : trim " -2.5 ".toList = ['-', '2', '.', '5'] := by decide +kernel
    rintro ⟨-, hletter⟩
    rw [htrim] at hletter
    simp at hletter
  have hscan : Token.scan (trim " -2.5 ".toList) =
      .ok [⟨.symbol .minus, 0⟩, ⟨.numeral ['2', '.', '5'], 1⟩] := by
    decide +kernel
  obtain ⟨ts, e', hts, -, hvalue, -, hfew⟩ := (shortcuts_agree hparse).1 hexp
  obtain rfl := Except.ok.inj (hscan.symm.trans hts)
  have hlight : weight [⟨.symbol .minus, 0⟩, ⟨.numeral ['2', '.', '5'], 1⟩] + 5 < nestingBudget := by
    decide
  exact ⟨hparse, hexp, _, e', hts, hlight, hfew hlight, hvalue⟩

/-- A numeral with an exponent is read on its own, but not in parentheses. -/
theorem exponent_on_its_own_only :
    parse "1e5".toList = .ok (.num 100000) ∧
    readTokens "1e5".toList =
      .error (.malformed (.leftover "1e5".toList [.ident "e5"]) 2) ∧
    parse (parens "1e5".toList) = .error (.malformed .unclosed 3) := by
  refine ⟨?_, ?_, ?_⟩ <;> decide +kernel

end PixelTurtle
