import PixelTurtle.Proofs.Spelling

/-!
# Reading written expressions

A written expression is scanned into the lexemes of its tree, and the parser builds the tree from
these. Both are inductions on the tree. The parser keeps to three levels of operators, so an
operator between two operands in parentheses is found by the level to which it belongs, and all of
them stop at a closing parenthesis or at the end.

* `Scans cs ls` says that a text has certain lexemes, wherever it stands.
* `scans_print` scans a written expression.
* `comparison_print` builds an expression from its lexemes.
* `parse_print` and `parse_parens` read a written expression, in parentheses or not.
-/

namespace PixelTurtle

/-! ## Lexemes -/

/-- The symbol of an operator. -/
def BinOp.toSymbol : BinOp → Symbol
  | .add => .plus
  | .sub => .minus
  | .mul => .times
  | .div => .slash
  | .mod => .percent
  | .eq => .eq
  | .ne => .ne
  | .lt => .lt
  | .le => .le
  | .gt => .gt
  | .ge => .ge

/-- The symbol of a sign. -/
def UnaryOp.toSymbol : UnaryOp → Symbol
  | .minus => .minus
  | _ => .plus

/-- Lexemes in parentheses. -/
def wrapped (ls : List Lexeme) : List Lexeme :=
  .symbol .lparen :: (ls ++ [.symbol .rparen])

/-- The lexemes of a written expression. -/
def Expr.lexemes (lit : Float → List Char) : Expr → List Lexeme
  | .num x => [.numeral (lit x)]
  | .var name => [.ident name]
  | .unary op e => .symbol op.toSymbol :: wrapped (e.lexemes lit)
  | .bin (.known op) l r =>
    wrapped (l.lexemes lit) ++ .symbol op.toSymbol :: wrapped (r.lexemes lit)
  | _ => []

/-! ## Scanning -/

/-- The text `cs` has the lexemes `ls`, wherever it stands. -/
def Scans (cs : List Char) (ls : List Lexeme) : Prop :=
  ∀ pos, ∃ ts, Token.scanFrom pos cs = .ok ts ∧ ts.map Token.lexeme = ls

section Scanning

variable {lit : Float → List Char} {cs tail : List Char} {ls : List Lexeme}

theorem scans_nil : Scans [] [] := fun pos => ⟨[], by rw [Token.scanFrom], rfl⟩

theorem scans_blank (h : Scans cs ls) : Scans (' ' :: cs) ls := by
  intro pos
  obtain ⟨ts, hts, hls⟩ := h (pos + 1)
  refine ⟨ts, ?_, hls⟩
  rw [Token.scanFrom, if_pos (show Text.isBlank ' ' = true from rfl), hts]

/-- One lexeme comes off the front of a text. -/
theorem scans_read {c : Char} {l : Lexeme} {n : Nat} (hc : Text.isBlank c = false)
    (hr : Lexeme.read c cs = .ok (l, n)) (h : Scans (cs.drop n) ls) :
    Scans (c :: cs) (l :: ls) := by
  intro pos
  obtain ⟨ts, hts, hls⟩ := h (pos + n + 1)
  refine ⟨⟨l, pos⟩ :: ts, ?_, ?_⟩
  · rw [Token.scanFrom, if_neg (by rw [hc]; exact Bool.false_ne_true), hr]
    simp only [hts]
  · rw [List.map_cons, hls]

theorem read_lparen (cs : List Char) : Lexeme.read '(' cs = .ok (.symbol .lparen, 0) := by
  cases cs with
  | nil => rfl
  | cons d cs => rfl

theorem read_rparen (cs : List Char) : Lexeme.read ')' cs = .ok (.symbol .rparen, 0) := by
  cases cs with
  | nil => rfl
  | cons d cs => rfl

/-- A character with which neither a name nor a literal goes on. -/
def Stops (cs : List Char) : Prop :=
  ∀ c ∈ cs.head?, Name.isPart c = false ∧ Lexeme.isNumeralPart c = false

theorem double?_of_isAtom {c : Char} (hc : isAtom c = true) (o : Option Char) :
    o.bind (Symbol.double? c) = none := by
  cases o with
  | none => rfl
  | some d =>
    show Symbol.double? c d = none
    unfold Symbol.double?
    split <;> first | rfl | exact absurd hc (by decide)

theorem single?_of_isAtom {c : Char} (hc : isAtom c = true) : Symbol.single? c = none := by
  unfold Symbol.single?
  split <;> first | rfl | exact absurd hc (by decide)

theorem isDigit_or_point {digits : List Char} (h : IsLiteral digits) {c : Char}
    (hc : c ∈ digits) : (Text.isDigit c || c == '.') = true := by
  rcases h.1 c hc with hd | rfl
  · rw [Text.isDigit, hd]
    rfl
  · rfl

theorem isDigit_of_isStart {c : Char} (h : Name.isStart c = true) :
    (Text.isDigit c || c == '.') = false := by
  have hn : ¬ 0x80 ≤ c.toNat := by
    have := toNat_of_isPart (isPart_of_isStart h)
    omega
  have hd : Text.isDecimal c = false := by
    by_contra hd
    rw [Bool.not_eq_false] at hd
    rw [isStart_of_isDecimal hd] at h
    cases h
  have hp : (c == '.') = false := by
    rw [beq_eq_false_iff_ne]
    rintro rfl
    cases h
  rw [Text.isDigit, hd, hp, decide_eq_false hn]
  rfl

/-- A word is one lexeme. -/
theorem scans_word {word : List Char} (h : Name.isIdentifier word = true)
    (ht : ∀ c ∈ tail.head?, Name.isPart c = false) (hs : Scans tail ls) :
    Scans (word ++ tail) (.ident (Name.canonical word) :: ls) := by
  cases word with
  | nil => cases h
  | cons c cs =>
    have hc : isAtom c = true := isAtom_of_isPart (isPart_of_mem h List.mem_cons_self)
    simp only [Name.isIdentifier, Bool.and_eq_true, List.all_eq_true] at h
    have hlone : (c == '!' || c == '=') = false := by
      rw [Bool.or_eq_false_iff, beq_eq_false_iff_ne, beq_eq_false_iff_ne]
      exact ⟨ne_of_isAtom hc rfl, ne_of_isAtom hc rfl⟩
    have hrun : (cs ++ tail).takeWhile Name.isPart = cs := takeWhile_append_stops h.2 ht
    rw [List.cons_append]
    refine scans_read (n := cs.length) (isBlank_of_isAtom hc) ?_ (by rwa [List.drop_left])
    rw [Lexeme.read, double?_of_isAtom hc, single?_of_isAtom hc]
    simp only [hlone, isDigit_of_isStart h.1, h.1, hrun, Bool.false_eq_true, if_false, if_true]

/-- A name is one lexeme, and kept as it is. -/
theorem scans_name {name : String} (h : IsName name) (ht : Stops tail) (hs : Scans tail ls) :
    Scans (name.toList ++ tail) (.ident name :: ls) := by
  have hword := scans_word h.1 (fun c hc => (ht c hc).1) hs
  rwa [canonical_of_isName h] at hword

/-- A literal has no underscores, a digit and at most one point. -/
theorem ofNumeral_of_isLiteral {digits : List Char} (h : IsLiteral digits)
    (hpoint : digits ≠ ['.']) : Lexeme.ofNumeral digits = .ok (.numeral digits) := by
  have hf : digits.filter (· != '_') = digits := by
    rw [List.filter_eq_self]
    intro c hc
    rw [bne_iff_ne]
    rintro rfl
    rcases h.1 '_' hc with hd | hd
    · exact absurd hd (by decide)
    · exact absurd hd (by decide)
  have hp : (digits == ['.']) = false := beq_eq_false_iff_ne.2 hpoint
  have hcount : ¬ 1 < digits.count '.' := Nat.not_lt.2 h.2
  rw [Lexeme.ofNumeral, hf, hp, decide_eq_false hcount]
  rfl

/-- A row of digits is one lexeme, whatever its value. -/
theorem scans_digits {digits : List Char} (h : IsLiteral digits) (hne : digits ≠ [])
    (hpoint : digits ≠ ['.']) (ht : ∀ c ∈ tail.head?, Lexeme.isNumeralPart c = false)
    (hs : Scans tail ls) : Scans (digits ++ tail) (.numeral digits :: ls) := by
  have hnum := ofNumeral_of_isLiteral h hpoint
  have hdigit := fun c hc => isDigit_or_point (c := c) h hc
  have hatom := fun c hc => isAtom_of_isLiteral (c := c) h hc
  cases digits with
  | nil => exact absurd rfl hne
  | cons c cs =>
    have hc := hatom c List.mem_cons_self
    have hlone : (c == '!' || c == '=') = false := by
      rw [Bool.or_eq_false_iff, beq_eq_false_iff_ne, beq_eq_false_iff_ne]
      exact ⟨ne_of_isAtom hc rfl, ne_of_isAtom hc rfl⟩
    have hrun : (cs ++ tail).takeWhile Lexeme.isNumeralPart = cs := by
      refine takeWhile_append_stops (fun d hd => ?_) ht
      rw [Lexeme.isNumeralPart, hdigit d (List.mem_cons_of_mem _ hd)]
      rfl
    rw [List.cons_append]
    refine scans_read (n := cs.length) (isBlank_of_isAtom hc) ?_ (by rwa [List.drop_left])
    rw [Lexeme.read, double?_of_isAtom hc, single?_of_isAtom hc]
    simp only [hlone, hdigit c List.mem_cons_self, hrun, hnum, Bool.false_eq_true, if_false,
      if_true]
    rfl

/-- A literal is one lexeme. -/
theorem scans_literal {x : Float} (h : Spells lit x) (ht : Stops tail) (hs : Scans tail ls) :
    Scans (lit x ++ tail) (.numeral (lit x) :: ls) :=
  scans_digits h.1 h.ne_nil h.ne_point (fun c hc => (ht c hc).2) hs

/-- A text in parentheses. -/
theorem scans_parens {inner : List Lexeme}
    (h : ∀ {tail ls}, Stops tail → Scans tail ls → Scans (cs ++ tail) (inner ++ ls))
    (hs : Scans tail ls) : Scans (parens cs ++ tail) (wrapped inner ++ ls) := by
  have hclose : Scans (')' :: tail) (.symbol .rparen :: ls) :=
    scans_read rfl (read_rparen tail) hs
  have hinner : Scans (cs ++ ')' :: tail) (inner ++ .symbol .rparen :: ls) := by
    refine h ?_ hclose
    rintro c ⟨⟩
    exact ⟨rfl, rfl⟩
  have hopen := scans_read rfl (read_lparen _) hinner
  rw [parens, wrapped, List.cons_append, List.cons_append, List.append_assoc, List.append_assoc]
  exact hopen

theorem scans_sign {op : UnaryOp} (hop : op = .plus ∨ op = .minus)
    (hs : Scans ('(' :: cs) ls) :
    Scans (op.text.toList ++ '(' :: cs) (.symbol op.toSymbol :: ls) := by
  rcases hop with rfl | rfl
  · exact scans_read (n := 0) (by decide) rfl hs
  · exact scans_read (n := 0) (by decide) rfl hs

theorem scans_operator (op : BinOp) (hs : Scans cs ls) :
    Scans (' ' :: (op.symbol.toList ++ [' ']) ++ cs) (.symbol op.toSymbol :: ls) := by
  refine scans_blank ?_
  have hs' := scans_blank hs
  cases op with
  | add => exact scans_read (n := 0) (by decide) rfl hs'
  | sub => exact scans_read (n := 0) (by decide) rfl hs'
  | mul => exact scans_read (n := 0) (by decide) rfl hs'
  | div => exact scans_read (n := 0) (by decide) rfl hs'
  | mod => exact scans_read (n := 0) (by decide) rfl hs'
  | eq => exact scans_read (n := 1) (by decide) rfl hs'
  | ne => exact scans_read (n := 1) (by decide) rfl hs'
  | lt => exact scans_read (n := 0) (by decide) rfl hs'
  | le => exact scans_read (n := 1) (by decide) rfl hs'
  | gt => exact scans_read (n := 0) (by decide) rfl hs'
  | ge => exact scans_read (n := 1) (by decide) rfl hs'

/-- **A written expression is scanned into the lexemes of its tree.** -/
theorem scans_print {e : Expr} (h : e.WellFormed lit) (ht : Stops tail) (hs : Scans tail ls) :
    Scans (e.print lit ++ tail) (e.lexemes lit ++ ls) := by
  induction e generalizing tail ls with
  | num x => exact scans_literal h ht hs
  | var name => exact scans_name h ht hs
  | unary op e ih =>
    rw [Expr.print, Expr.lexemes, List.append_assoc]
    exact scans_sign h.1 (scans_parens (ih h.2) hs)
  | bin op l r ihl ihr =>
    obtain ⟨⟨b, rfl⟩, hl, hr⟩ := h
    rw [Expr.print, Expr.lexemes, List.append_assoc, List.append_assoc, List.append_assoc]
    exact scans_parens (ihl hl) (scans_operator b (scans_parens (ihr hr) hs))
  | foreign kind => exact h.elim

end Scanning

/-! ## Building the tree -/

namespace Expr

section Parsing

variable {lit : Float → List Char} {finish n budget : Nat} {P : Parser} {ts rest : List Token}
  {e l r : Expr}

/-- What can follow an expression: a closing parenthesis, or nothing. -/
def Ends (rest : List Token) : Prop :=
  ∀ t ∈ rest.head?, t.lexeme = .symbol .rparen

theorem Ends.operator?_eq_none (h : Ends rest) {level : Level} (hl : level .rparen = none) :
    operator? level rest = none := by
  cases rest with
  | nil => rfl
  | cons t rest =>
    obtain ⟨lexeme, pos⟩ := t
    obtain rfl : lexeme = .symbol .rparen := h _ rfl
    rw [operator?, hl]
    rfl

/-- A chain of one operand. -/
theorem chain_one {level : Level} (hP : P ts = .ok (e, rest))
    (ho : operator? level rest = none) : chain level n P ts = .ok (e, rest) := by
  rw [chain, hP]
  cases n with
  | zero => rfl
  | succ n => simp only [chainFrom, ho]

/-- A chain of two operands. -/
theorem chain_two {level : Level} {op : BinOp} {mid mid' : List Token} (hn : 0 < n)
    (hl : P ts = .ok (l, mid)) (hm : operator? level mid = some (op, mid'))
    (hr : P mid' = .ok (r, rest)) (ho : operator? level rest = none) :
    chain level n P ts = .ok (.bin (.known op) l r, rest) := by
  rw [chain, hl]
  cases n with
  | zero => exact absurd hn (Nat.lt_irrefl 0)
  | succ n =>
    simp only [chainFrom, hm, hr]
    cases n with
    | zero => rfl
    | succ n => simp only [chainFrom, ho]

theorem comparison_one (hP : P ts = .ok (e, rest)) (h : Ends rest) :
    comparison n P ts = .ok (e, rest) :=
  chain_one (chain_one (chain_one hP (h.operator?_eq_none rfl)) (h.operator?_eq_none rfl))
    (h.operator?_eq_none rfl)

/-- An operator belongs to one level. -/
theorem level_toSymbol (op : BinOp) :
    productLevel op.toSymbol = some op ∨
      productLevel op.toSymbol = none ∧ sumLevel op.toSymbol = some op ∨
      productLevel op.toSymbol = none ∧ sumLevel op.toSymbol = none ∧
        comparisonLevel op.toSymbol = some op := by
  cases op <;> decide

theorem operator?_cons (level : Level) (s : Symbol) (pos : Nat) (ts : List Token) :
    operator? level (⟨.symbol s, pos⟩ :: ts) = (level s).map fun op => (op, ts) := rfl

/-- An operator between two operands is found by its level: the tighter ones stop before it, and the
looser ones do not see it. -/
theorem comparison_two {op : BinOp} {pos : Nat} {mid : List Token} (hn : 0 < n)
    (hl : P ts = .ok (l, ⟨.symbol op.toSymbol, pos⟩ :: mid)) (hr : P mid = .ok (r, rest))
    (h : Ends rest) : comparison n P ts = .ok (.bin (.known op) l r, rest) := by
  have hprod : operator? productLevel rest = none := h.operator?_eq_none rfl
  have hsum : operator? sumLevel rest = none := h.operator?_eq_none rfl
  have hcomp : operator? comparisonLevel rest = none := h.operator?_eq_none rfl
  have at_op (level : Level) := operator?_cons level op.toSymbol pos mid
  rcases level_toSymbol op with hp | ⟨hp, hs⟩ | ⟨hp, hs, hc⟩
  · refine chain_one (chain_one (chain_two hn hl ?_ hr hprod) hsum) hcomp
    rw [at_op, hp]
    rfl
  · refine chain_one (chain_two hn (chain_one hl ?_) ?_ (chain_one hr hprod) hsum) hcomp
    · rw [at_op, hp]
      rfl
    · rw [at_op, hs]
      rfl
  · refine chain_two hn (chain_one (chain_one hl ?_) ?_) ?_ (chain_one (chain_one hr hprod) hsum)
      hcomp
    · rw [at_op, hp]
      rfl
    · rw [at_op, hs]
      rfl
    · rw [at_op, hc]
      rfl

theorem sign?_toSymbol {op : UnaryOp} (hop : op = .plus ∨ op = .minus) :
    sign? op.toSymbol = some op := by
  rcases hop with rfl | rfl
  · rfl
  · rfl

/-- A sign and its operand. -/
theorem operand_sign {op : UnaryOp} (hop : op = .plus ∨ op = .minus) {pos : Nat}
    (h : operand finish n budget ts = .ok (e, rest)) :
    operand finish n (budget + 1) (⟨.symbol op.toSymbol, pos⟩ :: ts) =
      .ok (.unary op e, rest) := by
  simp only [operand, sign?_toSymbol hop, h]

/-- An expression in parentheses, whatever comes after them. -/
theorem operand_wrapped {ls : List Lexeme}
    (h : ∀ {ts rest}, ts.map Token.lexeme = ls → Ends rest →
      comparison n (operand finish n budget) (ts ++ rest) = .ok (e, rest))
    (hts : ts.map Token.lexeme = wrapped ls) (rest : List Token) :
    operand finish n (budget + 5) (ts ++ rest) = .ok (e, rest) := by
  rw [wrapped, List.map_eq_cons_iff] at hts
  obtain ⟨⟨open', pos⟩, inner, rfl, rfl, hinner⟩ := hts
  rw [List.map_eq_append_iff] at hinner
  obtain ⟨ts, close', rfl, hts, hclose⟩ := hinner
  obtain ⟨⟨c, pos'⟩, rfl, hc⟩ := List.map_eq_singleton_iff.1 hclose
  obtain rfl : c = .symbol .rparen := hc
  have hends : Ends (⟨.symbol .rparen, pos'⟩ :: rest) := by
    rintro t ⟨⟩
    rfl
  have hcomp := h hts hends
  rw [List.cons_append, List.append_assoc]
  simp only [operand, sign?, if_true, List.singleton_append, hcomp, close]

/-- **The lexemes of a tree are read as this tree.** -/
theorem comparison_print (hn : 0 < n) (h : e.WellFormed lit) (hb : e.nesting ≤ budget)
    (hts : ts.map Token.lexeme = e.lexemes lit) (hr : Ends rest) :
    comparison n (operand finish n budget) (ts ++ rest) = .ok (e, rest) := by
  induction e generalizing budget ts rest with
  | num x =>
    obtain ⟨⟨l, pos⟩, rfl, hl⟩ := List.map_eq_singleton_iff.1 hts
    obtain rfl : l = .numeral (lit x) := hl
    obtain ⟨m, hm, hx⟩ := Spells.exists_numeral h
    obtain ⟨b, rfl⟩ := Nat.exists_eq_add_of_le' hb
    refine comparison_one ?_ hr
    simp only [nesting, List.singleton_append, operand, hm, hx]
  | var name =>
    obtain ⟨⟨l, pos⟩, rfl, hl⟩ := List.map_eq_singleton_iff.1 hts
    obtain rfl : l = .ident name := hl
    obtain ⟨b, rfl⟩ := Nat.exists_eq_add_of_le' hb
    refine comparison_one ?_ hr
    simp only [nesting, List.singleton_append, operand]
  | unary op e ih =>
    obtain ⟨⟨l, pos⟩, ts, rfl, hl, hwrapped⟩ := List.map_eq_cons_iff.1 hts
    obtain rfl : l = .symbol op.toSymbol := hl
    rw [nesting] at hb
    obtain ⟨b, rfl⟩ := Nat.exists_eq_add_of_le' hb
    rw [← Nat.add_assoc]
    refine comparison_one (operand_sign h.1 (operand_wrapped ?_ hwrapped rest)) hr
    exact fun hts hr => ih h.2 (by omega) hts hr
  | bin op l r ihl ihr =>
    obtain ⟨⟨op, rfl⟩, hwl, hwr⟩ := h
    rw [lexemes, List.map_eq_append_iff] at hts
    obtain ⟨tl, right, rfl, htl, hright⟩ := hts
    obtain ⟨⟨s, pos⟩, tr, rfl, hs, htr⟩ := List.map_eq_cons_iff.1 hright
    obtain rfl : s = .symbol op.toSymbol := hs
    rw [nesting] at hb
    obtain ⟨b, rfl⟩ := Nat.exists_eq_add_of_le' hb
    rw [List.append_assoc, List.cons_append, ← Nat.add_assoc]
    refine comparison_two hn (operand_wrapped ?_ htl _) (operand_wrapped ?_ htr _) hr
    · exact fun hts hr => ihl hwl (by omega) hts hr
    · exact fun hts hr => ihr hwr (by omega) hts hr
  | foreign kind => exact h.elim

end Parsing

/-! ## The text of an expression -/

section Printed

variable {lit : Float → List Char} {e : Expr}

theorem getLast?_parens (a cs : List Char) : (a ++ parens cs).getLast? = some ')' := by
  rw [parens, ← List.cons_append, ← List.append_assoc, List.getLast?_concat]

theorem isArgument_parens (cs : List Char) : IsArgument (parens cs) :=
  ⟨'(', cs ++ [')'], rfl, rfl, by decide⟩

theorem isArgument_print (h : e.WellFormed lit) : IsArgument (e.print lit) := by
  cases e with
  | num x => exact isArgument_of_isAtom (Spells.ne_nil h) (Spells.isAtom h)
  | var name => exact isArgument_of_isAtom (toList_ne_nil_of_isName h) (isAtom_of_isName h)
  | unary op e =>
    rcases h.1 with rfl | rfl
    · exact ⟨'+', _, rfl, rfl, by decide⟩
    · exact ⟨'-', _, rfl, rfl, by decide⟩
  | bin op l r => exact ((isArgument_parens _).append _).append _
  | foreign kind => exact h.elim

theorem trimmed_parens (cs : List Char) : Trimmed (parens cs) := by
  refine ⟨?_, ?_⟩
  · rintro c ⟨⟩
    rfl
  · have := getLast?_parens [] cs
    rw [List.nil_append] at this
    rw [this]
    rintro c ⟨⟩
    rfl

theorem trimmed_print (h : e.WellFormed lit) : Trimmed (e.print lit) := by
  have hlast {a cs : List Char} {c : Char} (hc : c ∈ (a ++ parens cs).getLast?) :
      Text.isBlank c = false := by
    rw [getLast?_parens] at hc
    cases hc
    rfl
  refine ⟨fun c hc => ?_, fun c hc => ?_⟩
  · obtain ⟨d, cs, hd, hblank, -⟩ := isArgument_print h
    rw [hd] at hc
    cases hc
    exact hblank
  · cases e with
    | num x => exact (trimmed_of_isAtom (Spells.isAtom h)).last c hc
    | var name => exact (trimmed_of_isAtom (isAtom_of_isName h)).last c hc
    | unary op e => exact hlast hc
    | bin op l r => exact hlast hc
    | foreign kind => exact h.elim

theorem tidy_parens {cs : List Char} (h : Tidy cs) : Tidy (parens cs) :=
  Tidy.cons (by decide) (h.append (by decide))

/-- No line ends and no comment starts in a written expression. -/
theorem tidy_print (h : e.WellFormed lit) : Tidy (e.print lit) := by
  induction e with
  | num x => exact tidy_of_isAtom (Spells.isAtom h)
  | var name => exact tidy_of_isAtom (isAtom_of_isName h)
  | unary op e ih =>
    refine Tidy.append ?_ (tidy_parens (ih h.2))
    rcases h.1 with rfl | rfl <;> decide
  | bin op l r ihl ihr =>
    obtain ⟨⟨op, rfl⟩, hl, hr⟩ := h
    refine ((tidy_parens (ihl hl)).append ?_).append (tidy_parens (ihr hr))
    cases op <;> decide
  | foreign kind => exact h.elim

/-- How a whole text is read that is neither a name nor a numeral. -/
theorem parse_of_scans {text : List Char} {ls : List Lexeme} (ht : Trimmed text)
    (hne : text ≠ []) (hid : Name.isIdentifier text = false) (hnum : Number.finite? text = none)
    (hs : Scans text ls)
    (hp : ∀ {finish n ts}, 0 < n → ts.map Token.lexeme = ls →
      comparison n (operand finish n nestingBudget) ts = .ok (e, [])) (hls : ls ≠ []) :
    Expr.parse text = .ok e := by
  obtain ⟨ts, hts, hmap⟩ := hs 0
  have hn : 0 < ts.length := by
    rw [List.length_pos_iff]
    rintro rfl
    exact hls hmap.symm
  have hempty : text.isEmpty = false := by
    rw [List.isEmpty_eq_false_iff]
    exact hne
  rw [Expr.parse]
  simp only [trim_eq_self ht, hempty, hid, hnum, Token.scan, hts, Bool.false_eq_true, if_false,
    ofTokens, hp hn hmap]

theorem finite?_lparen (cs : List Char) : Number.finite? ('(' :: cs) = none := by
  rfl

theorem finite?_sign (op : UnaryOp) (hop : op = .plus ∨ op = .minus) (cs : List Char) :
    Number.finite? (op.text.toList ++ '(' :: cs) = none := by
  rcases hop with rfl | rfl
  · rfl
  · rfl

theorem comparison_print_all {finish n budget : Nat} {ts : List Token} (hn : 0 < n)
    (h : e.WellFormed lit) (hb : e.nesting ≤ budget)
    (hts : ts.map Token.lexeme = e.lexemes lit) :
    comparison n (operand finish n budget) ts = .ok (e, []) := by
  have hends : Ends [] := nofun
  have hall : comparison n (operand finish n budget) (ts ++ []) = .ok (e, []) :=
    comparison_print hn h hb hts hends
  rwa [List.append_nil] at hall

theorem lexemes_ne_nil (h : e.WellFormed lit) : e.lexemes lit ≠ [] := by
  cases e with
  | num x => nofun
  | var name => nofun
  | unary op e => nofun
  | bin op l r =>
    obtain ⟨⟨op, rfl⟩, -, -⟩ := h
    nofun
  | foreign kind => exact h.elim

/-- **A written expression is read as it is.** -/
theorem parse_print (h : e.Writable lit 0) : Expr.parse (e.print lit) = .ok e := by
  obtain ⟨hw, hnest⟩ := h
  have hs : Scans (e.print lit ++ []) (e.lexemes lit ++ []) := scans_print hw nofun scans_nil
  rw [List.append_nil, List.append_nil] at hs
  have ht := trimmed_print hw
  obtain ⟨c, cs, hcons, -, -⟩ := isArgument_print hw
  have hne : e.print lit ≠ [] := by
    rw [hcons]
    nofun
  cases e with
  | num x =>
    have hx : Spells lit x := hw
    rw [print] at ht hne ⊢
    rw [Expr.parse]
    simp only [trim_eq_self ht, List.isEmpty_eq_false_iff.2 hne, hx.isIdentifier_eq_false, hx.2,
      Bool.false_eq_true, if_false]
  | var name =>
    have hx : IsName name := hw
    rw [print] at ht hne ⊢
    rw [Expr.parse]
    simp only [trim_eq_self ht, List.isEmpty_eq_false_iff.2 hne, hx.1, canonical_of_isName hx,
      Bool.false_eq_true, if_false, if_true]
  | unary op e =>
    refine parse_of_scans ht hne ?_ (finite?_sign op hw.1 _) hs ?_ (lexemes_ne_nil hw)
    · rcases hw.1 with rfl | rfl <;> rfl
    · exact fun hn hts => comparison_print_all hn hw (by omega) hts
  | bin op l r =>
    refine parse_of_scans ht hne rfl (finite?_lparen _) hs ?_ (lexemes_ne_nil hw)
    exact fun hn hts => comparison_print_all hn hw (by omega) hts
  | foreign kind => exact hw.elim

/-- A written expression in parentheses is read as the expression. -/
theorem parse_parens (h : e.Writable lit 1) : Expr.parse (parens (e.print lit)) = .ok e := by
  obtain ⟨hw, hnest⟩ := h
  have hs : Scans (parens (e.print lit) ++ []) (wrapped (e.lexemes lit) ++ []) :=
    scans_parens (scans_print hw) scans_nil
  rw [List.append_nil, List.append_nil] at hs
  refine parse_of_scans (trimmed_parens _) nofun rfl (finite?_lparen _) hs ?_ nofun
  intro finish n ts hn hts
  have hends : Ends [] := nofun
  have hop : operand finish n (nestingBudget - 5 + 5) (ts ++ []) = .ok (e, []) :=
    operand_wrapped (fun hts hr => comparison_print hn hw (by omega) hts hr) hts []
  rw [List.append_nil] at hop
  exact comparison_one hop hends

end Printed

end Expr

end PixelTurtle
