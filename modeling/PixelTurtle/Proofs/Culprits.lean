import PixelTurtle.Proofs.Pieces
import PixelTurtle.Proofs.Refusals

/-!
# What complaints about expressions point at

A complaint about an expression points at the first character or token with which no expression goes
on, or at the end of the text, if there is no expression yet.

* `Grammar.Begins` are the beginnings of phrases. `Grammar.Place` is where a reader of tokens is,
  and `Grammar.Begins.walk_ne_none` says that the reader gets through every beginning.
* `Grammar.greedy_comparison` says that an expression is read up to a token that does not continue
  it.
* `Grammar.Stuck` says where the parser gets stuck, and `Grammar.sticks_operand` and
  `Grammar.sticks_comparison` that it fails in no other way.
* `Culprit` is what is wrong with a text, with its place. `culprit_of_ofTokens` finds it among the
  tokens, `culprit_of_read` among the characters, and `culprit_of_parse` joins them.
* `Source.expression_complaint_column` is the theorem about lines.
-/

namespace PixelTurtle

namespace Grammar

open PixelTurtle.Expr

/-! ## Beginnings of phrases -/

/-- Some phrase begins with the tokens. -/
def Begins (ph : Phrase) (ts : List Token) : Prop :=
  ∃ more e, Derives ph (ts ++ more) e

/-- Where a reader of tokens is: how many parentheses are open, and whether an operand is due. -/
structure Place where
  depth : Nat
  due : Bool
  deriving DecidableEq, Repr

/-- Where the reader gets by a token that can stand at this place. A plus or a minus is a sign or an
operator. -/
def Place.next (p : Place) : Lexeme → Option Place
  | .numeral _ | .ident _ => if p.due then some ⟨p.depth, false⟩ else none
  | .symbol .plus | .symbol .minus => some ⟨p.depth, true⟩
  | .symbol .lparen => if p.due then some ⟨p.depth + 1, true⟩ else none
  | .symbol .rparen => if p.due || p.depth == 0 then none else some ⟨p.depth - 1, false⟩
  | .symbol _ => if p.due then none else some ⟨p.depth, true⟩

/-- Where the reader gets by tokens of which each can stand at its place. -/
def Place.walk (p : Place) (ts : List Token) : Option Place :=
  ts.foldlM (fun p t => p.next t.lexeme) p

section Walk

variable {ph : Phrase} {g : Grade} {ts us : List Token} {t : Token} {e : Expr} {s : Symbol}
  {op : BinOp} {p : Place} {d : Nat}

theorem Place.walk_cons (p : Place) (t : Token) (ts : List Token) :
    p.walk (t :: ts) = (p.next t.lexeme).bind fun q => q.walk ts :=
  List.foldlM_cons

theorem Place.walk_append (p : Place) (ts us : List Token) :
    p.walk (ts ++ us) = (p.walk ts).bind fun q => q.walk us :=
  List.foldlM_append

theorem next_operator (h : g.level s = some op) (d : Nat) :
    Place.next ⟨d, false⟩ (.symbol s) = some ⟨d, true⟩ := by
  cases g <;> cases s <;> cases h <;> rfl

theorem next_sign {op : UnaryOp} (h : sign? s = some op) (d : Nat) :
    Place.next ⟨d, true⟩ (.symbol s) = some ⟨d, true⟩ := by
  cases s <;> cases h <;> rfl

/-- A phrase is where an operand was due, and leaves the parentheses around it as they are. -/
theorem Derives.walk_eq (h : Derives ph ts e) (d : Nat) :
    Place.walk ⟨d, true⟩ ts = some ⟨d, false⟩ := by
  induction h generalizing d with
  | one _ ih => exact ih d
  | more _ hop hs _ ihl ihr =>
    have hnext := next_operator (level_eq_some_iff.2 ⟨hop, hs⟩) d
    rw [Place.walk_append, ihl, Option.bind_some, Place.walk_cons, hnext, Option.bind_some, ihr]
  | sign hop hs _ ih =>
    rw [Place.walk_cons, next_sign (sign?_eq_some_iff.2 ⟨hop, hs⟩), Option.bind_some, ih]
  | unsigned _ ih => exact ih d
  | numeral _ => rfl
  | ident => rfl
  | parens _ ih =>
    have hopen : Place.next ⟨d, true⟩ (.symbol .lparen) = some ⟨d + 1, true⟩ := rfl
    rw [Place.walk_cons, hopen, Option.bind_some, Place.walk_append, ih]
    rfl

/-- Each token at the beginning of a phrase can stand at its place. -/
theorem Begins.walk_ne_none (h : Begins ph ts) (d : Nat) : Place.walk ⟨d, true⟩ ts ≠ none := by
  obtain ⟨more, e, hd⟩ := h
  intro hnone
  have hwalk := hd.walk_eq d
  rw [Place.walk_append, hnone] at hwalk
  cases hwalk

/-- A token that can stand at its place neither before nor after an operand. -/
theorem next_eq_none_of_follows {us : List Token} (h : Follows 0 (t :: us))
    (hclosed : t.lexeme ≠ .symbol .rparen ∨ d = 0) : Place.next ⟨d, false⟩ t.lexeme = none := by
  obtain ⟨lexeme, pos⟩ := t
  cases lexeme with
  | numeral digits => rfl
  | ident name => rfl
  | symbol s =>
    have hnot (g : Grade) : g.level s = none := by
      have hg := h g (Nat.zero_le _)
      rwa [operator?, Option.map_eq_none_iff] at hg
    cases s with
    | rparen =>
      rcases hclosed with hclosed | rfl
      · exact absurd rfl hclosed
      · rfl
    | lparen => rfl
    | plus | minus => cases hnot .sum
    | times | slash | percent => cases hnot .product
    | eq | ne | lt | le | gt | ge => cases hnot .comparison

theorem next_eq_none_of_due (hsign : sign? s = none) (hopen : s ≠ .lparen) (d : Nat) :
    Place.next ⟨d, true⟩ (.symbol s) = none := by
  cases s <;> first | rfl | exact absurd rfl hopen | cases hsign

end Walk

/-! ## How far a phrase is read -/

section Greedy

variable {P : Parser} {g : Grade} {ts us rest : List Token} {e e' : Expr} {n k : Nat}

/-- What `P` leaves of at most `n` tokens does not go on with an operator of rank `k` or more. -/
def Greedy (n k : Nat) (P : Parser) : Prop :=
  ∀ ⦃ts e rest⦄, ts.length ≤ n → P ts = .ok (e, rest) → Follows k rest

theorem length_le_of_sound {ph : Phrase} (hP : Sound P ph) (h : P ts = .ok (e, rest)) :
    rest.length ≤ ts.length := by
  obtain ⟨used, rfl, -⟩ := hP h
  rw [List.length_append]
  exact Nat.le_add_left _ _

theorem follows_of_operator?_eq_none (h : operator? g.level rest = none)
    (hrest : Follows (g.rank + 1) rest) : Follows g.rank rest := by
  intro g' hg'
  rcases Nat.eq_or_lt_of_le hg' with heq | hlt
  · have hsame : g = g' := by
      cases g <;> cases g' <;> first | rfl | cases heq
    rwa [← hsame]
  · exact hrest g' hlt

/-- A chain has enough operators for its tokens, since each of them is one. -/
theorem follows_chainFrom (hP : Sound P g.operands) (hgreedy : Greedy n (g.rank + 1) P) {j : Nat}
    (hts : Follows (g.rank + 1) ts) (hj : ts.length ≤ j) (hn : ts.length ≤ n)
    (h : chainFrom g.level P j e ts = .ok (e', rest)) : Follows g.rank rest := by
  induction j generalizing e ts with
  | zero =>
    cases h
    rw [List.eq_nil_of_length_eq_zero (Nat.le_zero.1 hj)]
    exact follows_nil _
  | succ j ih =>
    rw [chainFrom] at h
    split at h
    · rename_i hstop
      cases h
      exact follows_of_operator?_eq_none hstop hts
    · rename_i op after hop
      obtain ⟨s, pos, rfl, -⟩ := operator?_eq_some hop
      rw [List.length_cons] at hj hn
      split at h
      · cases h
      · rename_i r rest' hr
        have hle := length_le_of_sound hP hr
        exact ih (hgreedy (by omega) hr) (by omega) (by omega) h

theorem greedy_chain (hP : Sound P g.operands) (hgreedy : Greedy n (g.rank + 1) P) :
    Greedy n g.rank (chain g.level n P) := by
  intro ts e rest hn h
  rw [chain] at h
  split at h
  · cases h
  · rename_i e₀ rest₀ h₀
    have hle := length_le_of_sound hP h₀
    exact follows_chainFrom hP hgreedy (hgreedy hn h₀) (by omega) (by omega) h

/-- **A comparison is read up to a token that is no operator.** -/
theorem greedy_comparison (hP : Sound P .signed) : Greedy n 0 (comparison n P) := by
  have hoperand : Greedy n 3 P := by
    intro ts e rest _ _ g hg
    cases g <;> simp [Grade.rank] at hg
  have hproduct : Sound (product n P) (.chain .product) := sound_chain (g := .product) hP
  have hsum : Sound (Expr.sum n P) (.chain .sum) := sound_chain (g := .sum) hproduct
  exact greedy_chain (g := .comparison) hsum
    (greedy_chain (g := .sum) hproduct (greedy_chain (g := .product) hP hoperand))

end Greedy

/-! ## Where the parser gets stuck -/

/-- The parser gets stuck with the tokens, which should be a phrase: at a token with which no phrase
goes on, or at the end of the text. The phrase may stand between parentheses. -/
inductive Stuck (finish : Nat) (ph : Phrase) : List Token → ParseError → Prop
  | token {before after : List Token} {t : Token} {p : Problem} : Begins ph before →
    (∀ d, ∃ q, Place.walk ⟨d, true⟩ before = some q ∧ q.next t.lexeme = none) →
    ((∃ s, p = .unexpectedSymbol s ∧ t.lexeme = .symbol s) ∨
      p = .unclosed ∧ ∀ pos, Begins ph (before ++ [⟨.symbol .rparen, pos⟩])) →
    Stuck finish ph (before ++ t :: after) (.malformed p (t.pos + 1))
  | finish {ts : List Token} {p : Problem} : Begins ph ts →
    (∀ d, ∃ q, Place.walk ⟨d, true⟩ ts = some q ∧ (q.due = true ∨ d < q.depth)) →
    (p = .unexpectedEnd ∨ p = .unclosed ∧ ∀ pos, Begins ph (ts ++ [⟨.symbol .rparen, pos⟩])) →
    Stuck finish ph ts (.malformed p (finish + 1))
  | numeral {ts : List Token} (digits : List Char) : Stuck finish ph ts (.numeral digits)
  | tooDeep {ts : List Token} : Stuck finish ph ts .tooDeep

section Stuck

variable {P : Parser} {ph ph' : Phrase} {g : Grade} {ts us : List Token} {e : Expr}
  {err : ParseError} {finish n : Nat}

/-- Where a part of a phrase gets stuck, the phrase does, if an operand is due before the part. -/
theorem Stuck.after (us : List Token) (h : Stuck finish ph ts err)
    (hbegins : ∀ vs, Begins ph vs → Begins ph' (us ++ vs))
    (hwalk : ∀ d, ∃ k, Place.walk ⟨d, true⟩ us = some ⟨d + k, true⟩) :
    Stuck finish ph' (us ++ ts) err := by
  have hclosed {vs : List Token} (h : ∀ pos, Begins ph (vs ++ [⟨.symbol .rparen, pos⟩]))
      (pos : Nat) : Begins ph' (us ++ vs ++ [⟨.symbol .rparen, pos⟩]) := by
    rw [List.append_assoc]
    exact hbegins _ (h pos)
  cases h with
  | @token before after t p hbefore hplace hp =>
    rw [← List.append_assoc]
    refine .token (hbegins _ hbefore) (fun d => ?_)
      (hp.imp_right fun ⟨hunclosed, h⟩ => ⟨hunclosed, hclosed h⟩)
    obtain ⟨k, hk⟩ := hwalk d
    obtain ⟨q, hq, hnone⟩ := hplace (d + k)
    exact ⟨q, by rw [Place.walk_append, hk, Option.bind_some, hq], hnone⟩
  | finish hts hplace hp =>
    refine .finish (hbegins _ hts) (fun d => ?_)
      (hp.imp_right fun ⟨hunclosed, h⟩ => ⟨hunclosed, hclosed h⟩)
    obtain ⟨k, hk⟩ := hwalk d
    obtain ⟨q, hq, hopen⟩ := hplace (d + k)
    exact ⟨q, by rw [Place.walk_append, hk, Option.bind_some, hq], hopen.imp_right (by omega)⟩
  | numeral digits => exact .numeral digits
  | tooDeep => exact .tooDeep

theorem Begins.one {vs : List Token} (h : Begins g.operands vs) : Begins (.chain g) vs := by
  obtain ⟨more, e, hd⟩ := h
  exact ⟨more, e, .one hd⟩

theorem Begins.more {s : Symbol} {op : BinOp} {pos : Nat} {vs : List Token}
    (hl : Derives (.chain g) us e) (hs : g.level s = some op) (h : Begins g.operands vs) :
    Begins (.chain g) (us ++ [⟨.symbol s, pos⟩] ++ vs) := by
  obtain ⟨more, r, hd⟩ := h
  obtain ⟨hgrade, htext⟩ := level_eq_some_iff.1 hs
  refine ⟨more, .bin (.known op) e r, ?_⟩
  rw [List.append_assoc, List.append_assoc, List.singleton_append]
  exact .more hl hgrade htext hd

theorem Begins.sign {s : Symbol} {op : UnaryOp} {pos : Nat} {vs : List Token}
    (hs : sign? s = some op) (h : Begins .signed vs) :
    Begins .signed ([⟨.symbol s, pos⟩] ++ vs) := by
  obtain ⟨more, e, hd⟩ := h
  obtain ⟨hop, htext⟩ := sign?_eq_some_iff.1 hs
  exact ⟨more, .unary op e, .sign hop htext hd⟩

theorem Begins.parens {pos : Nat} {vs : List Token} (h : Begins (.chain .comparison) vs) :
    Begins .signed ([⟨.symbol .lparen, pos⟩] ++ vs) := by
  obtain ⟨more, e, hd⟩ := h
  refine ⟨more ++ [⟨.symbol .rparen, 0⟩], e, ?_⟩
  rw [List.singleton_append, List.cons_append, ← List.append_assoc]
  exact .unsigned (.parens hd)

/-- Where `P` fails with at most `n` tokens that should be a phrase, it gets stuck. -/
def Sticks (finish n : Nat) (ph : Phrase) (P : Parser) : Prop :=
  ∀ ⦃ts err⦄, ts.length ≤ n → P ts = .error err → Stuck finish ph ts err

theorem stuck_chainFrom (hP : Sound P g.operands) (h : Sticks finish n g.operands P) {j : Nat}
    (hd : Derives (.chain g) us e) (hn : ts.length ≤ n)
    (hts : chainFrom g.level P j e ts = .error err) : Stuck finish (.chain g) (us ++ ts) err := by
  induction j generalizing us e ts with
  | zero => cases hts
  | succ j ih =>
    rw [chainFrom] at hts
    split at hts
    · cases hts
    · rename_i op after hop
      obtain ⟨s, pos, rfl, hs⟩ := operator?_eq_some hop
      rw [List.length_cons] at hn
      split at hts
      · rename_i hr
        cases hts
        have hwalk (d : Nat) : ∃ k, Place.walk ⟨d, true⟩ (us ++ [⟨.symbol s, pos⟩]) =
            some ⟨d + k, true⟩ := by
          refine ⟨0, ?_⟩
          rw [Place.walk_append, hd.walk_eq, Option.bind_some, Place.walk_cons, next_operator hs]
          rfl
        have hstuck := (h (by omega) hr).after _ (fun vs hvs => .more hd hs hvs) hwalk
        rwa [List.append_assoc, List.singleton_append] at hstuck
      · rename_i r rest hr
        obtain ⟨used, rfl, hused⟩ := hP hr
        obtain ⟨hgrade, htext⟩ := level_eq_some_iff.1 hs
        rw [List.length_append] at hn
        have hmore : Derives (.chain g) (us ++ ⟨.symbol s, pos⟩ :: used) (.bin (.known op) e r) :=
          .more hd hgrade htext hused
        have hstuck := ih hmore (by omega) hts
        rwa [List.append_assoc, List.cons_append] at hstuck

theorem sticks_chain (hP : Sound P g.operands) (h : Sticks finish n g.operands P) :
    Sticks finish n (.chain g) (chain g.level n P) := by
  intro ts err hn hts
  rw [chain] at hts
  split at hts
  · rename_i hr
    cases hts
    exact (h hn hr).after [] (fun vs hvs => hvs.one) fun d => ⟨0, rfl⟩
  · rename_i e₀ rest₀ h₀
    obtain ⟨used, rfl, hd⟩ := hP h₀
    rw [List.length_append] at hn
    exact stuck_chainFrom hP h (.one hd) (by omega) hts

theorem sticks_comparison (hP : Sound P .signed) (h : Sticks finish n .signed P) :
    Sticks finish n (.chain .comparison) (comparison n P) :=
  have hproduct : Sound (product n P) (.chain .product) := sound_chain (g := .product) hP
  have hsum : Sound (Expr.sum n P) (.chain .sum) := sound_chain (g := .sum) hproduct
  sticks_chain (g := .comparison) hsum
    (sticks_chain (g := .sum) hproduct (sticks_chain (g := .product) hP h))

/-- After an expression that was opened and goes on with no operator, the parser is stuck, unless
the next token closes it. -/
theorem stuck_close {rest : List Token} {pos : Nat} (hd : IsExpression us e)
    (hrest : Follows 0 rest) (h : close finish e rest = .error err) :
    Stuck finish .signed (⟨.symbol .lparen, pos⟩ :: (us ++ rest)) err := by
  have hwalk (d : Nat) :
      Place.walk ⟨d, true⟩ (⟨.symbol .lparen, pos⟩ :: us) = some ⟨d + 1, false⟩ := by
    have hopen : Place.next ⟨d, true⟩ (.symbol .lparen) = some ⟨d + 1, true⟩ := rfl
    rw [Place.walk_cons, hopen, Option.bind_some, hd.walk_eq]
  have hclosed (pos' : Nat) :
      Begins .signed (⟨.symbol .lparen, pos⟩ :: us ++ [⟨.symbol .rparen, pos'⟩]) := by
    refine ⟨[], e, ?_⟩
    rw [List.append_nil, List.cons_append]
    exact .unsigned (.parens hd)
  have hbegins : Begins .signed (⟨.symbol .lparen, pos⟩ :: us) :=
    Begins.parens ⟨[], e, by rwa [List.append_nil]⟩
  unfold close at h
  split at h
  · cases h
  · rename_i t ts hparen
    cases h
    have hnot : t.lexeme ≠ .symbol .rparen := by
      intro hlex
      obtain ⟨lexeme, pos'⟩ := t
      cases hlex
      exact hparen pos' rfl
    rw [← List.cons_append]
    exact .token hbegins (fun d => ⟨_, hwalk d, next_eq_none_of_follows hrest (.inl hnot)⟩)
      (.inr ⟨rfl, hclosed⟩)
  · cases h
    rw [List.append_nil]
    exact .finish hbegins (fun d => ⟨_, hwalk d, .inr (Nat.lt_succ_self d)⟩) (.inr ⟨rfl, hclosed⟩)

theorem sticks_operand (finish n budget : Nat) :
    Sticks finish n .signed (operand finish n budget) := by
  induction budget using Nat.strongRecOn with
  | ind budget ih =>
  intro ts err hn h
  cases budget with
  | zero =>
    cases h
    exact .tooDeep
  | succ b =>
  have hbegins : Begins .signed [] := ⟨[⟨.ident "x", 0⟩], _, .unsigned .ident⟩
  cases ts with
  | nil =>
    simp only [operand] at h
    cases h
    exact .finish hbegins (fun d => ⟨_, rfl, .inl rfl⟩) (.inl rfl)
  | cons t ts =>
  obtain ⟨lexeme, pos⟩ := t
  rw [List.length_cons] at hn
  cases lexeme with
  | numeral digits =>
    simp only [operand] at h
    split at h
    · cases h
    · cases h
      exact .numeral digits
  | ident name =>
    simp only [operand] at h
    cases h
  | symbol s =>
    simp only [operand] at h
    split at h
    · rename_i op hop
      split at h
      · rename_i h₀
        cases h
        refine (ih b (Nat.lt_succ_self b) (by omega) h₀).after [⟨.symbol s, pos⟩]
          (fun vs hvs => hvs.sign hop) fun d => ⟨0, ?_⟩
        rw [Place.walk_cons, next_sign hop]
        rfl
      · cases h
    · rename_i hsign
      split at h
      · rename_i hs
        subst hs
        split at h
        · rename_i inner
          split at h
          · rename_i h₀
            cases h
            exact (sticks_comparison (sound_operand finish n inner) (ih inner (by omega))
              (by omega) h₀).after [⟨.symbol .lparen, pos⟩] (fun vs hvs => hvs.parens)
              fun d => ⟨1, rfl⟩
          · rename_i rest h₀
            have hrest := greedy_comparison (sound_operand finish n inner) (by omega) h₀
            obtain ⟨used, rfl, hd⟩ := sound_comparison (sound_operand finish n inner) h₀
            exact stuck_close hd hrest h
        · cases h
          exact .tooDeep
      · rename_i hs
        cases h
        show Stuck finish .signed ([] ++ ⟨.symbol s, pos⟩ :: ts) _
        exact .token hbegins
          (fun d => ⟨_, rfl, next_eq_none_of_due hsign hs d⟩) (.inl ⟨s, rfl, rfl⟩)

theorem not_begins {t : Token} {q : Place} (hwalk : Place.walk ⟨0, true⟩ us = some q)
    (hnext : q.next t.lexeme = none) : ¬ Begins ph (us ++ [t]) := by
  intro h
  refine h.walk_ne_none 0 ?_
  rw [Place.walk_append, hwalk, Option.bind_some, Place.walk_cons, hnext, Option.bind_none]

end Stuck

end Grammar

/-! ## Culprits -/

open Grammar (Begins IsExpression)

/-- The token `t` stands where `here` starts. Before it an expression may begin, but no expression
goes on with it. -/
structure Offends (before here : List Char) (used : List Token) (t : Token) (more : List Token) :
    Prop where
  scan : Token.scan (before ++ here) = .ok (used ++ t :: more)
  pos : t.pos = before.length
  spelled : ∃ spelling rest, here = spelling ++ rest ∧ t.lexeme.IsWritten spelling ∧
    t.lexeme.StopsBefore spelling rest
  begins : Begins (.chain .comparison) used
  ends : ¬ Begins (.chain .comparison) (used ++ [t])

/-- What is wrong with the text `before ++ here` is what stands at the start of `here`, or that the
text ends, if there is nothing more. -/
inductive Culprit (before : List Char) : List Char → Problem → Prop
  /-- A character with which no lexeme starts. -/
  | char {c : Char} {rest : List Char} {ts : List Token} : Token.scan before = .ok ts →
    Text.isBlank c = false → (∀ (l : Lexeme) run, ¬ l.IsWritten (c :: run)) → c ≠ '!' → c ≠ '=' →
    Culprit before (c :: rest) (.unexpectedChar c)
  /-- A character that lacks an equals sign after it. -/
  | lone {c : Char} {rest : List Char} {ts : List Token} : Token.scan before = .ok ts →
    c = '!' ∨ c = '=' → rest.head? ≠ some '=' → Culprit before (c :: rest) (.lone c)
  /-- A whole run of digits, points and underscores that is no numeral. -/
  | numeral {c : Char} {run rest : List Char} {ts : List Token} : Token.scan before = .ok ts →
    Text.isDigit c = true ∨ c = '.' → (∀ d ∈ run, Lexeme.isNumeralPart d = true) →
    (∀ d ∈ rest.head?, Lexeme.isNumeralPart d = false) →
    (∀ l : Lexeme, ¬ l.IsWritten (c :: run)) → Culprit before (c :: run ++ rest) .badNumeral
  /-- A symbol where it cannot stand. -/
  | symbol {here : List Char} {used more : List Token} {t : Token} {s : Symbol} :
    Offends before here used t more → t.lexeme = .symbol s →
    Culprit before here (.unexpectedSymbol s)
  /-- A token in the place of a closing parenthesis. -/
  | unclosed {here : List Char} {used more : List Token} {t : Token} :
    Offends before here used t more →
    Begins (.chain .comparison) (used ++ [⟨.symbol .rparen, t.pos⟩]) → Culprit before here .unclosed
  /-- The first of the tokens after an expression. -/
  | leftover {here : List Char} {used more : List Token} {t : Token} {e : Expr} :
    Offends before here used t more → IsExpression used e →
    Culprit before here (.leftover (before ++ here) ((t :: more).map Token.lexeme))
  /-- The end of a text that may begin an expression but is none. -/
  | ended {ts : List Token} : Token.scan before = .ok ts → Begins (.chain .comparison) ts →
    (∀ e, ¬ IsExpression ts e) → Culprit before [] .unexpectedEnd
  /-- The end of a text in which a closing parenthesis is missing. -/
  | opened {ts : List Token} : Token.scan before = .ok ts →
    Begins (.chain .comparison) (ts ++ [⟨.symbol .rparen, before.length⟩]) →
    (∀ e, ¬ IsExpression ts e) → Culprit before [] .unclosed

section

variable {text : List Char} {used more ts : List Token} {t : Token} {p : Problem} {column pos : Nat}
  {c : Char} {cs : List Char}

/-- A token stands in the text from its position on. -/
theorem exists_offends (hscan : Token.scan text = .ok (used ++ t :: more))
    (hbegins : Begins (.chain .comparison) used)
    (hends : ¬ Begins (.chain .comparison) (used ++ [t])) :
    ∃ before here, text = before ++ here ∧ t.pos = before.length ∧
      Offends before here used t more := by
  obtain ⟨ps, last, hps, hmap⟩ := Token.exists_comesApart_of_scanFrom hscan
  obtain ⟨front, back, rfl, rfl, hback⟩ := List.map_eq_append_iff.1 hmap
  obtain ⟨q, after, rfl, rfl, rfl⟩ := List.map_eq_cons_iff.1 hback
  have hstands := hps.stands front q after rfl
  have htext : text = front.flatMap Token.Piece.text ++ q.blanks ++
      (q.spelling ++ (after.flatMap Token.Piece.text ++ last)) := by
    rw [hps.text]
    simp only [List.flatMap_append, List.flatMap_cons, Token.Piece.text, List.append_assoc]
  have hpos : q.token.pos = (front.flatMap Token.Piece.text ++ q.blanks).length := by
    rw [hstands.pos, List.length_append, Nat.zero_add]
  refine ⟨_, _, htext, hpos, ?_, hpos, ⟨_, _, rfl, hstands.written, hstands.stops⟩, hbegins, hends⟩
  rw [← htext]
  exact hscan

/-- **The tokens of a text that is no expression have a culprit.** -/
theorem culprit_of_ofTokens (hscan : Token.scan text = .ok ts)
    (h : Expr.ofTokens text ts = .error (.malformed p column)) :
    ∃ before here, text = before ++ here ∧ column = before.length + 1 ∧ Culprit before here p := by
  unfold Expr.ofTokens at h
  split at h
  · rename_i hread
    cases h
    have hstuck := Grammar.sticks_comparison (Grammar.sound_operand _ _ _)
      (Grammar.sticks_operand _ _ _) (Nat.le_refl _) hread
    cases hstuck with
    | token hbegins hplace hp =>
      obtain ⟨q, hwalk, hnext⟩ := hplace 0
      obtain ⟨before, here, htext, hpos, hoffends⟩ :=
        exists_offends hscan hbegins (Grammar.not_begins hwalk hnext)
      refine ⟨before, here, htext, by rw [hpos], ?_⟩
      rcases hp with ⟨s, rfl, hs⟩ | ⟨rfl, hclosed⟩
      · exact .symbol hoffends hs
      · exact .unclosed hoffends (hclosed _)
    | finish hbegins hplace hp =>
      refine ⟨text, [], (List.append_nil text).symm, rfl, ?_⟩
      have hnone (e : Expr) : ¬ IsExpression ts e := by
        intro hd
        obtain ⟨q, hwalk, hopen⟩ := hplace 0
        rw [hd.walk_eq] at hwalk
        cases hwalk
        simp at hopen
      rcases hp with rfl | ⟨rfl, hclosed⟩
      · exact .ended hscan hbegins hnone
      · exact .opened hscan (hclosed _) hnone
  · cases h
  · rename_i e t rest hread
    cases h
    have hfollows := Grammar.greedy_comparison (Grammar.sound_operand _ _ _) (Nat.le_refl _) hread
    obtain ⟨used, rfl, hd⟩ := Grammar.sound_comparison (Grammar.sound_operand _ _ _) hread
    have hnext := Grammar.next_eq_none_of_follows hfollows (.inr rfl)
    obtain ⟨before, here, rfl, hpos, hoffends⟩ :=
      exists_offends hscan ⟨[], e, by rwa [List.append_nil]⟩
        (Grammar.not_begins (hd.walk_eq 0) hnext)
    exact ⟨before, here, rfl, by rw [hpos], .leftover hoffends hd⟩

/-- What cannot be scanned starts at a character, and the text before it can be scanned. -/
theorem exists_of_scanFrom_error (h : Token.scanFrom pos cs = .error (p, column)) :
    ∃ before c rest ts, cs = before ++ c :: rest ∧ column = pos + before.length + 1 ∧
      Text.isBlank c = false ∧ Lexeme.read c rest = .error p ∧
      Token.scanFrom pos before = .ok ts := by
  fun_induction Token.scanFrom pos cs with
  | case1 => cases h
  | case2 pos c cs hblank ih =>
    obtain ⟨before, d, rest, ts, rfl, rfl, hd, hread, hscan⟩ := ih h
    refine ⟨c :: before, d, rest, ts, rfl, by rw [List.length_cons]; omega, hd, hread, ?_⟩
    rw [Token.scanFrom, if_pos hblank, hscan]
  | case3 pos c cs hblank q hread =>
    cases h
    refine ⟨[], c, cs, [], rfl, rfl, eq_false_of_ne_true hblank, hread, ?_⟩
    rw [Token.scanFrom]
  | case4 pos c cs hblank l n hread e hscan ih =>
    cases h
    obtain ⟨run, rest, rfl, rfl, hwritten, hstops⟩ := Lexeme.exists_run_of_read hread
    rw [List.drop_left] at ih hscan
    obtain ⟨before, d, rest', ts, rfl, rfl, hd, hread', hscan'⟩ := ih hscan
    refine ⟨c :: (run ++ before), d, rest', ⟨l, pos⟩ :: ts, ?_, ?_, hd, hread', ?_⟩
    · rw [List.cons_append, List.append_assoc]
    · rw [List.length_cons, List.length_append]
      omega
    · -- The lexeme is the same without what is after `before`.
      have hstops' : l.StopsBefore (c :: run) before := by
        intro x hx
        refine hstops x ?_
        rw [List.head?_append, Option.mem_def.1 hx]
        rfl
      rw [Token.scanFrom, if_neg hblank, Lexeme.read_of_isWritten hwritten hstops']
      simp only [List.drop_left, hscan']
  | case5 => cases h

/-! ## Characters with which lexemes start -/

section

variable {run : List Char} {s : Symbol} {name : String} {digits : List Char}

theorem not_isWritten_symbol (hsingle : Symbol.single? c = none) (hnot : c ≠ '!') (heq : c ≠ '=') :
    ¬ (Lexeme.symbol s).IsWritten (c :: run) := by
  intro h
  have htext : c :: run = s.text.toList := h
  cases s <;> simp [Symbol.text] at htext <;> obtain ⟨rfl, -⟩ := htext <;>
    first | exact hnot rfl | exact heq rfl | cases hsingle

theorem isStart_of_isWritten (h : (Lexeme.ident name).IsWritten (c :: run)) :
    Name.isStart c = true := by
  have hname := h.1
  rw [Name.isIdentifier, Bool.and_eq_true] at hname
  exact hname.1

theorem digit_or_point_of_isWritten (h : (Lexeme.numeral digits).IsWritten (c :: run)) :
    (Text.isDigit c || c == '.') = true := by
  have hpart := h.2.1 c List.mem_cons_self
  rw [Lexeme.isNumeralPart, Bool.or_eq_true, beq_iff_eq] at hpart
  refine hpart.resolve_right ?_
  rintro rfl
  exact h.1 rfl

end

theorem eq_badNumeral_of_ofNumeral {digits : List Char} (h : Lexeme.ofNumeral digits = .error p) :
    p = .badNumeral := by
  unfold Lexeme.ofNumeral at h
  dsimp only at h
  split_ifs at h
  cases h
  rfl

/-- A run of digits, points and underscores that is no numeral is a culprit. -/
theorem culprit_of_ofNumeral {before rest : List Char} (hscan : Token.scan before = .ok ts)
    (hsingle : Symbol.single? c = none) (hnot : c ≠ '!' ∧ c ≠ '=')
    (hdigit : (Text.isDigit c || c == '.') = true)
    (h : Lexeme.ofNumeral (c :: rest.takeWhile Lexeme.isNumeralPart) = .error p) :
    Culprit before (c :: rest) p := by
  obtain rfl := eq_badNumeral_of_ofNumeral h
  rw [← List.takeWhile_append_dropWhile (p := Lexeme.isNumeralPart) (l := rest)]
  refine .numeral hscan (by simpa using hdigit) (fun d hd => List.mem_takeWhile_imp hd)
    (fun d hd => Text.head_of_dropWhile hd) fun l hl => ?_
  cases l with
  | symbol s => exact not_isWritten_symbol hsingle hnot.1 hnot.2 hl
  | ident name => cases (isDigit_of_isStart (isStart_of_isWritten hl)).symm.trans hdigit
  | numeral digits =>
    obtain ⟨-, -, rfl, -, hvalue⟩ := hl
    cases h.symm.trans (Lexeme.ofNumeral_eq_ok_iff.2 ⟨rfl, hvalue⟩)

/-- **What cannot be read is a culprit.** -/
theorem culprit_of_read {before rest : List Char} (hscan : Token.scan before = .ok ts)
    (hblank : Text.isBlank c = false) (h : Lexeme.read c rest = .error p) :
    Culprit before (c :: rest) p := by
  unfold Lexeme.read at h
  split at h
  · cases h
  · rename_i hdouble
    split at h
    · cases h
    · rename_i hsingle
      split_ifs at h with hlone hdigit hstart
      · cases h
        rw [Bool.or_eq_true, beq_iff_eq, beq_iff_eq] at hlone
        refine .lone hscan hlone fun hhead => ?_
        rw [hhead] at hdouble
        rcases hlone with rfl | rfl <;> cases hdouble
      · rw [Bool.or_eq_true, beq_iff_eq, beq_iff_eq, not_or] at hlone
        dsimp only at h
        cases hnum : Lexeme.ofNumeral (c :: rest.takeWhile Lexeme.isNumeralPart) with
        | ok l =>
          rw [hnum] at h
          cases h
        | error q =>
          rw [hnum] at h
          cases h
          exact culprit_of_ofNumeral hscan hsingle hlone hdigit hnum
      · cases h
        rw [Bool.or_eq_true, beq_iff_eq, beq_iff_eq, not_or] at hlone
        refine .char hscan hblank (fun l run hl => ?_) hlone.1 hlone.2
        cases l with
        | symbol s => exact not_isWritten_symbol hsingle hlone.1 hlone.2 hl
        | ident name => exact hstart (isStart_of_isWritten hl)
        | numeral digits => exact hdigit (digit_or_point_of_isWritten hl)

/-- **A text that is no expression has a culprit**, unless it nests too deep or has a numeral
without a value. -/
theorem culprit_of_parse (htrimmed : Trimmed text) (hne : text ≠ [])
    (h : Expr.parse text = .error (.malformed p column)) :
    ∃ before here, text = before ++ here ∧ column = before.length + 1 ∧ Culprit before here p := by
  unfold Expr.parse at h
  rw [trim_eq_self htrimmed] at h
  dsimp only at h
  rw [if_neg (by rwa [List.isEmpty_iff])] at h
  split_ifs at h
  split at h
  · cases h
  · split at h
    · rename_i q k hscan
      cases h
      obtain ⟨before, c, rest, ts, rfl, rfl, hblank, hread, hbefore⟩ :=
        exists_of_scanFrom_error hscan
      exact ⟨before, c :: rest, rfl, by rw [Nat.zero_add], culprit_of_read hbefore hblank hread⟩
    · rename_i ts hscan
      exact culprit_of_ofTokens hscan h

end

namespace Source

/-! ## Columns of expressions -/

/-- **A complaint about an expression points at the culprit.** The expression is the argument of the
statement of a line, from which it is cut out without the blanks around it. The culprit is a place
of this text: that of a character or a token, or the end of the text. In a plain line the column of
the complaint is the place of the culprit, so that the first character of the culprit stands in this
column. -/
theorem expression_complaint_column {source : String} {p : Problem} {n column : Nat}
    (h : parse source = .error (.malformed (.expression p) n column)) :
    ∃ l ∈ statementLines source, l.number = n ∧ ∃ left before here right tail,
      l.raw = l.lead ++ (left ++ (before ++ (here ++ (right ++ tail)))) ∧
      l.content = left ++ (before ++ (here ++ right)) ∧
      ArgumentPlace left right ∧ Trimmed (before ++ here) ∧ before ++ here ≠ [] ∧
      Culprit before here p ∧
      (l.Plain → column = (l.lead ++ (left ++ before)).length + 1 ∧
        ∀ c ∈ here.head?, l.raw[column - 1]? = some c) := by
  obtain ⟨l, hl, hrefused⟩ := refuses_parse source _ h
  obtain ⟨rfl, left, text, right, k, hcontent, hplace, htrimmed, hne, hparse, hcolumn⟩ := hrefused
  obtain ⟨before, here, rfl, rfl, hculprit⟩ := culprit_of_parse htrimmed hne hparse
  obtain ⟨tail, htail⟩ := exists_parts hl
  rw [List.append_assoc] at hcontent
  have hraw : l.raw = l.lead ++ (left ++ (before ++ (here ++ (right ++ tail)))) := by
    rw [htail, hcontent]
    simp only [List.append_assoc]
  refine ⟨l, hl, rfl, left, before, here, right, tail, hraw, hcontent, hplace, htrimmed, hne,
    hculprit, fun hplain => ?_⟩
  have hplace' : column = (l.lead ++ (left ++ before)).length + 1 := by
    rw [hcolumn, hplain.offset_eq hl, List.length_append, List.length_append]
    omega
  refine ⟨hplace', fun c hc => ?_⟩
  have hsplit : l.raw = (l.lead ++ (left ++ before)) ++ (here ++ (right ++ tail)) := by
    rw [hraw]
    simp only [List.append_assoc]
  rw [hplace', Nat.add_sub_cancel, hsplit, List.getElem?_append_right (Nat.le_refl _), Nat.sub_self]
  obtain ⟨rest, rfl⟩ := List.head?_eq_some_iff.1 hc
  rfl

/-- A name where a parenthesis should be closed. -/
theorem unclosed_complaint_column :
    parse "if 1:\n\trepeat until x < (2 y) : # y" =
        .error (.malformed (.expression .unclosed) 2 22) ∧
      ∃ l ∈ statementLines "if 1:\n\trepeat until x < (2 y) : # y", l.raw[21]? = some 'y' ∧
        ∃ left before here, Culprit before here .unclosed ∧
          22 = (l.lead ++ (left ++ before)).length + 1 := by
  have hfails : (parse "if 1:\n\trepeat until x < (2 y) : # y").map (fun _ => ()) =
      .error (.malformed (.expression .unclosed) 2 22) := by
    decide +kernel
  have hplain : ∀ l ∈ statementLines "if 1:\n\trepeat until x < (2 y) : # y", l.Plain ∧
      (l.number = 2 → l.raw[21]? = some 'y') := by
    decide +kernel
  have hparse := error_of_map hfails
  obtain ⟨l, hl, hn, left, before, here, right, tail, -, -, -, -, -, hculprit, hcolumn⟩ :=
    expression_complaint_column hparse
  obtain ⟨hl', hchar⟩ := hplain l hl
  exact ⟨hparse, l, hl, hchar hn, left, before, here, hculprit, (hcolumn hl').1⟩

end Source

end PixelTurtle
