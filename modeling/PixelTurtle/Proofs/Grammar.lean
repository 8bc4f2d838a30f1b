import PixelTurtle.Expr.Parser

/-!
# The grammar of expressions

From the loosest to the tightest, an expression is a chain of comparisons of chains of sums of
chains of products of operands with signs before them. The chains group to the left, and this is how
the rules are written: a chain is an operand, or a chain, an operator and an operand.

* `Derives` are the rules. They see the text of a symbol only, and no position.
* `sound_comparison` says that what is read off the front of some tokens is derived.
* `Derives.reads` says that what is derived is read, whatever follows that does not continue it. The
  loops of the parser are greedy, so that a chain is first read up to where it could go on.
* `fair_comparison` says that every error has its reason in the tokens.
* `ofTokens_eq_ok_iff_derives` joins them for a whole list of tokens.
-/

namespace PixelTurtle.Grammar

open PixelTurtle.Expr

/-! ## Rules -/

/-- The binary operators by how tightly they bind. -/
inductive Grade
  | comparison
  | sum
  | product
  deriving DecidableEq, Repr

/-- The grade of an operator. -/
def Grade.of : BinOp → Grade
  | .eq | .ne | .lt | .le | .gt | .ge => .comparison
  | .add | .sub => .sum
  | .mul | .div | .mod => .product

/-- What the rules are about: chains of operators, operands with and without signs. -/
inductive Phrase
  | chain (g : Grade)
  | signed
  | plain
  deriving DecidableEq, Repr

/-- What the operators of a grade join. -/
def Grade.operands : Grade → Phrase
  | .comparison => .chain .sum
  | .sum => .chain .product
  | .product => .signed

/-- `Derives p ts e`: the tokens `ts` are a phrase `p` with the tree `e`. -/
inductive Derives : Phrase → List Token → Expr → Prop
  | one {g : Grade} {ts : List Token} {e : Expr} :
    Derives g.operands ts e → Derives (.chain g) ts e
  | more {g : Grade} {ts us : List Token} {l r : Expr} {op : BinOp} {s : Symbol} {pos : Nat} :
    Derives (.chain g) ts l → .of op = g → s.text = op.symbol → Derives g.operands us r →
    Derives (.chain g) (ts ++ ⟨.symbol s, pos⟩ :: us) (.bin (.known op) l r)
  | sign {op : UnaryOp} {s : Symbol} {pos : Nat} {ts : List Token} {e : Expr} :
    op = .plus ∨ op = .minus → s.text = op.text → Derives .signed ts e →
    Derives .signed (⟨.symbol s, pos⟩ :: ts) (.unary op e)
  | unsigned {ts : List Token} {e : Expr} : Derives .plain ts e → Derives .signed ts e
  | numeral {digits : List Char} {pos : Nat} {m : Number.Numeral} :
    Number.Numeral.parse? digits = some m →
    Derives .plain [⟨.numeral digits, pos⟩] (.num m.toFloat)
  | ident {name : String} {pos : Nat} : Derives .plain [⟨.ident name, pos⟩] (.var name)
  | parens {ts : List Token} {e : Expr} {pos pos' : Nat} :
    Derives (.chain .comparison) ts e →
    Derives .plain (⟨.symbol .lparen, pos⟩ :: (ts ++ [⟨.symbol .rparen, pos'⟩])) e

/-- The tokens are an expression with the tree `e`. -/
abbrev IsExpression (ts : List Token) (e : Expr) : Prop :=
  Derives (.chain .comparison) ts e

/-! ## Operators and signs -/

/-- How the parser finds the operators of a grade. -/
def Grade.level : Grade → Level
  | .comparison => comparisonLevel
  | .sum => sumLevel
  | .product => productLevel

theorem level_eq_some_iff {g : Grade} {s : Symbol} {op : BinOp} :
    g.level s = some op ↔ .of op = g ∧ s.text = op.symbol := by
  constructor
  · intro h
    cases g <;> cases s <;> cases h <;> exact ⟨rfl, rfl⟩
  · rintro ⟨rfl, hs⟩
    cases op <;> cases s <;> first | rfl | exact absurd hs (by decide)

theorem sign?_eq_some_iff {s : Symbol} {op : UnaryOp} :
    sign? s = some op ↔ (op = .plus ∨ op = .minus) ∧ s.text = op.text := by
  constructor
  · intro h
    cases s <;> cases h
    · exact ⟨.inl rfl, rfl⟩
    · exact ⟨.inr rfl, rfl⟩
  · rintro ⟨rfl | rfl, hs⟩
    · cases s <;> first | rfl | exact absurd hs (by decide)
    · cases s <;> first | rfl | exact absurd hs (by decide)

theorem operator?_eq_some {level : Level} {ts rest : List Token} {op : BinOp}
    (h : operator? level ts = some (op, rest)) :
    ∃ s pos, ts = ⟨.symbol s, pos⟩ :: rest ∧ level s = some op := by
  unfold operator? at h
  split at h
  · rename_i s pos tokens
    obtain ⟨op', hop, heq⟩ := Option.map_eq_some_iff.1 h
    cases heq
    exact ⟨s, pos, rfl, hop⟩
  · cases h

/-- How the parser reads a chain. -/
def Grade.parser (n : Nat) (P : Parser) : Grade → Parser
  | .comparison => Expr.comparison n P
  | .sum => Expr.sum n P
  | .product => Expr.product n P

/-- How the parser reads a phrase, if it reads operands with `P`. -/
def Phrase.parser (n : Nat) (P : Parser) : Phrase → Parser
  | .chain g => g.parser n P
  | _ => P

theorem Grade.parser_eq (n : Nat) (P : Parser) (g : Grade) :
    g.parser n P = chain g.level n (g.operands.parser n P) := by
  cases g <;> rfl

/-! ## What is read is derived -/

section Sound

variable {P : Parser} {p : Phrase} {g : Grade} {ts us rest : List Token} {e e' : Expr} {n : Nat}

/-- What `P` reads off the front of some tokens is derived. -/
def Sound (P : Parser) (p : Phrase) : Prop :=
  ∀ ⦃ts e rest⦄, P ts = .ok (e, rest) → ∃ used, ts = used ++ rest ∧ Derives p used e

theorem sound_chainFrom (hP : Sound P g.operands) (hd : Derives (.chain g) us e)
    (h : chainFrom g.level P n e ts = .ok (e', rest)) :
    ∃ used, ts = used ++ rest ∧ Derives (.chain g) (us ++ used) e' := by
  induction n generalizing us e ts with
  | zero =>
    cases h
    exact ⟨[], rfl, by rwa [List.append_nil]⟩
  | succ n ih =>
    rw [chainFrom] at h
    split at h
    · cases h
      exact ⟨[], rfl, by rwa [List.append_nil]⟩
    · rename_i op after hop
      obtain ⟨s, pos, rfl, hs⟩ := operator?_eq_some hop
      obtain ⟨hgrade, htext⟩ := level_eq_some_iff.1 hs
      split at h
      · cases h
      · rename_i r rest' hr
        obtain ⟨used, rfl, hused⟩ := hP hr
        have hmore : Derives (.chain g) (us ++ ⟨.symbol s, pos⟩ :: used) (.bin (.known op) e r) :=
          .more hd hgrade htext hused
        obtain ⟨used', rfl, hd'⟩ := ih hmore h
        refine ⟨⟨.symbol s, pos⟩ :: (used ++ used'), by simp, ?_⟩
        rwa [List.append_assoc, List.cons_append] at hd'

theorem sound_chain (hP : Sound P g.operands) : Sound (chain g.level n P) (.chain g) := by
  intro ts e rest h
  rw [chain] at h
  split at h
  · cases h
  · rename_i e₀ rest₀ h₀
    obtain ⟨used, rfl, hd⟩ := hP h₀
    obtain ⟨used', rfl, hd'⟩ := sound_chainFrom hP (.one hd) h
    exact ⟨used ++ used', by rw [List.append_assoc], hd'⟩

theorem sound_comparison (hP : Sound P .signed) :
    Sound (comparison n P) (.chain .comparison) :=
  sound_chain (g := .comparison) (sound_chain (g := .sum) (sound_chain (g := .product) hP))

theorem sound_close {finish : Nat} (h : close finish e ts = .ok (e', rest)) :
    e' = e ∧ ∃ pos, ts = ⟨.symbol .rparen, pos⟩ :: rest := by
  unfold close at h
  split at h
  · cases h
    exact ⟨rfl, _, rfl⟩
  · cases h
  · cases h

theorem sound_operand (finish n budget : Nat) : Sound (operand finish n budget) .signed := by
  induction budget using Nat.strongRecOn with
  | ind budget ih =>
  intro ts e rest h
  cases budget with
  | zero => cases h
  | succ b =>
  cases ts with
  | nil =>
    simp only [operand] at h
    cases h
  | cons t ts =>
  obtain ⟨lexeme, pos⟩ := t
  cases lexeme with
  | numeral digits =>
    simp only [operand] at h
    split at h
    · rename_i m hm
      cases h
      exact ⟨[⟨.numeral digits, pos⟩], rfl, .unsigned (.numeral hm)⟩
    · cases h
  | ident name =>
    simp only [operand] at h
    cases h
    exact ⟨[⟨.ident name, pos⟩], rfl, .unsigned .ident⟩
  | symbol s =>
    simp only [operand] at h
    split at h
    · rename_i op hop
      obtain ⟨hop, htext⟩ := sign?_eq_some_iff.1 hop
      split at h
      · cases h
      · rename_i e₀ rest₀ h₀
        cases h
        obtain ⟨used, rfl, hd⟩ := ih b (Nat.lt_succ_self b) h₀
        exact ⟨⟨.symbol s, pos⟩ :: used, rfl, .sign hop htext hd⟩
    · split at h
      · rename_i hs
        subst hs
        split at h
        · rename_i inner
          split at h
          · cases h
          · rename_i e₀ rest₀ h₀
            obtain ⟨used, rfl, hd⟩ := sound_comparison (ih inner (by omega)) h₀
            obtain ⟨rfl, pos', rfl⟩ := sound_close h
            refine ⟨⟨.symbol .lparen, pos⟩ :: (used ++ [⟨.symbol .rparen, pos'⟩]), ?_,
              .unsigned (.parens hd)⟩
            simp only [List.cons_append, List.append_assoc, List.nil_append]
        · cases h
      · cases h

end Sound

/-! ## What is derived is read -/

/-- How tightly the operators of a grade bind. -/
def Grade.rank : Grade → Nat
  | .comparison => 0
  | .sum => 1
  | .product => 2

/-- How tightly a phrase holds together: only operators of lower rank end it. -/
def Phrase.rank : Phrase → Nat
  | .chain g => g.rank
  | _ => 3

theorem Grade.rank_operands (g : Grade) : g.operands.rank = g.rank + 1 := by
  cases g <;> rfl

/-- No operator of rank `k` or more starts the tokens. -/
def Follows (k : Nat) (rest : List Token) : Prop :=
  ∀ g : Grade, k ≤ g.rank → operator? g.level rest = none

section Complete

variable {g g' : Grade} {ph : Phrase} {ts us rest : List Token} {e l r : Expr} {op op' : BinOp}
  {s : Symbol} {pos : Nat}

theorem Follows.succ {k : Nat} (h : Follows k rest) : Follows (k + 1) rest :=
  fun g hg => h g (Nat.le_of_succ_le hg)

theorem follows_nil (k : Nat) : Follows k [] :=
  fun _ _ => rfl

theorem follows_rparen (k : Nat) : Follows k (⟨.symbol .rparen, pos⟩ :: rest) := by
  intro g _
  cases g <;> rfl

theorem grade_unique (h : g.level s = some op) (h' : g'.level s = some op') : g = g' := by
  cases s <;> cases g <;> cases h <;> cases g' <;> cases h' <;> rfl

theorem operator?_cons (h : g.level s = some op) :
    operator? g.level (⟨.symbol s, pos⟩ :: rest) = some (op, rest) := by
  rw [operator?, h, Option.map_some]

/-- An operator ends the operands that it joins. -/
theorem follows_operator (h : g.level s = some op) :
    Follows (g.rank + 1) (⟨.symbol s, pos⟩ :: rest) := by
  intro g' hg'
  cases h' : g'.level s with
  | none => rw [operator?, h', Option.map_none]
  | some op' =>
    have hgg' := grade_unique h h'
    subst hgg'
    omega

theorem chainFrom_stop {level : Level} {P : Parser} (j : Nat)
    (h : operator? level rest = none) : chainFrom level P j e rest = .ok (e, rest) := by
  cases j with
  | zero => rfl
  | succ j => rw [chainFrom, h]

/-- The parser reads the tokens as a phrase with the tree `e`, unless the nesting is too deep. A
chain is read up to where it could still go on: what remains of the bound on its operators is enough
for any operators that may follow in a text of `n` tokens. -/
def Reads : Phrase → List Token → Expr → Prop
  | .chain g, ts, e => ∀ finish n budget rest, ts.length ≤ n → Follows (g.rank + 1) rest →
    g.parser n (operand finish n budget) (ts ++ rest) = .error .tooDeep ∨
    ∃ j, n ≤ j + ts.length ∧
      g.parser n (operand finish n budget) (ts ++ rest) =
        chainFrom g.level (g.operands.parser n (operand finish n budget)) j e rest
  | _, ts, e => ∀ finish n budget rest, ts.length ≤ n →
    operand finish n budget (ts ++ rest) = .error .tooDeep ∨
    operand finish n budget (ts ++ rest) = .ok (e, rest)

/-- A phrase is read to its end if what follows does not continue it. -/
theorem Reads.closed (h : Reads ph ts e) (finish : Nat) {n : Nat} (budget : Nat)
    (hn : ts.length ≤ n) (hrest : Follows ph.rank rest) :
    ph.parser n (operand finish n budget) (ts ++ rest) = .error .tooDeep ∨
    ph.parser n (operand finish n budget) (ts ++ rest) = .ok (e, rest) := by
  cases ph with
  | chain g =>
    obtain hdeep | ⟨j, -, hj⟩ := h finish n budget rest hn hrest.succ
    · exact .inl hdeep
    · exact .inr (hj.trans (chainFrom_stop j (hrest g (Nat.le_refl _))))
  | signed => exact h finish n budget rest hn
  | plain => exact h finish n budget rest hn

theorem Reads.comparison (h : Reads (.chain .comparison) ts e) (finish : Nat) {n : Nat}
    (budget : Nat) (hn : ts.length ≤ n) (hrest : Follows 0 rest) :
    Expr.comparison n (operand finish n budget) (ts ++ rest) = .error .tooDeep ∨
    Expr.comparison n (operand finish n budget) (ts ++ rest) = .ok (e, rest) :=
  h.closed finish budget hn hrest

theorem reads_one (h : Reads g.operands ts e) : Reads (.chain g) ts e := by
  intro finish n budget rest hn hrest
  rw [← g.rank_operands] at hrest
  rw [g.parser_eq, chain]
  obtain hdeep | hread := h.closed finish budget hn hrest
  · exact .inl (by rw [hdeep])
  · exact .inr ⟨n, Nat.le_add_right _ _, by rw [hread]⟩

/-- A chain that was read up to an operator goes on with the operator and its right operand. -/
theorem reads_more (hl : Reads (.chain g) ts l) (hs : g.level s = some op)
    (hr : Reads g.operands us r) :
    Reads (.chain g) (ts ++ ⟨.symbol s, pos⟩ :: us) (.bin (.known op) l r) := by
  intro finish n budget rest hn hrest
  have hlen : ts.length + (us.length + 1) ≤ n := by simpa using hn
  obtain hdeep | ⟨j, hj, hread⟩ := hl finish n budget (⟨.symbol s, pos⟩ :: (us ++ rest))
    (by omega) (follows_operator hs)
  · exact .inl (by rwa [List.append_assoc])
  · obtain ⟨i, rfl⟩ : ∃ i, j = i + 1 := ⟨j - 1, by omega⟩
    rw [chainFrom, operator?_cons hs] at hread
    rw [List.append_assoc, List.cons_append, hread]
    rw [← g.rank_operands] at hrest
    obtain hdeep | hright := hr.closed finish budget (n := n) (by omega) hrest
    · exact .inl (by simp only [hdeep])
    · refine .inr ⟨i, ?_, by simp only [hright]⟩
      simp only [List.length_append, List.length_cons]
      omega

theorem reads_sign {op : UnaryOp} (hs : sign? s = some op) (h : Reads .signed ts e) :
    Reads .signed (⟨.symbol s, pos⟩ :: ts) (.unary op e) := by
  intro finish n budget rest hn
  cases budget with
  | zero => exact .inl rfl
  | succ b =>
    rw [List.length_cons] at hn
    simp only [List.cons_append, operand, hs]
    obtain hdeep | hread := h finish n b rest (by omega)
    · exact .inl (by rw [hdeep])
    · exact .inr (by rw [hread])

theorem reads_numeral {digits : List Char} {m : Number.Numeral}
    (hm : Number.Numeral.parse? digits = some m) :
    Reads .plain [⟨.numeral digits, pos⟩] (.num m.toFloat) := by
  intro finish n budget rest _
  cases budget with
  | zero => exact .inl rfl
  | succ b => exact .inr (by simp only [List.singleton_append, operand, hm])

theorem reads_ident {name : String} : Reads .plain [⟨.ident name, pos⟩] (.var name) := by
  intro finish n budget rest _
  cases budget with
  | zero => exact .inl rfl
  | succ b => exact .inr (by simp only [List.singleton_append, operand])

theorem reads_parens {pos' : Nat} (h : Reads (.chain .comparison) ts e) :
    Reads .plain (⟨.symbol .lparen, pos⟩ :: (ts ++ [⟨.symbol .rparen, pos'⟩])) e := by
  intro finish n budget rest hn
  have hlen : ts.length ≤ n := by
    simp only [List.length_cons, List.length_append] at hn
    omega
  match budget with
  | 0 | 1 | 2 | 3 | 4 => exact .inl (by simp only [List.cons_append, operand, sign?, if_true])
  | inner + 5 =>
    simp only [List.cons_append, List.append_assoc, List.nil_append, operand, sign?, if_true]
    have hrest : Follows 0 (⟨.symbol .rparen, pos'⟩ :: rest) := follows_rparen 0
    obtain hdeep | hread := h.comparison finish inner hlen hrest
    · exact .inl (by rw [hdeep])
    · exact .inr (by simp only [hread, close])

/-- What is derived is read. -/
theorem Derives.reads (h : Derives ph ts e) : Reads ph ts e := by
  induction h with
  | one _ ih => exact reads_one ih
  | more _ hop hs _ ihl ihr => exact reads_more ihl (level_eq_some_iff.2 ⟨hop, hs⟩) ihr
  | sign hop hs _ ih => exact reads_sign (sign?_eq_some_iff.2 ⟨hop, hs⟩) ih
  | unsigned _ ih => exact ih
  | numeral hm => exact reads_numeral hm
  | ident => exact reads_ident
  | parens _ ih => exact reads_parens ih

end Complete

/-! ## What is wrong with what is not derived -/

/-- A bound on the budget that a token takes. -/
def cost (t : Token) : Nat :=
  match t.lexeme with
  | .symbol .lparen => 5
  | .symbol .plus | .symbol .minus => 1
  | _ => 0

/-- The budget that is enough for all the tokens inside each other. -/
def weight : List Token → Nat
  | [] => 0
  | t :: ts => cost t + weight ts

/-- The tokens are a reason for the error: a numeral without a value is one of them, and they nest
too deep for the budget only if they are many. -/
def Blames (budget : Nat) (ts : List Token) : ParseError → Prop
  | .malformed _ _ => True
  | .numeral digits => Number.Numeral.parse? digits = none ∧ ∃ t ∈ ts, t.lexeme = .numeral digits
  | .tooDeep => budget ≤ weight ts

section Wrong

variable {P : Parser} {g : Grade} {ph : Phrase} {ts us rest : List Token} {e : Expr}
  {budget n : Nat} {err : ParseError}

@[simp] theorem weight_cons (t : Token) (ts : List Token) :
    weight (t :: ts) = cost t + weight ts := rfl

@[simp] theorem weight_append (ts us : List Token) : weight (ts ++ us) = weight ts + weight us := by
  induction ts with
  | nil => exact (Nat.zero_add _).symm
  | cons t ts ih => rw [List.cons_append, weight_cons, weight_cons, ih, Nat.add_assoc]

/-- Blame grows with the tokens, and with what the new ones take of the budget. -/
theorem Blames.append (h : Blames budget ts err) (us : List Token) {k : Nat}
    (hk : k ≤ weight us) : Blames (budget + k) (us ++ ts) err := by
  cases err with
  | malformed p column => trivial
  | numeral digits =>
    obtain ⟨hnone, t, ht, hlex⟩ := h
    exact ⟨hnone, t, List.mem_append_right us ht, hlex⟩
  | tooDeep =>
    have : budget ≤ weight ts := h
    show budget + k ≤ weight (us ++ ts)
    rw [weight_append]
    omega

/-- Whatever error `P` gives, `E` holds of the tokens and the error. -/
def Justified (E : List Token → ParseError → Prop) (P : Parser) : Prop :=
  ∀ ⦃ts err⦄, P ts = .error err → E ts err

section Justified

variable {E : List Token → ParseError → Prop}

theorem justified_chainFrom (hE : ∀ us ts err, E ts err → E (us ++ ts) err)
    (hP : Sound P g.operands) (h : Justified E P) (e : Expr) :
    Justified E (chainFrom g.level P n e) := by
  induction n generalizing e with
  | zero =>
    intro ts err hts
    cases hts
  | succ n ih =>
    intro ts err hts
    rw [chainFrom] at hts
    split at hts
    · cases hts
    · rename_i op after hop
      obtain ⟨s, pos, rfl, -⟩ := operator?_eq_some hop
      split at hts
      · rename_i hr
        cases hts
        exact hE [⟨.symbol s, pos⟩] _ _ (h hr)
      · rename_i r rest hr
        obtain ⟨used, rfl, -⟩ := hP hr
        exact hE (⟨.symbol s, pos⟩ :: used) _ _ (ih _ hts)

theorem justified_chain (hE : ∀ us ts err, E ts err → E (us ++ ts) err)
    (hP : Sound P g.operands) (h : Justified E P) : Justified E (chain g.level n P) := by
  intro ts err hts
  rw [chain] at hts
  split at hts
  · rename_i hr
    cases hts
    exact h hr
  · rename_i e₀ rest₀ h₀
    obtain ⟨used, rfl, -⟩ := hP h₀
    exact hE used _ _ (justified_chainFrom hE hP h e₀ hts)

/-- What holds of the errors of operands, and goes on to hold when tokens are put before, holds of
the errors of comparisons. -/
theorem justified_comparison (hE : ∀ us ts err, E ts err → E (us ++ ts) err)
    (hP : Sound P .signed) (h : Justified E P) : Justified E (comparison n P) :=
  have hproduct : Sound (product n P) (.chain .product) := sound_chain (g := .product) hP
  have hsum : Sound (Expr.sum n P) (.chain .sum) := sound_chain (g := .sum) hproduct
  justified_chain (g := .comparison) hE hsum
    (justified_chain (g := .sum) hE hproduct (justified_chain (g := .product) hE hP h))

end Justified

/-- Whatever error `P` gives, the tokens are a reason for it. -/
def Fair (budget : Nat) (P : Parser) : Prop :=
  ∀ ⦃ts err⦄, P ts = .error err → Blames budget ts err

theorem fair_comparison (hP : Sound P .signed) (hfair : Fair budget P) :
    Fair budget (comparison n P) :=
  justified_comparison (fun us _ _ h => h.append us (Nat.zero_le _)) hP hfair

theorem fair_operand (finish n budget : Nat) : Fair budget (operand finish n budget) := by
  induction budget using Nat.strongRecOn with
  | ind budget ih =>
  intro ts err h
  cases budget with
  | zero =>
    cases h
    exact Nat.zero_le _
  | succ b =>
  cases ts with
  | nil =>
    simp only [operand] at h
    cases h
    trivial
  | cons t ts =>
  obtain ⟨lexeme, pos⟩ := t
  cases lexeme with
  | numeral digits =>
    simp only [operand] at h
    split at h
    · cases h
    · rename_i hnone
      cases h
      exact ⟨hnone, _, List.mem_cons_self, rfl⟩
  | ident name =>
    simp only [operand] at h
    cases h
  | symbol s =>
    simp only [operand] at h
    split at h
    · rename_i op hop
      split at h
      · rename_i h₀
        cases h
        refine (ih b (Nat.lt_succ_self b) h₀).append [⟨.symbol s, pos⟩] ?_
        cases s <;> cases hop <;> exact Nat.le_refl 1
      · cases h
    · split at h
      · rename_i hs
        subst hs
        split at h
        · rename_i inner
          split at h
          · rename_i h₀
            cases h
            have hfair := fair_comparison (sound_operand finish n inner) (ih inner (by omega)) h₀
            exact hfair.append [⟨.symbol .lparen, pos⟩] (Nat.le_refl 5)
          · unfold close at h
            split at h <;> cases h <;> trivial
        · rename_i hb
          cases h
          show b + 1 ≤ weight _
          rw [weight_cons]
          have : ¬ 4 ≤ b := fun hle => hb (b - 4) (by omega)
          simp only [cost]
          omega
      · cases h
        trivial

end Wrong

/-! ## Whole expressions -/

section Whole

variable {ts : List Token} {e e' : Expr}

/-- Of a derived list of tokens, the parser reads everything, unless it nests too deep. -/
theorem Derives.comparison_eq (h : IsExpression ts e) (finish budget : Nat) :
    comparison ts.length (operand finish ts.length budget) ts = .error .tooDeep ∨
    comparison ts.length (operand finish ts.length budget) ts = .ok (e, []) := by
  have hread := h.reads.comparison finish budget (Nat.le_refl _) (follows_nil 0)
  rwa [List.append_nil] at hread

/-- A list of tokens has one tree. -/
theorem Derives.unique (h : IsExpression ts e) (h' : IsExpression ts e') : e = e' := by
  -- a budget beyond the weight of the tokens is never used up
  have hdeep : comparison ts.length (operand 0 ts.length (weight ts + 1)) ts ≠ .error .tooDeep := by
    intro hdeep
    have : weight ts + 1 ≤ weight ts :=
      fair_comparison (sound_operand 0 _ _) (fair_operand 0 _ _) hdeep
    omega
  have hread := (h.comparison_eq 0 (weight ts + 1)).resolve_left hdeep
  have hread' := (h'.comparison_eq 0 (weight ts + 1)).resolve_left hdeep
  rw [hread] at hread'
  cases hread'
  rfl

theorem isExpression_of_ofTokens {text : List Char} (h : ofTokens text ts = .ok e) :
    IsExpression ts e := by
  unfold ofTokens at h
  split at h
  · cases h
  · rename_i hread
    cases h
    obtain ⟨used, hused, hd⟩ := sound_comparison (sound_operand _ _ _) hread
    rwa [hused, List.append_nil]
  · cases h

theorem Derives.ofTokens_eq (text : List Char) (h : IsExpression ts e) :
    ofTokens text ts = .error .tooDeep ∨ ofTokens text ts = .ok e := by
  unfold ofTokens
  obtain hdeep | hread := h.comparison_eq text.length nestingBudget
  · exact .inl (by rw [hdeep])
  · exact .inr (by rw [hread])

theorem blames_of_ofTokens {text : List Char} {err : ParseError}
    (h : ofTokens text ts = .error err) : Blames nestingBudget ts err := by
  unfold ofTokens at h
  split at h
  · rename_i hread
    cases h
    exact fair_comparison (sound_operand _ _ _) (fair_operand _ _ _) hread
  · cases h
  · cases h
    trivial

end Whole

/-- **The parser accepts exactly the grammar.** A list of tokens has at most one tree. Unless the
signs and parentheses nest too deep, which they cannot do if there are few of them, the parser
returns a tree if and only if the tokens derive it, and of tokens that derive nothing it says what
is wrong and where, or which numeral has no value. -/
theorem ofTokens_eq_ok_iff_derives (text : List Char) (tokens : List Token) :
    (∀ e e', IsExpression tokens e → IsExpression tokens e' → e = e') ∧
    (weight tokens < nestingBudget → ofTokens text tokens ≠ .error .tooDeep) ∧
    (ofTokens text tokens ≠ .error .tooDeep →
      (∀ e, ofTokens text tokens = .ok e ↔ IsExpression tokens e) ∧
      ((∀ e, ¬ IsExpression tokens e) →
        (∃ p column, ofTokens text tokens = .error (.malformed p column)) ∨
        ∃ digits, Number.Numeral.parse? digits = none ∧
          (∃ t ∈ tokens, t.lexeme = .numeral digits) ∧
          ofTokens text tokens = .error (.numeral digits))) := by
  refine ⟨fun e e' h h' => h.unique h', fun hfew hdeep => ?_, fun hdeep => ⟨fun e => ?_, ?_⟩⟩
  · have : nestingBudget ≤ weight tokens := blames_of_ofTokens hdeep
    omega
  · exact ⟨isExpression_of_ofTokens, fun h => (h.ofTokens_eq text).resolve_left hdeep⟩
  · intro hnone
    cases hparse : ofTokens text tokens with
    | ok e => exact absurd (isExpression_of_ofTokens hparse) (hnone e)
    | error err =>
      have hblame := blames_of_ofTokens hparse
      cases err with
      | malformed p column => exact .inl ⟨p, column, rfl⟩
      | numeral digits => exact .inr ⟨digits, hblame.1, hblame.2, rfl⟩
      | tooDeep => exact absurd hparse hdeep

/-- The tokens of `x - -y - (x < y) * x`. -/
def chainedDifference : List Token :=
  [⟨.ident "x", 0⟩, ⟨.symbol .minus, 2⟩, ⟨.symbol .minus, 4⟩, ⟨.ident "y", 5⟩, ⟨.symbol .minus, 7⟩,
    ⟨.symbol .lparen, 9⟩, ⟨.ident "x", 10⟩, ⟨.symbol .lt, 12⟩, ⟨.ident "y", 14⟩,
    ⟨.symbol .rparen, 15⟩, ⟨.symbol .times, 17⟩, ⟨.ident "x", 19⟩]

/-- The second minus is a sign, the first and the third group to the left. -/
theorem chainedDifference_derives :
    weight chainedDifference < nestingBudget ∧ IsExpression chainedDifference
      (.bin (.known .sub)
        (.bin (.known .sub) (.var "x") (.unary .minus (.var "y")))
        (.bin (.known .mul) (.bin (.known .lt) (.var "x") (.var "y")) (.var "x"))) := by
  have hfew : weight chainedDifference < nestingBudget := by decide
  obtain ⟨-, hdeep, hexact⟩ := ofTokens_eq_ok_iff_derives [] chainedDifference
  exact ⟨hfew, ((hexact (hdeep hfew)).1 _).1 (by cbv)⟩

end PixelTurtle.Grammar
