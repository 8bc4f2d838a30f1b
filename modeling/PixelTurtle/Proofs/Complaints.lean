import Mathlib.Data.List.TakeWhile
import PixelTurtle.Proofs.Requests
import PixelTurtle.Proofs.Safety

/-!
# How reading a program fails

A text that is no program gets a complaint about one of its lines. There is one exception: digits in
the wider sense, such as superscripts, may stand in a numeral, and then it has no value and gets no
complaint.

* `Scanned` is a numeral as it is read from a text, `Valueless` one without a value.
  `Scanned.valueless` says that the digits in the wider sense are to blame.
* `Fails` says of a computation how it fails. `Source.Line.fails_statement` says it of a line,
  `Source.fails_parse` of a text, and `Host.fails_run` of a service.
* `parse_fails_by_complaint` puts this together.
-/

namespace PixelTurtle

open Text (isDigit isDecimal)

/-! ## Numerals without a value -/

/-- The digits, all of which occur in the text, are a numeral without a value, since one of them is
a digit in the wider sense only. -/
structure Valueless (text digits : List Char) : Prop where
  subset : digits ⊆ text
  none : Number.Numeral.parse? digits = none
  digit : ∃ d ∈ digits, isDigit d = true ∧ isDecimal d = false

theorem Valueless.mono {text text' digits : List Char} (h : Valueless text digits)
    (hsub : text ⊆ text') : Valueless text' digits :=
  ⟨List.Subset.trans h.subset hsub, h.none, h.digit⟩

namespace Number.Numeral

theorem sign_eq_self {cs : List Char} (h : ∀ c ∈ cs, isDecimal c = true ∨ c = '.') :
    sign cs = (false, cs) := by
  unfold sign
  split
  · rcases h '-' List.mem_cons_self with hd | hd
    · cases hd
    · cases hd
  · rcases h '+' List.mem_cons_self with hd | hd
    · cases hd
    · cases hd
  · rfl

/-- Decimal digits with at most one point among them have a value. -/
theorem exists_parse? {cs : List Char} (h : ∀ c ∈ cs, isDecimal c = true ∨ c = '.')
    (hcount : cs.count '.' ≤ 1) (hnil : cs ≠ []) (hpoint : cs ≠ ['.']) :
    ∃ n, parse? cs = some n := by
  have hsplit : cs.takeWhile isDecimal ++ cs.dropWhile isDecimal = cs :=
    List.takeWhile_append_dropWhile
  rw [parse?, sign_eq_self h]
  dsimp only
  cases hafter : cs.dropWhile isDecimal with
  | nil =>
    rw [hafter, List.append_nil] at hsplit
    rw [hsplit, fraction]
    · exact ⟨_, if_neg (by simp [hnil])⟩
    · nofun
  | cons d part =>
    have hd : d = '.' := by
      refine (h d ?_).resolve_left ?_
      · rw [← hsplit, hafter]
        exact List.mem_append_right _ List.mem_cons_self
      · rw [Text.dropWhile_head hafter]
        nofun
    subst hd
    rw [hafter] at hsplit
    have hnone : '.' ∉ part := by
      rw [← hsplit, List.count_append, List.count_cons_self] at hcount
      exact List.count_eq_zero.1 (by omega)
    have hpart : ∀ c ∈ part, isDecimal c = true := by
      intro c hc
      have hmem : c ∈ cs := by
        rw [← hsplit]
        exact List.mem_append_right _ (List.mem_cons_of_mem _ hc)
      refine (h c hmem).resolve_right ?_
      rintro rfl
      exact hnone hc
    have hempty : ¬ ((cs.takeWhile isDecimal).isEmpty && part.isEmpty) = true := by
      rw [Bool.and_eq_true, List.isEmpty_iff, List.isEmpty_iff]
      rintro ⟨hwhole, rfl⟩
      rw [hwhole] at hsplit
      exact hpoint hsplit.symm
    rw [fraction, List.takeWhile_eq_self_iff.2 hpart, List.dropWhile_eq_nil_iff.2 hpart, if_neg hempty]
    exact ⟨_, rfl⟩

end Number.Numeral

/-! ## Tokens -/

/-- A numeral as the scanner reads it from the text: it has a digit and at most one point. -/
structure Scanned (text digits : List Char) : Prop where
  subset : digits ⊆ text
  chars : ∀ c ∈ digits, isDigit c = true ∨ c = '.'
  points : digits.count '.' ≤ 1
  ne_nil : digits ≠ []
  ne_point : digits ≠ ['.']

theorem Scanned.mono {text text' digits : List Char} (h : Scanned text digits)
    (hsub : text ⊆ text') : Scanned text' digits :=
  { h with subset := List.Subset.trans h.subset hsub }

/-- **A scanned numeral has a value**, unless it has a digit in the wider sense only. -/
theorem Scanned.valueless {text digits : List Char} (h : Scanned text digits)
    (hnone : Number.Numeral.parse? digits = none) : Valueless text digits := by
  refine ⟨h.subset, hnone, ?_⟩
  by_contra hdigit
  push Not at hdigit
  have hchars : ∀ c ∈ digits, isDecimal c = true ∨ c = '.' := by
    intro c hc
    refine (h.chars c hc).imp_left fun hd => ?_
    exact eq_true_of_ne_false (hdigit c hc hd)
  obtain ⟨n, hn⟩ := Number.Numeral.exists_parse? hchars h.points h.ne_nil h.ne_point
  cases hnone.symm.trans hn

namespace Lexeme

theorem scanned_of_ofNumeral {c : Char} {run digits : List Char}
    (hc : isDigit c = true ∨ c = '.') (hrun : ∀ d ∈ run, isNumeralPart d = true)
    (h : ofNumeral (c :: run) = .ok (.numeral digits)) : Scanned (c :: run) digits := by
  have hc' : (c != '_') = true := by
    rcases hc with hc | rfl
    · rw [bne_iff_ne]
      rintro rfl
      cases hc
    · rfl
  unfold ofNumeral at h
  dsimp only at h
  split_ifs at h with hbad
  cases h
  rw [Bool.or_eq_true, not_or, beq_iff_eq, decide_eq_true_iff, Nat.not_lt] at hbad
  refine ⟨List.filter_subset_self _, fun d hd => ?_, hbad.2, ?_, hbad.1⟩
  · obtain ⟨hmem, hne⟩ := List.mem_filter.1 hd
    rcases List.mem_cons.1 hmem with rfl | hmem
    · exact hc
    · have hpart := hrun d hmem
      simp only [isNumeralPart, Bool.or_eq_true, beq_iff_eq] at hpart
      exact hpart.resolve_right (bne_iff_ne.1 hne)
  · rw [List.filter_cons_of_pos (p := (· != '_')) hc']
    exact List.cons_ne_nil _ _

theorem scanned_of_read {c : Char} {cs digits : List Char} {n : Nat}
    (h : read c cs = .ok (.numeral digits, n)) : Scanned (c :: cs) digits := by
  unfold read at h
  split at h
  · cases h
  · split at h
    · cases h
    · split_ifs at h with hlone hdigit hname
      · rw [Bool.or_eq_true, beq_iff_eq] at hdigit
        dsimp only at h
        cases hl : ofNumeral (c :: cs.takeWhile isNumeralPart) with
        | error p =>
          rw [hl] at h
          cases h
        | ok l =>
          rw [hl] at h
          cases h
          refine (scanned_of_ofNumeral hdigit (fun d hd => List.mem_takeWhile_imp hd) hl).mono ?_
          exact List.cons_subset_cons c (List.takeWhile_sublist _).subset
      · cases h

end Lexeme

/-- The numerals of a text are scanned from it. -/
theorem Token.scanned_of_scanFrom {pos : Nat} {cs digits : List Char} {tokens : List Token}
    (h : scanFrom pos cs = .ok tokens) {t : Token} (ht : t ∈ tokens)
    (hlex : t.lexeme = .numeral digits) : Scanned cs digits := by
  fun_induction scanFrom pos cs generalizing tokens with
  | case1 =>
    cases h
    cases ht
  | case2 pos c cs hblank ih => exact (ih h ht).mono (List.subset_cons_self c cs)
  | case3 => cases h
  | case4 => cases h
  | case5 pos c cs hblank l n hread tokens' hscan ih =>
    cases h
    rcases List.mem_cons.1 ht with rfl | ht
    · cases hlex
      exact Lexeme.scanned_of_read hread
    · refine (ih hscan ht).mono ?_
      exact List.Subset.trans (List.drop_subset n cs) (List.subset_cons_self c cs)

namespace Text

theorem trimLeft_subset (cs : List Char) : trimLeft cs ⊆ cs :=
  (List.dropWhile_sublist _).subset

theorem trimRight_subset (cs : List Char) : trimRight cs ⊆ cs := by
  intro c hc
  rw [trimRight, List.mem_reverse] at hc
  exact List.mem_reverse.1 ((List.dropWhile_sublist _).subset hc)

theorem trim_subset (cs : List Char) : trim cs ⊆ cs :=
  List.Subset.trans (trimRight_subset _) (trimLeft_subset cs)

end Text

/-- **An expression without a complaint has a numeral without a value.** -/
theorem Expr.valueless_of_parse {cs digits : List Char} (h : parse cs = .error (.numeral digits)) :
    Valueless cs digits := by
  unfold parse at h
  dsimp only at h
  split_ifs at h with hempty hname
  · cases h
  · split at h
    · cases h
    · split at h
      · cases h
      · rename_i tokens hscan
        obtain ⟨hnone, t, ht, hlex⟩ := Grammar.blames_of_ofTokens h
        exact ((Token.scanned_of_scanFrom hscan ht hlex).mono (Text.trim_subset cs)).valueless hnone

/-! ## Ways to fail -/

/-- However the computation `x` fails, `E` holds of the error. -/
def Fails {ε α : Type} (E : ε → Prop) (x : Except ε α) : Prop :=
  ∀ e, x = .error e → E e

section Fails

variable {ε ε' α β : Type} {E : ε → Prop}

theorem fails_ok (a : α) : Fails E (.ok a) :=
  fun _ h => nomatch h

theorem fails_of {e : ε} (h : E e) : Fails E (.error e : Except ε α) := by
  intro e' he
  cases he
  exact h

theorem fails_bind {x : Except ε α} {f : α → Except ε β} (hx : Fails E x)
    (hf : ∀ a, x = .ok a → Fails E (f a)) : Fails E (x >>= f) := by
  cases x with
  | error e => exact fails_of (hx e rfl)
  | ok a => exact hf a rfl

theorem fails_mapError {x : Except ε' α} {g : ε' → ε} (h : Fails (fun e => E (g e)) x) :
    Fails E (x.mapError g) := by
  cases x with
  | error e => exact fails_of (h e rfl)
  | ok a => exact fails_ok a

end Fails

namespace Source

/-! ## Lines -/

theorem untilText?_subset {text condition : List Char} (h : untilText? text = some condition) :
    condition ⊆ text := by
  unfold untilText? at h
  split at h
  · rename_i u n t i l rest
    have hrest : rest ⊆ u :: n :: t :: i :: l :: rest :=
      (List.sublist_append_right [u, n, t, i, l] rest).subset
    dsimp only at h
    split_ifs at h
    split at h
    · cases h
      exact List.nil_subset _
    · split_ifs at h
      cases h
      exact List.Subset.trans (Text.trimLeft_subset _) hrest
  · cases h

namespace Line

/-- The error is a complaint about the line, or a numeral on it has no value. -/
def Blamed (line : Line) : Error → Prop
  | .malformed _ n _ => n = line.number
  | .numeral digits => Valueless line.content digits

variable {line : Line} {text header : List Char} {keyword : String}

theorem fails_error {α : Type} (c : Complaint) (column : Nat) :
    Fails line.Blamed (line.error c column : Except Error α) :=
  fails_of rfl

theorem fails_expression (hsub : text ⊆ line.content) (column : Nat) :
    Fails line.Blamed (line.expression text column) := by
  unfold expression
  split
  · exact fails_ok _
  · exact fails_error _ _
  · exact fails_error _ _
  · rename_i digits hparse
    exact fails_of ((Expr.valueless_of_parse hparse).mono hsub)

theorem fails_assigned : Fails line.Blamed line.assigned := by
  refine fails_expression ?_ _
  exact List.Subset.trans (List.drop_subset 1 _) (List.dropWhile_sublist _).subset

theorem fails_beforeColon (keyword : String) : Fails line.Blamed (line.beforeColon keyword) := by
  unfold beforeColon
  dsimp only
  split_ifs
  · exact fails_error _ _
  · exact fails_ok _
  · exact fails_error _ _

theorem beforeColon_subset (h : line.beforeColon keyword = .ok header) :
    header ⊆ line.content := by
  unfold beforeColon at h
  dsimp only at h
  split_ifs at h
  · cases h
  · cases h
    exact List.Subset.trans (Text.trimRight_subset _) (List.take_subset _ _)
  · cases h

theorem fails_declaration (ws : List (List Char)) : Fails line.Blamed (line.declaration ws) := by
  unfold declaration
  split
  · split_ifs
    · exact fails_error _ _
    · exact fails_error _ _
    · exact fails_bind fails_assigned fun _ _ => fails_ok _
  · exact fails_error _ _

theorem fails_assignment (name : List Char) : Fails line.Blamed (line.assignment name) :=
  fails_bind fails_assigned fun _ _ => fails_ok _

theorem fails_repetition : Fails line.Blamed line.repetition := by
  refine fails_bind (fails_beforeColon _) fun header hheader => ?_
  have htext : Text.trimLeft (header.drop 6) ⊆ line.content :=
    List.Subset.trans (Text.trimLeft_subset _)
      (List.Subset.trans (List.drop_subset 6 header) (beforeColon_subset hheader))
  dsimp only
  split
  · exact fails_error _ _
  · rename_i condition huntil
    exact fails_bind (fails_expression (List.Subset.trans (untilText?_subset huntil) htext) _)
      fun _ _ => fails_ok _
  · split_ifs
    · exact fails_error _ _
    · exact fails_bind (fails_expression htext _) fun _ _ => fails_ok _

theorem fails_conditional : Fails line.Blamed line.conditional := by
  refine fails_bind (fails_beforeColon _) fun header hheader => ?_
  have htext : Text.trimLeft (header.drop 2) ⊆ line.content :=
    List.Subset.trans (Text.trimLeft_subset _)
      (List.Subset.trans (List.drop_subset 2 header) (beforeColon_subset hheader))
  dsimp only
  split_ifs
  · exact fails_error _ _
  · exact fails_bind (fails_expression htext _) fun _ _ => fails_ok _

theorem fails_jump (inLoop : Bool) (i : Instr) (ws : List (List Char)) :
    Fails line.Blamed (line.jump inLoop keyword i ws) := by
  unfold jump
  split
  · split_ifs
    · exact fails_ok _
    · exact fails_error _ _
  · exact fails_error _ _

theorem fails_movement (instr : Expr → Instr) (ws : List (List Char)) :
    Fails line.Blamed (line.movement keyword instr ws) := by
  unfold movement
  split
  · refine fails_bind (fails_expression ?_ _) fun _ _ => fails_ok _
    exact List.Subset.trans (Text.trimLeft_subset _) (List.drop_subset _ _)
  · exact fails_error _ _

theorem fails_penChange (ws : List (List Char)) : Fails line.Blamed (line.penChange ws) := by
  unfold penChange
  split
  · dsimp only
    split_ifs
    · exact fails_ok _
    · exact fails_ok _
    · exact fails_error _ _
  · exact fails_error _ _

theorem fails_colorChange (ws : List (List Char)) : Fails line.Blamed (line.colorChange ws) := by
  unfold colorChange
  split
  · split
    · exact fails_ok _
    · exact fails_error _ _
    · exact fails_error _ _
    · exact fails_error _ _
  · exact fails_error _ _

/-- **A line fails by a complaint about it**, unless a numeral has no value. -/
theorem fails_statement (inLoop : Bool) : Fails line.Blamed (line.statement inLoop) := by
  unfold statement
  dsimp only
  split_ifs
  · exact fails_declaration _
  · exact fails_assignment _
  · split
    · exact fails_repetition
    · exact fails_conditional
    · exact fails_jump _ _ _
    · exact fails_jump _ _ _
    · exact fails_movement _ _
    · exact fails_movement _ _
    · exact fails_movement _ _
    · exact fails_movement _ _
    · exact fails_penChange _
    · exact fails_colorChange _
    · exact fails_error _ _

end Line

/-! ## Texts -/

/-- What holds of the failures of lines holds of those of a run of lines. -/
theorem fails_block {E : Line → Error → Prop} {lines : List Line}
    (h : ∀ l ∈ lines, ∀ inLoop, Fails (E l) (l.statement inLoop)) (inLoop : Bool) :
    Fails (fun e => ∃ l ∈ lines, E l e) (block inLoop lines) := by
  have later {line : Line} {rest part : List Line} {e : Error} (hpart : part ⊆ rest)
      (he : ∃ l ∈ part, E l e) : ∃ l ∈ line :: rest, E l e := by
    obtain ⟨l, hl, he⟩ := he
    exact ⟨l, List.mem_cons_of_mem _ (hpart hl), he⟩
  fun_induction block inLoop lines with
  | case1 => exact fails_ok _
  | case2 inLoop line rest e hs =>
    exact fails_of ⟨line, List.mem_cons_self, h line List.mem_cons_self inLoop e hs⟩
  | case3 inLoop line rest i hs e hb ih =>
    have hrest := ih fun l hl => h l (List.mem_cons_of_mem _ hl)
    exact fails_of (later (List.Subset.refl _) (hrest e hb))
  | case4 => exact fails_ok _
  | case5 inLoop line rest hd hs e hb ih =>
    have hbelow : line.below rest ⊆ rest := (List.takeWhile_sublist _).subset
    have hbody := ih fun l hl => h l (List.mem_cons_of_mem _ (hbelow hl))
    exact fails_of (later hbelow (hbody e hb))
  | case6 inLoop line rest hd hs body hb e ha ihbody ih =>
    have hafter : line.after rest ⊆ rest := (List.dropWhile_sublist _).subset
    have hrest := ih fun l hl => h l (List.mem_cons_of_mem _ (hafter hl))
    exact fails_of (later hafter (hrest e ha))
  | case7 => exact fails_ok _

/-- **A text fails by a complaint about one of its statements**, unless a numeral has no value. -/
theorem fails_parse (source : String) :
    Fails (fun e => ∃ l ∈ statementLines source, l.Blamed e) (parse source) :=
  fails_block (fun _ _ => Line.fails_statement) false

theorem mem_of_mem_splitLinesFrom {current cs raw : List Char} {c : Char}
    (h : raw ∈ splitLinesFrom current cs) (hc : c ∈ raw) : c ∈ current ∨ c ∈ cs := by
  fun_induction splitLinesFrom current cs with
  | case1 current =>
    rw [List.mem_singleton.1 h] at hc
    exact .inl (List.mem_reverse.1 hc)
  | case2 current cs ih =>
    rcases List.mem_cons.1 h with rfl | h
    · exact .inl (List.mem_reverse.1 hc)
    · refine .inr (List.mem_cons_of_mem _ (List.mem_cons_of_mem _ ?_))
      exact (ih h).resolve_left List.not_mem_nil
  | case3 current d cs _ _ ih =>
    rcases List.mem_cons.1 h with rfl | h
    · exact .inl (List.mem_reverse.1 hc)
    · exact .inr (List.mem_cons_of_mem _ ((ih h).resolve_left List.not_mem_nil))
  | case4 current d cs _ _ ih =>
    rcases ih h with hcurrent | hcs
    · rcases List.mem_cons.1 hcurrent with rfl | hcurrent
      · exact .inr List.mem_cons_self
      · exact .inl hcurrent
    · exact .inr (List.mem_cons_of_mem _ hcs)

theorem stripComment_subset (cs : List Char) : stripComment cs ⊆ cs := by
  fun_induction stripComment cs with
  | case1 => exact List.Subset.refl _
  | case2 => exact List.nil_subset _
  | case3 => exact List.nil_subset _
  | case4 c cs _ _ ih => exact List.cons_subset_cons c ih

/-- The characters of a statement are those of the text. -/
theorem content_subset {source : String} {l : Line} (hl : l ∈ statementLines source) :
    l.content ⊆ source.toList := by
  obtain ⟨i, hi, rfl⟩ := List.mem_mapIdx.1 (List.mem_filter.1 hl).1
  intro c hc
  have hraw : c ∈ (splitLines source.toList)[i] :=
    (List.dropWhile_sublist _).subset (stripComment_subset _ (Text.trim_subset _ hc))
  exact (mem_of_mem_splitLinesFrom (List.getElem_mem hi) hraw).resolve_left List.not_mem_nil

end Source

/-! ## Hosts -/

namespace Host

/-- A failure that a host may meet with a text. It is not that of a program which is no text or which
has expressions from outside the language, and if it is that of a numeral, then this numeral of the
text has no value. The other failures have to do with limits, settings and the start of the turtle. -/
def Escape.Admissible (source : String) : Escape → Prop
  | .numeral digits => Valueless source.toList digits
  | .noLength _ => False
  | .notText => False
  | .expr _ => False
  | _ => True

def Refusal.Admissible (source : String) : Refusal → Prop
  | .report _ => True
  | .escape e => e.Admissible source

section

variable (limits : Limits) (source : String) (settings : Json)

theorem fails_exceeds (n : Nat) (j : Json) :
    Fails (Escape.Admissible source) (exceeds n j) := by
  cases j with
  | int m => exact fails_ok _
  | bool b => exact fails_ok _
  | real x => exact fails_ok _
  | _ => exact fails_of trivial

theorem admissible_refuseSource {e : Source.Error} (h : Source.parse source = .error e) :
    (refuseSource source e).Admissible source := by
  obtain ⟨l, hl, hblamed⟩ := Source.fails_parse source e h
  cases e with
  | malformed c line column => trivial
  | numeral digits => exact Valueless.mono hblamed (Source.content_subset hl)

/-- A text is no program if its length cannot be limited, if it is too long, or if it is not one. -/
theorem fails_program_of {E : Refusal → Prop}
    (hlimit : ∀ n, Fails (fun e => E (.escape e)) (exceeds n limits.maxCodeChars))
    (hlarge : ∀ message, E (.report { code := "CODE_TOO_LARGE", message := message }))
    (hparse : ∀ e, Source.parse source = .error e → E (refuseSource source e)) :
    Fails E (limits.program (.str source)) := by
  refine fails_bind (fails_mapError (fails_ok _)) fun n _ => ?_
  refine fails_bind (fails_mapError (hlimit n)) fun b _ => ?_
  cases b with
  | true => exact fails_of (hlarge _)
  | false => exact fails_mapError hparse

theorem fails_program : Fails (Refusal.Admissible source) (limits.program (.str source)) :=
  fails_program_of limits source (fun n => fails_exceeds source n _) (fun _ => trivial)
    fun _ => admissible_refuseSource source

theorem admissible_refuseSetting (e : ConversionError) : (refuseSetting e).Admissible source := by
  unfold refuseSetting
  split_ifs
  · trivial
  · trivial

theorem fails_settingsObject : Fails (Escape.Admissible source) (settingsObject settings) := by
  unfold settingsObject
  split_ifs
  · exact fails_ok _
  · split
    · exact fails_ok _
    · exact fails_of trivial

theorem fails_prepare :
    Fails (Refusal.Admissible source) (limits.prepare (.str source) settings) := by
  refine fails_bind (fails_program limits source) fun program _ => ?_
  refine fails_bind (fails_mapError (fails_settingsObject source settings)) fun settings _ => ?_
  refine fails_bind (fails_mapError fun e _ => admissible_refuseSetting source e) fun o _ => ?_
  exact fails_ok _

theorem fails_parse : Fails (Refusal.Admissible source) (limits.parse (.str source)) := by
  refine fails_bind (fails_prepare limits source .null) fun prepared _ => ?_
  obtain ⟨program, o⟩ := prepared
  dsimp only
  split_ifs
  · exact fails_ok _
  · exact fails_of trivial

variable {limits source settings} {program : List Instr} {o : Options}

/-- A program that was prepared was read from the text. -/
theorem parse_of_prepare (h : limits.prepare (.str source) settings = .ok (program, o)) :
    Source.parse source = .ok program := by
  obtain ⟨program', hprogram, h⟩ := exists_of_bind_eq_ok h
  obtain ⟨settings, -, h⟩ := exists_of_bind_eq_ok h
  obtain ⟨options, -, h⟩ := exists_of_bind_eq_ok h
  cases h
  obtain ⟨n, -, hprogram⟩ := exists_of_bind_eq_ok hprogram
  obtain ⟨b, -, hprogram⟩ := exists_of_bind_eq_ok hprogram
  cases b with
  | true => cases hprogram
  | false => exact mapError_eq_ok.1 hprogram

/-- A run that does not get stuck has a reply, or else it is due to the start of the turtle. -/
theorem fails_replyTo {p : Option Int → Prop} {code : String}
    {outcome : Except Failure RunResult} (h : ∀ e, outcome = .error e → e.Regular p) :
    Fails (Escape.Admissible source) (replyTo code outcome) := by
  cases outcome with
  | ok r => exact fails_ok _
  | error e =>
    cases e with
    | runtime f line r => exact fails_ok _
    | expr e => exact absurd (h _ rfl) id
    | _ => exact fails_of trivial

theorem fails_refused (grid : Option PixelGrid) {r : Refusal} (h : r.Admissible source) :
    Fails (Escape.Admissible source) (Served.refused grid r).reply := by
  cases r with
  | report e => exact fails_ok _
  | escape e => exact fails_of h

theorem fails_run (engine : Json) (grid : Option PixelGrid) :
    Fails (Escape.Admissible source) (limits.run (.str source) settings engine grid).reply := by
  unfold Limits.run
  cases hp : limits.prepare (.str source) settings with
  | error r =>
    have hrefused := fails_refused grid (fails_prepare limits source settings r hp)
    dsimp only
    split
    · exact hrefused
    · exact hrefused
    · exact fails_ok _
  | ok prepared =>
    obtain ⟨program, o⟩ := prepared
    have hproper := Source.properAll_of_parse (parse_of_prepare hp)
    dsimp only
    split
    · exact fails_replyTo fun _ => regular_interpret hproper
    · rw [interpretStepping_eq]
      exact fails_replyTo fun _ => regular_interpret hproper
    · exact fails_ok _

theorem fails_runAsync (signal : CancelSignal) (grid : Option PixelGrid) :
    Fails (Escape.Admissible source)
      (limits.runAsync (.str source) settings signal grid).reply := by
  unfold Limits.runAsync
  cases hp : limits.prepare (.str source) settings with
  | error r => exact fails_refused grid (fails_prepare limits source settings r hp)
  | ok prepared =>
    obtain ⟨program, o⟩ := prepared
    dsimp only
    split
    · exact fails_refused grid (admissible_refuseSetting source _)
    · have hproper := Source.properAll_of_parse (parse_of_prepare hp)
      exact fails_replyTo fun _ => regular_interpretAsync hproper

/-- A request to read a program, which has usable limits and no settings, fails for a numeral only. -/
theorem fails_parseRequest (source : String) :
    Fails (fun e => ∃ digits, e = .numeral digits ∧ Valueless source.toList digits)
      (ParseRequest.respond ⟨source⟩) := by
  let E (r : Refusal) : Prop :=
    ∀ e, r = .escape e → ∃ digits, e = .numeral digits ∧ Valueless source.toList digits
  have hreport (e : ErrorReport) : E (.report e) := nofun
  have hsource (e : Source.Error) (he : Source.parse source = .error e) :
      E (refuseSource source e) := by
    intro e' he'
    have hadmissible := admissible_refuseSource source he
    rw [he'] at hadmissible
    cases e with
    | malformed c line column => cases he'
    | numeral digits =>
      cases he'
      exact ⟨digits, rfl, hadmissible⟩
  have hparse : Fails E (({} : Limits).parse (.str source)) := by
    have hprogram := fails_program_of {} source (fun _ => fails_ok _) (fun _ => hreport _) hsource
    refine fails_bind (fails_bind hprogram fun program _ => fails_ok _) fun prepared _ => ?_
    obtain ⟨program, o⟩ := prepared
    dsimp only
    split_ifs
    · exact fails_ok _
    · exact fails_of (hreport _)
  unfold ParseRequest.respond
  split
  · exact fails_ok _
  · exact fails_ok _
  · rename_i e he
    exact fails_of (hparse _ he e rfl)

end

end Host

/-- **Reading a text fails with a complaint about one of its statements**, and in no other way, unless
a numeral of the text has no value, for which one of its digits must be a digit in the wider sense
only. This numeral is also all that escapes from a request to read a program. Whatever else escapes
from a service that reads or runs a text, with any limits and settings, is not due to the text. -/
theorem parse_fails_by_complaint (source : String) :
    (∀ e, Source.parse source = .error e →
      (∃ c column, ∃ l ∈ Source.statementLines source, e = .malformed c l.number column) ∨
      ∃ digits, e = .numeral digits ∧ Valueless source.toList digits) ∧
    (∀ e, Host.ParseRequest.respond ⟨source⟩ = .error e →
      ∃ digits, e = .numeral digits ∧ Valueless source.toList digits) ∧
    ∀ limits : Host.Limits,
      (∀ e, limits.parse (.str source) = .error (.escape e) → e.Admissible source) ∧
      (∀ settings engine grid e,
        (limits.run (.str source) settings engine grid).reply = .error e → e.Admissible source) ∧
      ∀ settings signal grid e,
        (limits.runAsync (.str source) settings signal grid).reply = .error e →
          e.Admissible source := by
  refine ⟨fun e he => ?_, fun e he => ?_, fun limits => ⟨fun e => Host.fails_parse limits source _,
    fun settings engine grid => Host.fails_run engine grid,
    fun settings signal grid => Host.fails_runAsync signal grid⟩⟩
  · obtain ⟨l, hl, hblamed⟩ := Source.fails_parse source e he
    cases e with
    | malformed c n column =>
      have hn : n = l.number := hblamed
      exact .inl ⟨c, column, l, hl, by rw [hn]⟩
    | numeral digits =>
      exact .inr ⟨digits, rfl, Valueless.mono hblamed (Source.content_subset hl)⟩
  · exact Host.fails_parseRequest source e he

/-- A superscript is read as a numeral. -/
theorem parse_superscript : Source.parse "forward ²" = .error (.numeral ['²']) := by
  have hfails : (Source.parse "forward ²").map (fun _ => ()) = .error (.numeral ['²']) := by
    decide +kernel
  exact error_of_map hfails

/-- There is no complaint about a superscript. -/
theorem superscript_gets_no_complaint :
    ¬ ∀ e, Source.parse "forward ²" = .error e →
      ∃ c line column, e = .malformed c line column := by
  intro h
  obtain ⟨c, line, column, hc⟩ := h _ parse_superscript
  cases hc

/-- A superscript is a numeral without a value. -/
theorem superscript_is_valueless :
    Source.parse "forward ²" = .error (.numeral ['²']) ∧
      Valueless "forward ²".toList ['²'] := by
  refine ⟨parse_superscript, ?_⟩
  rcases (parse_fails_by_complaint "forward ²").1 _ parse_superscript with
    ⟨c, column, l, -, h⟩ | ⟨digits, h, hvalueless⟩
  · cases h
  · cases h
    exact hvalueless

end PixelTurtle
