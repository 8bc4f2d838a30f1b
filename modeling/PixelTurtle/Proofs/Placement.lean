import PixelTurtle.Proofs.Complaints
import PixelTurtle.Proofs.Grammar

/-!
# Where complaints point

What is wrong with a line is found at a place of its content, and the content tells the whole of it:
two lines with the same content are read alike, wherever they stand and however they are indented.
So are texts, if their lines compare in indentation in the same way.

* `Token.within_of_scanFrom` and `Grammar.points_ofTokens` place what is wrong with an expression,
  `Expr.within_of_parse` joins them.
* `Alike` says that two readings come to the same, up to the lines that were read, and that a complaint
  is about a place within the content of its line or right behind it.
* `Line.alike_statement` says it of lines with the same content, part by part, and `alike_block` of
  runs of lines that are `Matched`.
* `exists_place` says that the place of a complaint exists in the text.
-/

namespace PixelTurtle

/-! ## Expressions -/

/-- The tokens of a text lie within it, and so does what cannot be scanned. -/
theorem Token.within_of_scanFrom (pos : Nat) (cs : List Char) :
    match scanFrom pos cs with
    | .error (_, column) => pos < column ∧ column ≤ pos + cs.length
    | .ok tokens => ∀ t ∈ tokens, pos ≤ t.pos ∧ t.pos < pos + cs.length := by
  fun_induction scanFrom pos cs with
  | case1 => exact List.forall_mem_nil _
  | case2 pos c cs _ ih =>
    rw [List.length_cons]
    split at ih
    · omega
    · intro t ht
      have := ih t ht
      omega
  | case3 pos c cs =>
    dsimp only
    rw [List.length_cons]
    omega
  | case4 pos c cs _ l n _ e hscan ih =>
    rw [hscan, List.length_drop] at ih
    dsimp only at ih ⊢
    rw [List.length_cons]
    omega
  | case5 pos c cs _ l n _ tokens hscan ih =>
    rw [hscan, List.length_drop] at ih
    dsimp only at ih ⊢
    rw [List.length_cons]
    intro t ht
    rcases List.mem_cons.1 ht with rfl | ht
    · dsimp only
      omega
    · have := ih t ht
      omega

namespace Grammar

open PixelTurtle.Expr

/-- The error points at one of the tokens, or at the end of the text if there are too few. -/
def Points (finish : Nat) (ts : List Token) : ParseError → Prop
  | .malformed p column =>
    (p = .unexpectedEnd ∨ p = .unclosed) ∧ column = finish + 1 ∨
      p ≠ .unexpectedEnd ∧ ∃ t ∈ ts, column = t.pos + 1
  | _ => True

section

variable {ts : List Token} {n finish : Nat} {err : ParseError}

theorem Points.append (h : Points finish ts err) (us : List Token) :
    Points finish (us ++ ts) err := by
  cases err with
  | malformed p column =>
    rcases h with h | ⟨hp, t, ht, hcolumn⟩
    · exact .inl h
    · exact .inr ⟨hp, t, List.mem_append_right us ht, hcolumn⟩
  | _ => trivial

theorem points_close {e : Expr} (h : close finish e ts = .error err) : Points finish ts err := by
  unfold close at h
  split at h
  · cases h
  · cases h
    exact .inr ⟨by simp, _, List.mem_cons_self, rfl⟩
  · cases h
    exact .inl ⟨.inr rfl, rfl⟩

theorem points_comparison {budget : Nat}
    (h : Justified (Points finish) (operand finish n budget)) :
    Justified (Points finish) (comparison n (operand finish n budget)) :=
  justified_comparison (E := Points finish) (fun us _ _ h => h.append us)
    (sound_operand finish n budget) h

theorem points_operand (finish n budget : Nat) :
    Justified (Points finish) (operand finish n budget) := by
  induction budget using Nat.strongRecOn with
  | ind budget ih =>
  intro ts err h
  cases budget with
  | zero =>
    cases h
    trivial
  | succ b =>
  cases ts with
  | nil =>
    simp only [operand] at h
    cases h
    exact .inl ⟨.inl rfl, rfl⟩
  | cons t ts =>
  obtain ⟨lexeme, pos⟩ := t
  cases lexeme with
  | numeral digits =>
    simp only [operand] at h
    split at h
    · cases h
    · cases h
      trivial
  | ident name =>
    simp only [operand] at h
    cases h
  | symbol s =>
    simp only [operand] at h
    split at h
    · split at h
      · rename_i h₀
        cases h
        exact (ih b (Nat.lt_succ_self b) h₀).append [⟨.symbol s, pos⟩]
      · cases h
    · split at h
      · split at h
        · rename_i inner
          split at h
          · rename_i h₀
            cases h
            exact (points_comparison (ih inner (by omega)) h₀).append [⟨.symbol s, pos⟩]
          · rename_i rest h₀
            obtain ⟨used, rfl, -⟩ := sound_comparison (sound_operand finish n inner) h₀
            exact (points_close h).append (⟨.symbol s, pos⟩ :: used)
        · cases h
          trivial
      · cases h
        exact .inr ⟨by simp, _, List.mem_cons_self, rfl⟩

/-- **What is wrong with the tokens of a text is found at one of them**, or at the end of the
text. -/
theorem points_ofTokens {text : List Char} (h : ofTokens text ts = .error err) :
    Points text.length ts err := by
  unfold ofTokens at h
  split at h
  · rename_i hread
    cases h
    exact points_comparison (points_operand _ _ _) hread
  · cases h
  · rename_i e t rest hread
    cases h
    obtain ⟨used, rfl, -⟩ := sound_comparison (sound_operand _ _ _) hread
    exact .inr ⟨by simp, t, List.mem_append_right used List.mem_cons_self, rfl⟩

end

end Grammar

/-- **A problem of an expression is within its trimmed text**, or right behind it. -/
theorem Expr.within_of_parse {cs : List Char} {p : Problem} {column : Nat}
    (h : parse cs = .error (.malformed p column)) :
    1 ≤ column ∧ column ≤ (Text.trim cs).length + 1 := by
  unfold parse at h
  dsimp only at h
  split_ifs at h
  · cases h
    omega
  · split at h
    · cases h
    · have hscan := Token.within_of_scanFrom 0 (Text.trim cs)
      split at h
      · rename_i q c hq
        cases h
        rw [Token.scan] at hq
        rw [hq] at hscan
        dsimp only at hscan
        omega
      · rename_i tokens hq
        rw [Token.scan] at hq
        rw [hq] at hscan
        rcases Grammar.points_ofTokens h with ⟨-, rfl⟩ | ⟨-, t, ht, rfl⟩
        · omega
        · have := hscan t ht
          omega

namespace Text

theorem length_trimRight_le (cs : List Char) : (trimRight cs).length ≤ cs.length := by
  rw [trimRight, List.length_reverse]
  exact Nat.le_trans (List.length_dropWhile_le _ _) (Nat.le_of_eq List.length_reverse)

theorem length_trim_le (cs : List Char) : (trim cs).length ≤ (trimLeft cs).length :=
  length_trimRight_le _

theorem length_trimLeft_drop_le (n : Nat) (cs : List Char) :
    (trimLeft (cs.drop n)).length ≤ cs.length :=
  ((List.dropWhile_sublist _).trans (List.drop_sublist n cs)).length_le

theorem word_append_afterWord (cs : List Char) : word cs ++ afterWord cs = cs :=
  List.takeWhile_append_dropWhile

theorem length_head_words_le (cs : List Char) : ((words cs).head?.getD []).length ≤ cs.length := by
  rw [words]
  split
  · exact Nat.zero_le _
  · rename_i c rest htrim
    show (word (c :: rest)).length ≤ cs.length
    rw [← htrim]
    exact ((List.takeWhile_sublist _).trans (List.dropWhile_sublist _)).length_le

/-- A word that is not the only one is shorter than the text. -/
theorem length_head_words_lt {cs : List Char} (hcs : cs ≠ []) (h : (words cs).length ≠ 1) :
    ((words cs).head?.getD []).length < cs.length := by
  rw [words] at h ⊢
  split at h
  · exact List.length_pos_of_ne_nil hcs
  · rename_i c rest htrim
    show (word (c :: rest)).length < cs.length
    have hall := congrArg List.length (word_append_afterWord (c :: rest))
    have hmore : afterWord (c :: rest) ≠ [] := by
      intro hnil
      rw [hnil, words] at h
      exact h rfl
    have hpos := List.length_pos_of_ne_nil hmore
    have hle : (trimLeft cs).length ≤ cs.length := List.length_dropWhile_le _ _
    rw [htrim] at hle
    rw [List.length_append] at hall
    omega

end Text

/-! ## Programs without line numbers -/

mutual
/-- An instruction without its line number, and without those of the instructions inside it. -/
def Instr.unnumbered : Instr → Instr
  | .move way e _ => .move way e none
  | .turn side e _ => .turn side e none
  | .pen state _ => .pen state none
  | .hsv h s v _ => .hsv h s v none
  | .assign name e reassign _ => .assign name e reassign none
  | .loop mode count until? body _ => .loop mode count until? (unnumberedAll body) none
  | .branch test body _ => .branch test (unnumberedAll body) none
  | .breakLoop _ => .breakLoop none
  | .continueLoop _ => .continueLoop none
  | .foreign kind => .foreign kind

/-- A program without its line numbers. -/
def unnumberedAll : List Instr → List Instr
  | [] => []
  | i :: is => i.unnumbered :: unnumberedAll is
end

namespace Source

theorem positionOf_le (needle cs : List Char) : positionOf needle cs ≤ cs.length := by
  induction cs with
  | nil => exact Nat.zero_le _
  | cons c cs ih =>
    rw [positionOf]
    split_ifs
    · exact Nat.zero_le _
    · exact Nat.succ_le_succ ih

theorem length_untilText?_le {text condition : List Char} (h : untilText? text = some condition) :
    condition.length ≤ text.length := by
  unfold untilText? at h
  split at h
  · rename_i u n t i l rest
    have htrim : (Text.trimLeft rest).length ≤ rest.length := List.length_dropWhile_le _ _
    dsimp only at h
    split_ifs at h
    split at h
    · cases h
      exact Nat.zero_le _
    · split_ifs at h
      cases h
      simp only [List.length_cons] at htrim ⊢
      omega
  · cases h

/-! ## Readings of lines -/

/-- Both readings succeed, and `R` holds of what was read; or both fail, either with one complaint
about the two lines of a pair, at the same place of their contents, or for the same numeral. -/
inductive Alike (pairs : List (Line × Line)) {α : Type} (R : α → α → Prop) :
    Except Error α → Except Error α → Prop
  | ok {a a' : α} : R a a' → Alike pairs R (.ok a) (.ok a')
  | complaint (c : Complaint) {l l' : Line} {k : Nat} : (l, l') ∈ pairs → k ≤ l.content.length →
    Alike pairs R (.error (.malformed c l.number (l.offset + k + 1)))
      (.error (.malformed c l'.number (l'.offset + k + 1)))
  | numeral (digits : List Char) :
    Alike pairs R (.error (.numeral digits)) (.error (.numeral digits))

section Alike

variable {α β : Type} {pairs : List (Line × Line)} {R : α → α → Prop} {S : β → β → Prop}

theorem Alike.bind {x x' : Except Error α} {f f' : α → Except Error β} (hx : Alike pairs R x x')
    (hf : ∀ a a', R a a' → Alike pairs S (f a) (f' a')) : Alike pairs S (x >>= f) (x' >>= f') := by
  cases hx with
  | ok h => exact hf _ _ h
  | complaint c hl hk => exact .complaint c hl hk
  | numeral digits => exact .numeral digits

theorem Alike.mono {pairs' : List (Line × Line)} {x x' : Except Error α} (h : Alike pairs R x x')
    (hsub : pairs ⊆ pairs') : Alike pairs' R x x' := by
  cases h with
  | ok h => exact .ok h
  | complaint c hl hk => exact .complaint c (hsub hl) hk
  | numeral digits => exact .numeral digits

end Alike

/-- The two statements are the same but for the number of their line. -/
inductive Statement.Same : Statement → Statement → Prop
  | simple {i i' : Instr} : i.unnumbered = i'.unnumbered → Same (.simple i) (.simple i')
  | header (h : Header) : Same (.header h) (.header h)

namespace Line

section

variable {l l' : Line} {text whole header : List Char}

/-- The same complaint at the same place of both contents. -/
theorem alike_error {α : Type} {R : α → α → Prop} (c : Complaint) {k : Nat}
    (hk : k ≤ l.content.length) : Alike [(l, l')] R (l.error c k) (l'.error c k) :=
  .complaint c List.mem_cons_self hk

theorem alike_expression {column : Nat} (hfits : column + text.length ≤ l.content.length) :
    Alike [(l, l')] Eq (l.expression text column) (l'.expression text column) := by
  unfold expression
  cases h : Expr.parse text with
  | ok e => exact .ok rfl
  | error err =>
    cases err with
    | malformed p c =>
      refine alike_error _ ?_
      have hcolumn := Expr.within_of_parse h
      have hleft : (Text.trimLeft text).length ≤ text.length := List.length_dropWhile_le _ _
      have htrim := Text.length_trim_le text
      omega
    | numeral digits => exact .numeral digits
    | tooDeep => exact alike_error _ (by omega)

theorem alike_expressionAtEnd (hwhole : whole.length ≤ l.content.length)
    (htext : text.length ≤ whole.length) :
    Alike [(l, l')] Eq (l.expressionAtEnd whole text) (l'.expressionAtEnd whole text) :=
  alike_expression (by omega)

variable (h : l.content = l'.content)
include h

theorem alike_assigned : Alike [(l, l')] Eq l.assigned l'.assigned := by
  unfold assigned
  rw [← h]
  refine alike_expressionAtEnd (Nat.le_refl _) ?_
  have hdrop : (l.content.dropWhile (· != '=')).length ≤ l.content.length :=
    List.length_dropWhile_le _ _
  rw [List.length_drop]
  omega

/-- The headers that are read are the same, and fit into the content. -/
theorem alike_beforeColon (keyword : String) :
    Alike [(l, l')] (fun header header' => header = header' ∧ header.length ≤ l.content.length)
      (l.beforeColon keyword) (l'.beforeColon keyword) := by
  unfold beforeColon
  dsimp only
  rw [← h]
  have hafter : (l.content.reverse.takeWhile (· != ':')).reverse.length ≤ l.content.length := by
    rw [List.length_reverse]
    exact Nat.le_trans (List.takeWhile_sublist _).length_le (Nat.le_of_eq List.length_reverse)
  split_ifs with hcolon hblank
  · exact alike_error _ (Nat.le_refl _)
  · refine .ok ⟨rfl, ?_⟩
    exact Nat.le_trans (Text.length_trimRight_le _) (List.length_take_le' _ _)
  · refine alike_error _ ?_
    rw [beq_iff_eq] at hcolon
    omega

theorem alike_declaration (ws : List (List Char)) :
    Alike [(l, l')] Statement.Same (l.declaration ws) (l'.declaration ws) := by
  match ws with
  | [] | [_] | [_, _] | [_, _, _] => exact alike_error _ (Nat.zero_le _)
  | _ :: name :: eq :: _ :: _ =>
    simp only [declaration, ← h]
    split_ifs
    · exact alike_error _ (Nat.zero_le _)
    · exact alike_error _ (positionOf_le _ _)
    · refine (alike_assigned h).bind ?_
      rintro e _ rfl
      exact .ok (.simple rfl)

theorem alike_assignment (name : List Char) :
    Alike [(l, l')] Statement.Same (l.assignment name) (l'.assignment name) := by
  refine (alike_assigned h).bind ?_
  rintro e _ rfl
  exact .ok (.simple rfl)

theorem alike_repetition : Alike [(l, l')] Statement.Same l.repetition l'.repetition := by
  refine (alike_beforeColon h _).bind ?_
  rintro header _ ⟨rfl, hfits⟩
  have htext : (Text.trimLeft (header.drop 6)).length ≤ header.length :=
    Text.length_trimLeft_drop_le _ _
  dsimp only
  split
  · exact alike_error _ (Nat.zero_le _)
  · rename_i condition _ huntil
    refine (alike_expressionAtEnd hfits (Nat.le_trans (length_untilText?_le huntil) htext)).bind ?_
    rintro e _ rfl
    exact .ok (.header _)
  · split_ifs
    · exact alike_error _ (Nat.zero_le _)
    · refine (alike_expressionAtEnd hfits htext).bind ?_
      rintro e _ rfl
      exact .ok (.header _)

theorem alike_conditional : Alike [(l, l')] Statement.Same l.conditional l'.conditional := by
  refine (alike_beforeColon h _).bind ?_
  rintro header _ ⟨rfl, hfits⟩
  have htext : (Text.trimLeft (header.drop 2)).length ≤ header.length :=
    Text.length_trimLeft_drop_le _ _
  dsimp only
  split_ifs
  · exact alike_error _ (Nat.zero_le _)
  · refine (alike_expressionAtEnd hfits htext).bind ?_
    rintro e _ rfl
    exact .ok (.header _)

theorem alike_movement (keyword : String) {instr instr' : Expr → Instr}
    (hinstr : ∀ e, (instr e).unnumbered = (instr' e).unnumbered) {ws : List (List Char)}
    (hws : (ws.head?.getD []).length ≤ l.content.length) :
    Alike [(l, l')] Statement.Same (l.movement keyword instr ws) (l'.movement keyword instr' ws) := by
  match ws with
  | [] | [_] => exact alike_error _ hws
  | w :: _ :: _ =>
    simp only [movement, ← h]
    refine (alike_expressionAtEnd (Nat.le_refl _) ?_).bind ?_
    · exact Text.length_trimLeft_drop_le _ _
    · rintro e _ rfl
      exact .ok (.simple (hinstr e))

theorem alike_penChange (ws : List (List Char)) :
    Alike [(l, l')] Statement.Same (l.penChange ws) (l'.penChange ws) := by
  match ws with
  | [] | [_] | _ :: _ :: _ :: _ => exact alike_error _ (Nat.zero_le _)
  | [_, state] =>
    simp only [penChange, ← h]
    split_ifs
    · exact .ok (.simple rfl)
    · exact .ok (.simple rfl)
    · exact alike_error _ (positionOf_le _ _)

omit h in
theorem alike_colorChange (ws : List (List Char)) :
    Alike [(l, l')] Statement.Same (l.colorChange ws) (l'.colorChange ws) := by
  match ws with
  | [] | [_] | [_, _] | [_, _, _] | _ :: _ :: _ :: _ :: _ :: _ =>
    exact alike_error _ (Nat.zero_le _)
  | [_, h, s, v] =>
    simp only [colorChange]
    cases HsvParam.parse h with
    | error e => exact alike_error _ (Nat.zero_le _)
    | ok h =>
      cases HsvParam.parse s with
      | error e => exact alike_error _ (Nat.zero_le _)
      | ok s =>
        cases HsvParam.parse v with
        | error e => exact alike_error _ (Nat.zero_le _)
        | ok v => exact .ok (.simple rfl)

omit h in
theorem alike_jump (inLoop : Bool) (keyword : String) {i i' : Instr}
    (hi : i.unnumbered = i'.unnumbered) {ws : List (List Char)}
    (hws : ws.length ≠ 1 → (ws.head?.getD []).length + 1 ≤ l.content.length) :
    Alike [(l, l')] Statement.Same (l.jump inLoop keyword i ws) (l'.jump inLoop keyword i' ws) := by
  match ws with
  | [] => exact alike_error _ (hws (by simp))
  | _ :: _ :: _ => exact alike_error _ (hws (by simp))
  | [_] =>
    simp only [jump]
    split_ifs
    · exact .ok (.simple hi)
    · exact alike_error _ (Nat.zero_le _)

/-- **Lines with the same content are read alike**, and what is wrong with one of them is within its
content or right behind it. -/
theorem alike_statement (hl : l.content ≠ []) (inLoop : Bool) :
    Alike [(l, l')] Statement.Same (l.statement inLoop) (l'.statement inLoop) := by
  have hfirst := Text.length_head_words_le l.content
  have hothers := Text.length_head_words_lt hl
  unfold statement
  simp only [← h]
  generalize Command.resolve (Name.canonical ((Text.words l.content).head?.getD [])) = keyword
  split_ifs
  · exact alike_declaration h _
  · exact alike_assignment h _
  · split
    · exact alike_repetition h
    · exact alike_conditional h
    · exact alike_jump _ _ (by rfl) hothers
    · exact alike_jump _ _ (by rfl) hothers
    · exact alike_movement h _ (fun _ => by rfl) hfirst
    · exact alike_movement h _ (fun _ => by rfl) hfirst
    · exact alike_movement h _ (fun _ => by rfl) hfirst
    · exact alike_movement h _ (fun _ => by rfl) hfirst
    · exact alike_penChange h _
    · exact alike_colorChange _
    · exact alike_error _ (Nat.zero_le _)

end

end Line

/-! ## Readings of texts -/

/-- What is read of a line goes before what is read of the lines after it. -/
theorem block_cons (inLoop : Bool) (line : Line) (rest : List Line) :
    block inLoop (line :: rest) = line.statement inLoop >>= fun s =>
      match s with
      | .simple i => block inLoop rest >>= fun is => .ok (i :: is)
      | .header h => block (inLoop || h.isLoop) (line.below rest) >>= fun body =>
        block inLoop (line.after rest) >>= fun is => .ok (h.instr line.number body :: is) := by
  rw [block]
  cases line.statement inLoop with
  | error e => rfl
  | ok s =>
    cases s with
    | simple i =>
      cases block inLoop rest <;> rfl
    | header h =>
      cases hbody : block (inLoop || h.isLoop) (line.below rest) with
      | error e => simp only [bind, Except.bind, hbody]
      | ok body =>
        cases block inLoop (line.after rest) <;> simp only [bind, Except.bind, hbody]

/-- The lines of a pair hold the same statement, and the indentations of the first lines compare as
those of the second lines do. -/
structure Matched (pairs : List (Line × Line)) : Prop where
  content : ∀ p ∈ pairs, p.1.content = p.2.content ∧ p.1.content ≠ []
  indent : ∀ p ∈ pairs, ∀ q ∈ pairs, p.1.indent < q.1.indent ↔ p.2.indent < q.2.indent

section Matched

variable {pairs : List (Line × Line)} {p : Line × Line}

theorem Matched.mono {pairs' : List (Line × Line)} (h : Matched pairs) (hsub : pairs' ⊆ pairs) :
    Matched pairs' where
  content p hp := h.content p (hsub hp)
  indent p hp q hq := h.indent p (hsub hp) q (hsub hq)

/-- Blocks of matched lines are matched. -/
theorem Matched.exists_split (h : Matched (p :: pairs)) :
    ∃ inner outer, pairs = inner ++ outer ∧
      p.1.below (pairs.map Prod.fst) = inner.map Prod.fst ∧
      p.2.below (pairs.map Prod.snd) = inner.map Prod.snd ∧
      p.1.after (pairs.map Prod.fst) = outer.map Prod.fst ∧
      p.2.after (pairs.map Prod.snd) = outer.map Prod.snd := by
  have hp (q : Line × Line) (hq : q ∈ pairs) : p.1.indent < q.1.indent ↔ p.2.indent < q.2.indent :=
    h.indent p List.mem_cons_self q (List.mem_cons_of_mem _ hq)
  clear h
  induction pairs with
  | nil => exact ⟨[], [], rfl, rfl, rfl, rfl, rfl⟩
  | cons q pairs ih =>
    have hq := hp q List.mem_cons_self
    unfold Line.below Line.after at ih ⊢
    simp only [List.map_cons, List.takeWhile_cons, List.dropWhile_cons, decide_eq_true_eq]
    by_cases hlt : p.1.indent < q.1.indent
    · obtain ⟨inner, outer, rfl, h₁, h₂, h₃, h₄⟩ :=
        ih fun r hr => hp r (List.mem_cons_of_mem _ hr)
      refine ⟨q :: inner, outer, rfl, ?_⟩
      rw [if_pos hlt, if_pos (hq.1 hlt), if_pos hlt, if_pos (hq.1 hlt), h₁, h₂, h₃, h₄]
      exact ⟨rfl, rfl, rfl, rfl⟩
    · refine ⟨[], q :: pairs, rfl, ?_⟩
      rw [if_neg hlt, if_neg (mt hq.2 hlt), if_neg hlt, if_neg (mt hq.2 hlt)]
      exact ⟨rfl, rfl, rfl, rfl⟩

theorem unnumbered_instr (h : Header) {n n' : Nat} {body body' : List Instr}
    (hbody : unnumberedAll body = unnumberedAll body') :
    (h.instr n body).unnumbered = (h.instr n' body').unnumbered := by
  cases h <;> simp only [Header.instr, Instr.unnumbered, hbody]

/-- **Matched lines are read alike.** -/
theorem alike_block (h : Matched pairs) (inLoop : Bool) :
    Alike pairs (fun is is' => unnumberedAll is = unnumberedAll is')
      (block inLoop (pairs.map Prod.fst)) (block inLoop (pairs.map Prod.snd)) := by
  induction hn : pairs.length using Nat.strongRecOn generalizing pairs inLoop with
  | ind n ih =>
  cases pairs with
  | nil =>
    simp only [List.map_nil, block]
    exact .ok rfl
  | cons p pairs =>
    obtain ⟨l, l'⟩ := p
    obtain ⟨hcontent, hne⟩ := h.content (l, l') List.mem_cons_self
    have hrest : pairs ⊆ (l, l') :: pairs := List.subset_cons_self _ _
    have hhead : [(l, l')] ⊆ (l, l') :: pairs := by
      intro p hp
      rw [List.mem_singleton.1 hp]
      exact List.mem_cons_self
    rw [List.length_cons] at hn
    simp only [List.map_cons, block_cons]
    refine ((Line.alike_statement hcontent hne inLoop).mono hhead).bind fun s s' hs => ?_
    cases hs with
    | @simple i i' hi =>
      refine ((ih _ (by omega) (h.mono hrest) inLoop rfl).mono hrest).bind fun is is' his => ?_
      refine .ok ?_
      simp only [unnumberedAll, hi, his]
    | header hd =>
      obtain ⟨inner, outer, rfl, hbelow, hbelow', hafter, hafter'⟩ := h.exists_split
      dsimp only at hbelow hbelow' hafter hafter' ⊢
      rw [hbelow, hbelow', hafter, hafter']
      rw [List.length_append] at hn
      have hinner := List.Subset.trans (List.subset_append_left inner outer) hrest
      have houter := List.Subset.trans (List.subset_append_right inner outer) hrest
      refine ((ih _ (by omega) (h.mono hinner) _ rfl).mono hinner).bind fun body body' hbody => ?_
      refine ((ih _ (by omega) (h.mono houter) inLoop rfl).mono houter).bind fun is is' his => ?_
      refine .ok ?_
      rw [unnumberedAll, unnumberedAll, unnumbered_instr hd hbody, his]

end Matched

/-! ## Places in a text -/

theorem length_stripComment_le (cs : List Char) : (stripComment cs).length ≤ cs.length := by
  fun_induction stripComment cs with
  | case1 => exact Nat.le_refl _
  | case2 => exact Nat.zero_le _
  | case3 => exact Nat.zero_le _
  | case4 c cs _ _ ih => exact Nat.succ_le_succ ih

/-- The content of a line comes after its indentation. -/
theorem offset_add_length_content_le (n : Nat) (raw : List Char) :
    (Line.ofRaw n raw).offset + (Line.ofRaw n raw).content.length ≤ raw.length := by
  have hparts := congrArg List.length (List.takeWhile_append_dropWhile (p := isIndent) (l := raw))
  have hstrip := length_stripComment_le (raw.dropWhile isIndent)
  have htrim := Text.length_trim_le (stripComment (raw.dropWhile isIndent))
  have hleft : (Text.trimLeft (stripComment (raw.dropWhile isIndent))).length ≤
      (stripComment (raw.dropWhile isIndent)).length := List.length_dropWhile_le _ _
  rw [List.length_append] at hparts
  show (raw.takeWhile isIndent).length +
    (Text.trim (stripComment (raw.dropWhile isIndent))).length ≤ raw.length
  omega

section

variable {source : String} {l : Line}

theorem content_ne_nil (hl : l ∈ statementLines source) : l.content ≠ [] := by
  have h := (List.mem_filter.1 hl).2
  rw [Line.isStatement, Bool.not_eq_true', List.isEmpty_eq_false_iff] at h
  exact h

/-- The lines are counted from one. -/
theorem exists_index (hl : l ∈ statementLines source) :
    ∃ i, l = Line.ofRaw (i + 1) l.raw ∧ (splitLines source.toList)[i]? = some l.raw := by
  obtain ⟨i, hi, rfl⟩ := List.mem_mapIdx.1 (List.mem_filter.1 hl).1
  exact ⟨i, rfl, List.getElem?_eq_getElem hi⟩

/-- **What is wrong with a text is at one of its lines with a statement**, and within that line or
right behind it. -/
theorem exists_place {c : Complaint} {n column : Nat}
    (h : parse source = .error (.malformed c n column)) :
    ∃ l ∈ statementLines source, n = l.number ∧ 1 ≤ column ∧ column ≤ l.raw.length + 1 := by
  have hmatched : Matched ((statementLines source).map fun l => (l, l)) := by
    refine ⟨fun p hp => ?_, fun p hp q hq => ?_⟩
    · obtain ⟨l, hl, rfl⟩ := List.mem_map.1 hp
      exact ⟨rfl, content_ne_nil hl⟩
    · obtain ⟨l, -, rfl⟩ := List.mem_map.1 hp
      obtain ⟨k, -, rfl⟩ := List.mem_map.1 hq
      exact Iff.rfl
  have hread := alike_block hmatched false
  have hlines : ((statementLines source).map fun l => (l, l)).map Prod.fst =
      statementLines source := by
    rw [List.map_map]
    exact List.map_id _
  rw [hlines] at hread
  change Alike _ _ (parse source) _ at hread
  rw [h] at hread
  generalize block false _ = twin at hread
  cases hread with
  | @complaint _ l l' k hpair hk =>
  obtain ⟨l, hl, heq⟩ := List.mem_map.1 hpair
  cases heq
  obtain ⟨i, hraw, -⟩ := exists_index hl
  have hfits := offset_add_length_content_le (i + 1) l.raw
  rw [← hraw] at hfits
  exact ⟨l, hl, rfl, by omega, by omega⟩

end

end Source

end PixelTurtle
