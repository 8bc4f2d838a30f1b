import PixelTurtle.Proofs.ExprRoundTrip

/-!
# Reading written statements

A line that holds the statement of an instruction is read as this instruction, whatever names its
variables have. What a line is follows from its first words, and an argument never starts with an
equals sign, so no other statement is taken for an assignment.

* `HsvParam.parse_print` reads a written parameter.
* `Line.assigned_of_content`, `Line.beforeColon_of_content` and `Line.words_of_content` read the
  parts of a line.
* `Line.statement_of_text` reads a statement.
* `Instr.trimmed_text` and `Instr.tidy_text` say that nothing of a statement is cut off.
-/

namespace PixelTurtle

variable {lit : Float → List Char}

/-! ## Parameters -/

theorem Amount.isAtom_print {a : Amount} (h : a.WellFormed lit) :
    ∀ c ∈ a.print lit, isAtom c = true := by
  cases a with
  | lit x => exact Spells.isAtom h
  | var name => exact isAtom_of_isName h

theorem Amount.print_ne_nil {a : Amount} (h : a.WellFormed lit) : a.print lit ≠ [] := by
  cases a with
  | lit x => exact Spells.ne_nil h
  | var name => exact toList_ne_nil_of_isName h

theorem Amount.parseUnsigned?_print {a : Amount} (h : a.WellFormed lit) :
    Amount.parseUnsigned? (a.print lit) = some a := by
  cases a with
  | lit x =>
    have hx : Spells lit x := h
    have hsign : ((lit x).head? == some '+' || (lit x).head? == some '-') = false := by
      rw [Bool.or_eq_false_iff, beq_eq_false_iff_ne, beq_eq_false_iff_ne]
      refine ⟨fun hc => ?_, fun hc => ?_⟩
      · exact ne_of_isAtom (hx.isAtom _ (List.mem_of_head? hc)) (by decide) rfl
      · exact ne_of_isAtom (hx.isAtom _ (List.mem_of_head? hc)) (by decide) rfl
    simp only [Amount.parseUnsigned?, Amount.print, hx.isIdentifier_eq_false, hsign, hx.2,
      Bool.false_eq_true, if_false, Option.map_some]
  | var name =>
    have hx : IsName name := h
    simp only [Amount.parseUnsigned?, Amount.print, hx.1, canonical_of_isName hx, if_true]

theorem Amount.print_ne_underscore {a : Amount} (h : a.WellFormed lit) (ha : a ≠ .var "_") :
    a.print lit ≠ ['_'] := by
  cases a with
  | lit x =>
    intro hx
    have hx' : lit x = ['_'] := hx
    have := Spells.isStart_head h hx'
    cases this
  | var name =>
    intro hx
    refine ha (congrArg Amount.var ?_)
    exact String.toList_injective hx

namespace HsvParam

variable {p : HsvParam}

theorem parse_absolute {raw : List Char} {a : Amount} (h : Amount.parseUnsigned? raw = some a)
    (hne : raw ≠ []) (hu : raw ≠ ['_']) (hatom : ∀ c ∈ raw, isAtom c = true) :
    parse raw = .ok (.absolute a) := by
  unfold parse
  split
  · exact absurd rfl hne
  · exact absurd rfl hu
  · exact absurd (hatom '+' List.mem_cons_self) (by decide)
  · exact absurd (hatom '-' List.mem_cons_self) (by decide)
  · rw [h]

/-- A written parameter is read as it is. -/
theorem parse_print (h : p.WellFormed lit) : parse (p.print lit) = .ok p := by
  cases p with
  | ignore => rfl
  | offset sign a =>
    obtain ⟨hs, ha⟩ := h
    have hp := Amount.parseUnsigned?_print ha
    rcases hs with rfl | rfl
    · show parseOffset .plus _ (a.print lit) = _
      rw [parseOffset, hp]
    · show parseOffset .minus _ (a.print lit) = _
      rw [parseOffset, hp]
  | absolute a =>
    obtain ⟨ha, hu⟩ := h
    exact parse_absolute (Amount.parseUnsigned?_print ha) (Amount.print_ne_nil ha)
      (Amount.print_ne_underscore ha hu) (Amount.isAtom_print ha)
  | foreign kind => exact h.elim

theorem isWord_print (h : p.WellFormed lit) : IsWord (p.print lit) := by
  cases p with
  | ignore => exact (by decide : IsWord ['_'])
  | offset sign a =>
    obtain ⟨hs, ha⟩ := h
    have hw := isWord_of_isAtom (Amount.print_ne_nil ha) (Amount.isAtom_print ha)
    have hsign : IsWord sign.text.toList := by
      rcases hs with rfl | rfl <;> decide
    refine ⟨fun hn => hw.ne_nil (List.append_eq_nil_iff.1 hn).2, fun c hc => ?_⟩
    rcases List.mem_append.1 hc with hc | hc
    · exact hsign.isBlank c hc
    · exact hw.isBlank c hc
  | absolute a => exact isWord_of_isAtom (Amount.print_ne_nil h.1) (Amount.isAtom_print h.1)
  | foreign kind => exact h.elim

theorem isArgument_print (h : p.WellFormed lit) : IsArgument (p.print lit) := by
  cases p with
  | ignore => exact ⟨'_', [], rfl, rfl, by decide⟩
  | offset sign a =>
    rcases h.1 with rfl | rfl
    · exact ⟨'+', _, rfl, rfl, by decide⟩
    · exact ⟨'-', _, rfl, rfl, by decide⟩
  | absolute a => exact isArgument_of_isAtom (Amount.print_ne_nil h.1) (Amount.isAtom_print h.1)
  | foreign kind => exact h.elim

theorem tidy_print (h : p.WellFormed lit) : Tidy (p.print lit) := by
  cases p with
  | ignore => exact (by decide : Tidy ['_'])
  | offset sign a =>
    refine Tidy.append ?_ (tidy_of_isAtom (Amount.isAtom_print h.2))
    rcases h.1 with rfl | rfl <;> decide
  | absolute a => exact tidy_of_isAtom (Amount.isAtom_print h.1)
  | foreign kind => exact h.elim

end HsvParam

/-! ## Parts of a line -/

theorem IsWord.trimmed {w : List Char} (h : IsWord w) : Trimmed w :=
  ⟨fun c hc => h.isBlank c (List.mem_of_head? hc),
    fun c hc => h.isBlank c (List.mem_of_getLast? hc)⟩

theorem IsWord.head_append {w : List Char} (h : IsWord w) (cs : List Char) :
    ∀ c ∈ (w ++ cs).head?, Text.isBlank c = false := by
  intro c hc
  cases w with
  | nil => exact absurd rfl h.ne_nil
  | cons b w =>
    cases hc
    exact h.isBlank _ List.mem_cons_self

/-- A word, a blank and more. -/
theorem IsWord.trimmed_append {w cs : List Char} (h : IsWord w) (hne : cs ≠ [])
    (hcs : Trimmed cs) : Trimmed (w ++ ' ' :: cs) := by
  obtain ⟨d, rest, rfl⟩ := List.exists_cons_of_ne_nil hne
  refine ⟨h.head_append _, fun c hc => ?_⟩
  rw [List.getLast?_append_of_ne_nil _ (List.cons_ne_nil _ _), List.getLast?_cons_cons] at hc
  exact hcs.last c hc

/-- A word at the start and a colon at the end. -/
theorem IsWord.trimmed_colon {w : List Char} (h : IsWord w) (cs : List Char) :
    Trimmed (w ++ (cs ++ [':'])) := by
  refine ⟨h.head_append _, fun c hc => ?_⟩
  rw [← List.append_assoc, List.getLast?_concat] at hc
  cases hc
  rfl

theorem Expr.parse_blank (cs : List Char) : Expr.parse (' ' :: cs) = Expr.parse cs := rfl

namespace Source.Line

variable {line : Line} {inLoop : Bool} {e : Expr}

theorem expression_of_parse {text : List Char} (h : Expr.parse text = .ok e) (column : Nat) :
    line.expression text column = .ok e := by
  rw [expression, h]

theorem expressionAtEnd_of_parse {text : List Char} (h : Expr.parse text = .ok e)
    (whole : List Char) : line.expressionAtEnd whole text = .ok e :=
  expression_of_parse h _

/-- The expression after the equals sign that follows a text without one. -/
theorem assigned_of_content (target : List Char) (he : e.Writable lit 0)
    (ht : '=' ∉ target) (hc : line.content = target ++ '=' :: ' ' :: e.print lit) :
    line.assigned = .ok e := by
  have hdrop : line.content.dropWhile (· != '=') = '=' :: ' ' :: e.print lit := by
    rw [hc, List.dropWhile_append_of_pos]
    · rfl
    · intro c hc
      rw [bne_iff_ne]
      rintro rfl
      exact ht hc
  rw [assigned, hdrop, List.drop_one, List.tail_cons]
  refine expressionAtEnd_of_parse ?_ _
  rw [Expr.parse_blank, Expr.parse_print he]

/-- A header is what stands before the colon at the end. -/
theorem beforeColon_of_content {cs : List Char} (hcs : Trimmed cs) (keyword : String)
    (hc : line.content = cs ++ [':']) : line.beforeColon keyword = .ok cs := by
  have hlen : line.content.length = cs.length + 1 := by
    rw [hc, List.length_append]
    rfl
  have hafter : (line.content.reverse.takeWhile (· != ':')).reverse = [] := by
    rw [hc, List.reverse_append]
    rfl
  have htake : line.content.take cs.length = cs := by
    rw [hc, List.take_left]
  have hne : (0 == cs.length + 1) = false := rfl
  simp only [beforeColon, hafter, hlen, List.length_nil, hne, Nat.sub_zero, Nat.add_sub_cancel,
    htake, trimRight_eq_self hcs.last, Bool.false_eq_true, if_false]
  rfl

/-- The words of a keyword and its argument, which are no assignment. -/
theorem words_of_content {kw rest : List Char} (hkw : IsWord kw) (harg : IsArgument rest)
    (hc : line.content = kw ++ ' ' :: rest) :
    Text.words line.content = kw :: Text.words rest ∧
      isAssignment (kw :: Text.words rest) = false := by
  refine ⟨by rw [hc, hkw.words_append], ?_⟩
  obtain ⟨w, ws, hw, hne⟩ := harg.exists_words
  rw [hw]
  cases ws with
  | nil => rfl
  | cons v ws => rw [isAssignment, beq_eq_false_iff_ne.2 hne, Bool.and_false]

/-! ## Statements -/

theorem movement_of_content {kw : List Char} (he : e.Writable lit 0)
    (hc : line.content = kw ++ ' ' :: e.print lit) (keyword : String) (instr : Expr → Instr) :
    line.movement keyword instr (kw :: Text.words (e.print lit)) = .ok (.simple (instr e)) := by
  have harg := Expr.isArgument_print he.1
  obtain ⟨w, ws, hw, -⟩ := harg.exists_words
  have hdrop : line.content.drop kw.length = ' ' :: e.print lit := by
    rw [hc, List.drop_left]
  rw [hw, movement, hdrop, trimLeft_blank, harg.trimLeft_eq,
    expressionAtEnd_of_parse (Expr.parse_print he)]
  rfl

theorem statement_move {way : Way} (hway : way = .forward ∨ way = .back) (he : e.Writable lit 0)
    (hc : line.content = way.text.toList ++ ' ' :: e.print lit) :
    line.statement inLoop = .ok (.simple (.move way e (some line.number))) := by
  have harg := Expr.isArgument_print he.1
  rcases hway with rfl | rfl
  · obtain ⟨hw, ha⟩ := words_of_content (by decide) harg hc
    have hk : Command.resolve (Name.canonical Way.forward.text.toList) = "forward" := by decide
    simp only [statement, hw, List.head?_cons, Option.getD_some, ha, hk]
    exact movement_of_content he hc _ _
  · obtain ⟨hw, ha⟩ := words_of_content (by decide) harg hc
    have hk : Command.resolve (Name.canonical Way.back.text.toList) = "back" := by decide
    simp only [statement, hw, List.head?_cons, Option.getD_some, ha, hk]
    exact movement_of_content he hc _ _

theorem statement_turn {side : Side} (hside : side = .left ∨ side = .right)
    (he : e.Writable lit 0) (hc : line.content = side.text.toList ++ ' ' :: e.print lit) :
    line.statement inLoop = .ok (.simple (.turn side e (some line.number))) := by
  have harg := Expr.isArgument_print he.1
  rcases hside with rfl | rfl
  · obtain ⟨hw, ha⟩ := words_of_content (by decide) harg hc
    have hk : Command.resolve (Name.canonical Side.left.text.toList) = "left" := by decide
    simp only [statement, hw, List.head?_cons, Option.getD_some, ha, hk]
    exact movement_of_content he hc _ _
  · obtain ⟨hw, ha⟩ := words_of_content (by decide) harg hc
    have hk : Command.resolve (Name.canonical Side.right.text.toList) = "right" := by decide
    simp only [statement, hw, List.head?_cons, Option.getD_some, ha, hk]
    exact movement_of_content he hc _ _

theorem statement_pen {state : PenState} (hstate : state = .up ∨ state = .down)
    (hc : line.content = "pen".toList ++ ' ' :: state.text.toList) :
    line.statement inLoop = .ok (.simple (.pen state (some line.number))) := by
  have hk : Command.resolve (Name.canonical "pen".toList) = "pen" := by decide
  have hstate' : IsArgument state.text.toList ∧ IsWord state.text.toList := by
    rcases hstate with rfl | rfl
    · exact ⟨⟨'u', _, rfl, rfl, by decide⟩, by decide⟩
    · exact ⟨⟨'d', _, rfl, rfl, by decide⟩, by decide⟩
  obtain ⟨hw, ha⟩ := words_of_content (by decide) hstate'.1 hc
  rw [hstate'.2.words_eq] at hw ha
  simp only [statement, hw, List.head?_cons, Option.getD_some, ha, hk]
  rcases hstate with rfl | rfl
  · rfl
  · rfl

theorem statement_hsv {h s v : HsvParam} (hh : h.WellFormed lit) (hs : s.WellFormed lit)
    (hv : v.WellFormed lit)
    (hc : line.content =
      "hsv".toList ++ ' ' :: (h.print lit ++ ' ' :: (s.print lit ++ ' ' :: v.print lit))) :
    line.statement inLoop = .ok (.simple (.hsv h s v (some line.number))) := by
  have hk : Command.resolve (Name.canonical "hsv".toList) = "hsv" := by decide
  obtain ⟨hw, ha⟩ := words_of_content (by decide) ((HsvParam.isArgument_print hh).append _) hc
  rw [(HsvParam.isWord_print hh).words_append, (HsvParam.isWord_print hs).words_append,
    (HsvParam.isWord_print hv).words_eq] at hw ha
  simp only [statement, hw, List.head?_cons, Option.getD_some, ha, hk]
  rw [if_neg (by decide), if_neg (by decide)]
  simp only [colorChange, HsvParam.parse_print hh, HsvParam.parse_print hs, HsvParam.parse_print hv]

theorem equals_not_mem {name : String} (h : IsName name) : '=' ∉ name.toList :=
  fun hm => ne_of_isAtom (isAtom_of_isName h _ hm) (by decide) rfl

/-- The words of an assignment. -/
theorem words_assignment {name : String} (hname : IsName name) (he : e.Writable lit 0) :
    ∃ w ws, Text.words (name.toList ++ ' ' :: '=' :: ' ' :: e.print lit) =
      name.toList :: ['='] :: w :: ws := by
  have hword := isWord_of_isAtom (toList_ne_nil_of_isName hname) (isAtom_of_isName hname)
  have heq : IsWord ['='] := by decide
  obtain ⟨w, ws, hw, -⟩ := (Expr.isArgument_print he.1).exists_words
  refine ⟨w, ws, ?_⟩
  rw [hword.words_append]
  exact congrArg _ ((heq.words_append (e.print lit)).trans (congrArg _ hw))

/-- A variable may have the name of a keyword, except for the one of declarations. -/
theorem statement_reassign {name : String} (hname : IsName name) (hvar : name ≠ "var")
    (he : e.Writable lit 0)
    (hc : line.content = name.toList ++ ' ' :: '=' :: ' ' :: e.print lit) :
    line.statement inLoop = .ok (.simple (.assign name e true (some line.number))) := by
  obtain ⟨w, ws, hw⟩ := words_assignment hname he
  rw [← hc] at hw
  have hkey : (Command.resolve name == "var") = false := by
    rw [beq_eq_false_iff_ne, Ne, resolve_eq_iff (by decide) (by decide)]
    exact hvar
  have ha : isAssignment (name.toList :: ['='] :: w :: ws) = true := by
    rw [isAssignment, hname.1]
    rfl
  have hassigned : line.assigned = .ok e := by
    refine assigned_of_content (name.toList ++ [' ']) he ?_ ?_
    · rw [List.mem_append]
      exact fun h => h.elim (equals_not_mem hname) (by decide)
    · rw [hc, List.append_assoc]
      rfl
  simp only [statement, hw, List.head?_cons, Option.getD_some, canonical_of_isName hname, hkey, ha]
  simp only [Bool.false_eq_true, if_false, if_true, assignment, hassigned,
    canonical_of_isName hname]
  rfl

theorem statement_declare {name : String} (hname : IsName name) (he : e.Writable lit 0)
    (hc : line.content = "var".toList ++ ' ' :: (name.toList ++ ' ' :: '=' :: ' ' :: e.print lit)) :
    line.statement inLoop = .ok (.simple (.assign name e false (some line.number))) := by
  obtain ⟨w, ws, hw⟩ := words_assignment hname he
  have hvar : IsWord "var".toList := by decide
  have hw' : Text.words line.content = "var".toList :: name.toList :: ['='] :: w :: ws := by
    rw [hc, hvar.words_append, hw]
  have hk : Command.resolve (Name.canonical "var".toList) = "var" := by decide
  have hassigned : line.assigned = .ok e := by
    refine assigned_of_content ("var ".toList ++ (name.toList ++ [' '])) he ?_ ?_
    · rw [List.mem_append, List.mem_append]
      exact fun h => h.elim (by decide) fun h => h.elim (equals_not_mem hname) (by decide)
    · rw [hc, List.append_assoc, List.append_assoc]
      rfl
  simp only [statement, hw', List.head?_cons, Option.getD_some, hk]
  rw [if_pos (by decide)]
  simp only [declaration, hname.1, hassigned, canonical_of_isName hname]
  rfl

theorem untilText?_parens (cs : List Char) : untilText? (parens cs) = none := by
  rw [parens]
  generalize cs ++ [')'] = rest
  rcases rest with _ | ⟨n, _ | ⟨t, _ | ⟨i, _ | ⟨l, rest⟩⟩⟩⟩ <;> rfl

theorem drop_keyword {rest : List Char} (h : IsArgument rest) (kw : List Char) :
    Text.trimLeft ((kw ++ ' ' :: rest).drop kw.length) = rest := by
  rw [List.drop_left, trimLeft_blank, h.trimLeft_eq]

/-- The header of a block that a keyword opens. -/
theorem beforeColon_keyword {kw rest : List Char} (hkw : IsWord kw) (harg : IsArgument rest)
    (ht : Trimmed rest) (keyword : String) (hc : line.content = kw ++ ' ' :: (rest ++ [':'])) :
    line.beforeColon keyword = .ok (kw ++ ' ' :: rest) := by
  refine beforeColon_of_content (hkw.trimmed_append harg.ne_nil ht) _ ?_
  rw [hc, List.append_assoc]
  rfl

theorem statement_count (he : e.Writable lit 1)
    (hc : line.content = "repeat".toList ++ ' ' :: (parens (e.print lit) ++ [':'])) :
    line.statement inLoop = .ok (.header (.count e)) := by
  have hkw : IsWord "repeat".toList := by decide
  have hk : Command.resolve (Name.canonical "repeat".toList) = "repeat" := by decide
  have harg := Expr.isArgument_parens (e.print lit)
  obtain ⟨hw, ha⟩ := words_of_content hkw (harg.append _) hc
  have hcolon := beforeColon_keyword hkw harg (Expr.trimmed_parens _) "repeat" hc
  have htext : Text.trimLeft (("repeat".toList ++ ' ' :: parens (e.print lit)).drop 6) =
    parens (e.print lit) := drop_keyword harg "repeat".toList
  have hexpr : ∀ whole, line.expressionAtEnd whole (parens (e.print lit)) = .ok e :=
    expressionAtEnd_of_parse (Expr.parse_parens he)
  simp only [statement, hw, List.head?_cons, Option.getD_some, ha, hk]
  rw [if_neg (by decide), if_neg (by decide), repetition, hcolon]
  simp only [bind, Except.bind, htext, untilText?_parens, hexpr]
  rfl

theorem statement_until (he : e.Writable lit 1)
    (hc : line.content =
      "repeat".toList ++ ' ' :: ("until".toList ++ ' ' :: (parens (e.print lit) ++ [':']))) :
    line.statement inLoop = .ok (.header (.until e)) := by
  have hkw : IsWord "repeat".toList := by decide
  have hk : Command.resolve (Name.canonical "repeat".toList) = "repeat" := by decide
  have harg : IsArgument ("until".toList ++ ' ' :: parens (e.print lit)) :=
    ⟨'u', _, rfl, rfl, by decide⟩
  have ht : Trimmed ("until".toList ++ ' ' :: parens (e.print lit)) :=
    IsWord.trimmed_append (by decide) (Expr.isArgument_parens _).ne_nil (Expr.trimmed_parens _)
  have hc' : line.content =
      "repeat".toList ++ ' ' :: (("until".toList ++ ' ' :: parens (e.print lit)) ++ [':']) := hc
  obtain ⟨hw, ha⟩ := words_of_content hkw (harg.append _) hc'
  have hcolon := beforeColon_keyword hkw harg ht "repeat" hc'
  have htext : Text.trimLeft
      (("repeat".toList ++ ' ' :: ("until".toList ++ ' ' :: parens (e.print lit))).drop 6) =
    "until".toList ++ ' ' :: parens (e.print lit) := drop_keyword harg "repeat".toList
  have huntil : untilText? ("until".toList ++ ' ' :: parens (e.print lit)) =
    some ('(' :: (e.print lit ++ [')'])) := rfl
  have hexpr : ∀ whole, line.expressionAtEnd whole ('(' :: (e.print lit ++ [')'])) = .ok e :=
    expressionAtEnd_of_parse (Expr.parse_parens he)
  simp only [statement, hw, List.head?_cons, Option.getD_some, ha, hk]
  rw [if_neg (by decide), if_neg (by decide), repetition, hcolon]
  simp only [bind, Except.bind, htext, huntil, hexpr]
  rfl

theorem statement_branch (he : e.Writable lit 0)
    (hc : line.content = "if".toList ++ ' ' :: (e.print lit ++ [':'])) :
    line.statement inLoop = .ok (.header (.branch e)) := by
  have hkw : IsWord "if".toList := by decide
  have hk : Command.resolve (Name.canonical "if".toList) = "if" := by decide
  have harg := Expr.isArgument_print he.1
  obtain ⟨hw, ha⟩ := words_of_content hkw (harg.append _) hc
  have hcolon := beforeColon_keyword hkw harg (Expr.trimmed_print he.1) "if expression" hc
  have htext : Text.trimLeft (("if".toList ++ ' ' :: e.print lit).drop 2) = e.print lit :=
    drop_keyword harg "if".toList
  have hexpr : ∀ whole, line.expressionAtEnd whole (e.print lit) = .ok e :=
    expressionAtEnd_of_parse (Expr.parse_print he)
  have hempty : (e.print lit).isEmpty = false := by
    obtain ⟨c, cs, hcs, -, -⟩ := harg
    rw [hcs]
    rfl
  simp only [statement, hw, List.head?_cons, Option.getD_some, ha, hk]
  rw [if_neg (by decide), if_neg (by decide), conditional, hcolon]
  simp only [bind, Except.bind, htext, hempty, hexpr]
  rfl

theorem statement_break (hc : line.content = "break".toList) :
    line.statement true = .ok (.simple (.breakLoop (some line.number))) := by
  have hw : Text.words line.content = ["break".toList] := by
    rw [hc]
    exact IsWord.words_eq (by decide)
  have hk : Command.resolve (Name.canonical "break".toList) = "break" := by decide
  simp only [statement, hw, List.head?_cons, Option.getD_some, hk]
  rfl

theorem statement_continue (hc : line.content = "continue".toList) :
    line.statement true = .ok (.simple (.continueLoop (some line.number))) := by
  have hw : Text.words line.content = ["continue".toList] := by
    rw [hc]
    exact IsWord.words_eq (by decide)
  have hk : Command.resolve (Name.canonical "continue".toList) = "continue" := by decide
  simp only [statement, hw, List.head?_cons, Option.getD_some, hk]
  rfl

/-! ## Statements of instructions -/

/-- What is read for the instruction `i` on line `n`. For one with a body this is a header, which
becomes the instruction with the body that is read below it. -/
def Stands (lit : Float → List Char) (inLoop : Bool) (i : Instr) (n : Nat) : Statement → Prop
  | .simple j => j = i.renumber n ∧ i.body = []
  | .header hd => hd.instr n (renumberAll (n + 1) i.body) = i.renumber n ∧
      WellFormedAll lit (inLoop || hd.isLoop) i.body

/-- **A written statement is read as its instruction.** -/
theorem statement_of_text {i : Instr} (h : i.WellFormed lit inLoop)
    (hc : line.content = i.text lit) :
    ∃ s, line.statement inLoop = .ok s ∧ Stands lit inLoop i line.number s := by
  cases i with
  | move way e l => exact ⟨_, statement_move h.1 h.2 hc, rfl, rfl⟩
  | turn side e l => exact ⟨_, statement_turn h.1 h.2 hc, rfl, rfl⟩
  | pen state l => exact ⟨_, statement_pen h hc, rfl, rfl⟩
  | hsv p q r l => exact ⟨_, statement_hsv h.1 h.2.1 h.2.2 hc, rfl, rfl⟩
  | assign name e reassign l =>
    obtain ⟨hname, hvar, he⟩ := h
    cases reassign with
    | true => exact ⟨_, statement_reassign hname (hvar rfl) he hc, rfl, rfl⟩
    | false => exact ⟨_, statement_declare hname he hc, rfl, rfl⟩
  | loop mode count until? body l =>
    obtain ⟨hmode, hbody⟩ := h
    rcases hmode with ⟨rfl, rfl, e, rfl, he⟩ | ⟨rfl, rfl, e, rfl, he⟩
    · refine ⟨_, statement_count he hc, rfl, ?_⟩
      show WellFormedAll lit (inLoop || true) body
      rw [Bool.or_true]
      exact hbody
    · refine ⟨_, statement_until he hc, rfl, ?_⟩
      show WellFormedAll lit (inLoop || true) body
      rw [Bool.or_true]
      exact hbody
  | branch test body l =>
    refine ⟨_, statement_branch h.1 hc, rfl, ?_⟩
    show WellFormedAll lit (inLoop || false) body
    rw [Bool.or_false]
    exact h.2
  | breakLoop l =>
    obtain rfl : inLoop = true := h
    exact ⟨_, statement_break hc, rfl, rfl⟩
  | continueLoop l =>
    obtain rfl : inLoop = true := h
    exact ⟨_, statement_continue hc, rfl, rfl⟩
  | foreign kind => exact h.elim

end Source.Line

namespace Instr

variable {i : Instr} {inLoop : Bool}

theorem isWord_name {name : String} (h : IsName name) : IsWord name.toList :=
  isWord_of_isAtom (toList_ne_nil_of_isName h) (isAtom_of_isName h)

theorem trimmed_assigned {name : String} {e : Expr} (hname : IsName name) (he : e.WellFormed lit) :
    Trimmed (name.toList ++ ' ' :: '=' :: ' ' :: e.print lit) := by
  have heq : Trimmed (['='] ++ ' ' :: e.print lit) :=
    IsWord.trimmed_append (by decide) (Expr.isArgument_print he).ne_nil (Expr.trimmed_print he)
  exact (isWord_name hname).trimmed_append nofun heq

theorem trimmed_text (h : i.WellFormed lit inLoop) : Trimmed (i.text lit) := by
  cases i with
  | move way e l =>
    have hw : IsWord way.text.toList := by rcases h.1 with rfl | rfl <;> decide
    exact hw.trimmed_append (Expr.isArgument_print h.2.1).ne_nil (Expr.trimmed_print h.2.1)
  | turn side e l =>
    have hw : IsWord side.text.toList := by rcases h.1 with rfl | rfl <;> decide
    exact hw.trimmed_append (Expr.isArgument_print h.2.1).ne_nil (Expr.trimmed_print h.2.1)
  | pen state l =>
    have hw : IsWord state.text.toList := by rcases h with rfl | rfl <;> decide
    exact IsWord.trimmed_append (by decide) hw.ne_nil hw.trimmed
  | hsv p q r l =>
    obtain ⟨hp, hq, hr⟩ := h
    have hp' := HsvParam.isWord_print hp
    have hq' := HsvParam.isWord_print hq
    have hr' := HsvParam.isWord_print hr
    have hqr := hq'.trimmed_append hr'.ne_nil hr'.trimmed
    have hpqr := hp'.trimmed_append (List.append_ne_nil_of_left_ne_nil hq'.ne_nil _) hqr
    exact IsWord.trimmed_append (by decide) (List.append_ne_nil_of_left_ne_nil hp'.ne_nil _) hpqr
  | assign name e reassign l =>
    obtain ⟨hname, -, he, -⟩ := h
    cases reassign with
    | true => exact trimmed_assigned hname he
    | false =>
      exact IsWord.trimmed_append (by decide)
        (List.append_ne_nil_of_left_ne_nil (isWord_name hname).ne_nil _) (trimmed_assigned hname he)
  | loop mode count until? body l =>
    obtain ⟨hmode, -⟩ := h
    rcases hmode with ⟨rfl, rfl, e, rfl, he⟩ | ⟨rfl, rfl, e, rfl, he⟩
    · exact IsWord.trimmed_colon (by decide) (' ' :: printWrapped lit (some e))
    · exact IsWord.trimmed_colon (by decide) (" until ".toList ++ printWrapped lit (some e))
  | branch test body l => exact IsWord.trimmed_colon (by decide) (' ' :: test.print lit)
  | breakLoop l => exact (by decide : IsWord "break".toList).trimmed
  | continueLoop l => exact (by decide : IsWord "continue".toList).trimmed
  | foreign kind => exact h.elim

theorem text_ne_nil (h : i.WellFormed lit inLoop) : i.text lit ≠ [] := by
  have blank {cs ds : List Char} : cs ++ ' ' :: ds ≠ [] :=
    List.append_ne_nil_of_right_ne_nil cs (List.cons_ne_nil _ ds)
  cases i with
  | assign name e reassign l =>
    cases reassign with
    | true => exact blank
    | false => exact blank
  | loop mode count until? body l =>
    rcases h.1 with ⟨rfl, -⟩ | ⟨rfl, -⟩
    · exact blank
    · exact blank
  | breakLoop l => exact (by decide : "break".toList ≠ [])
  | continueLoop l => exact (by decide : "continue".toList ≠ [])
  | foreign kind => exact h.elim
  | _ => exact blank

theorem tidy_text (h : i.WellFormed lit inLoop) : Tidy (i.text lit) := by
  have blank {cs : List Char} (hcs : Tidy cs) : Tidy (' ' :: cs) := Tidy.cons (by decide) hcs
  have assigned {name : String} {e : Expr} (hname : IsName name) (he : e.WellFormed lit) :
      Tidy (name.toList ++ ' ' :: '=' :: ' ' :: e.print lit) :=
    (tidy_of_isAtom (isAtom_of_isName hname)).append
      (blank (Tidy.cons (by decide) (blank (Expr.tidy_print he))))
  cases i with
  | move way e l =>
    have hw : Tidy way.text.toList := by rcases h.1 with rfl | rfl <;> decide
    exact hw.append (blank (Expr.tidy_print h.2.1))
  | turn side e l =>
    have hw : Tidy side.text.toList := by rcases h.1 with rfl | rfl <;> decide
    exact hw.append (blank (Expr.tidy_print h.2.1))
  | pen state l =>
    have hw : Tidy state.text.toList := by rcases h with rfl | rfl <;> decide
    exact Tidy.append (by decide) (blank hw)
  | hsv p q r l =>
    obtain ⟨hp, hq, hr⟩ := h
    have hqr := (HsvParam.tidy_print hq).append (blank (HsvParam.tidy_print hr))
    exact Tidy.append (by decide) (blank ((HsvParam.tidy_print hp).append (blank hqr)))
  | assign name e reassign l =>
    obtain ⟨hname, -, he, -⟩ := h
    cases reassign with
    | true => exact assigned hname he
    | false => exact Tidy.append (by decide) (blank (assigned hname he))
  | loop mode count until? body l =>
    obtain ⟨hmode, -⟩ := h
    rcases hmode with ⟨rfl, rfl, e, rfl, he⟩ | ⟨rfl, rfl, e, rfl, he⟩
    · have hcolon := (Expr.tidy_parens (Expr.tidy_print he.1)).append (by decide : Tidy [':'])
      exact Tidy.append (by decide) (blank hcolon)
    · have hcolon := (Expr.tidy_parens (Expr.tidy_print he.1)).append (by decide : Tidy [':'])
      have huntil : Tidy ("until".toList ++ ' ' :: (parens (e.print lit) ++ [':'])) :=
        Tidy.append (by decide) (blank hcolon)
      exact Tidy.append (by decide) (blank huntil)
  | branch test body l =>
    have hcolon := (Expr.tidy_print h.1.1).append (by decide : Tidy [':'])
    exact Tidy.append (by decide) (blank hcolon)
  | breakLoop l => exact (by decide : Tidy "break".toList)
  | continueLoop l => exact (by decide : Tidy "continue".toList)
  | foreign kind => exact h.elim

end Instr

end PixelTurtle
