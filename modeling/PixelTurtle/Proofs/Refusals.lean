import PixelTurtle.Proofs.Columns

/-!
# Where complaints about lines come from

A complaint about an expression, a name or a pen state has its column from the part of the line that
is to blame. The argument of a statement is found by where it stands in the content. A word is found
by searching for it from the start of the content, and that may find it in the word before.

* `letters_of_canonical` says that a keyword without a `k` is spelled with letters of ASCII only.
* `positionOf_second` says where the second word of a text is first found: at its place, or within
  the first word.
* `ArgumentPlace` tells where the argument of a statement stands.
* `Line.Refuses` says where the complaints about expressions and words come from, and
  `Line.refuses_statement` that a line is refused in this way, part by part.
* `word_complaint_column` is the theorem about names and pen states.
-/

namespace PixelTurtle

/-! ## Keywords -/

namespace Text

/-- Beyond ASCII, only the dotted capital I and the Kelvin sign have a small form within ASCII, the
former with a second character. -/
theorem caseRuns_shift :
    ∀ r ∈ caseRuns, 0x80 ≤ r.first + r.shift ∨
      r.first = 0x212A ∧ r.last = 0x212A ∧ r.first + r.shift = 'k'.toNat := by
  decide +kernel

theorem not_isLower_ofNat {n : Nat} (hn : 0x80 ≤ n) : (Char.ofNat n).isLower = false := by
  rw [Bool.eq_false_iff]
  intro h
  rw [isLower_iff] at h
  by_cases hv : n.isValidChar
  · rw [Char.ofNat, dif_pos hv] at h
    have : (Char.ofNatAux n hv).toNat = n := rfl
    omega
  · rw [Char.ofNat, dif_neg hv] at h
    exact absurd h (by decide)

/-- A character beyond ASCII does not become a letter of ASCII other than `k`. -/
theorem exists_lowerChar_not_isLower {c : Char} (hc : ¬ c.toNat < 0x80) :
    ∃ d ∈ lowerChar c, d.isLower = false ∨ d = 'k' := by
  unfold lowerChar
  dsimp only
  rw [if_neg hc]
  split_ifs with hdotted
  · exact ⟨Char.ofNat 0x307, by simp, .inl (by decide)⟩
  · split
    · rename_i r hr
      have hcovers := List.find?_some hr
      simp only [CaseRun.covers, Bool.and_eq_true, decide_eq_true_eq] at hcovers
      refine ⟨_, List.mem_singleton_self _, ?_⟩
      rcases caseRuns_shift r (List.mem_of_find?_eq_some hr) with hshift | ⟨hfirst, hlast, hk⟩
      · exact .inl (not_isLower_ofNat (by omega))
      · have hkelvin : (c.toNat + r.shift).toNat = 'k'.toNat := by omega
        rw [hkelvin]
        exact .inr rfl
    · refine ⟨c, List.mem_singleton_self _, .inl ?_⟩
      rw [Bool.eq_false_iff]
      intro h
      rw [isLower_iff] at h
      omega

theorem lowerSigma_not_isLower (afterLetter : Bool) (rest : List Char) :
    (lowerSigma afterLetter rest).isLower = false := by
  unfold lowerSigma
  dsimp only
  split_ifs <;> decide

/-- A text whose small form consists of letters of ASCII other than `k` consists of as many letters
of ASCII. -/
theorem letters_of_lowerFrom {afterLetter : Bool} {cs : List Char}
    (h : ∀ d ∈ lowerFrom afterLetter cs, d.isLower = true ∧ d ≠ 'k') :
    (∀ c ∈ cs, c.isAlpha = true) ∧ (lowerFrom afterLetter cs).length = cs.length := by
  induction cs generalizing afterLetter with
  | nil => exact ⟨List.forall_mem_nil _, rfl⟩
  | cons c cs ih =>
    rw [lowerFrom] at h ⊢
    split_ifs at h ⊢ with hascii hsigma
    · obtain ⟨hc, hrest⟩ := List.forall_mem_cons.1 h
      obtain ⟨hletters, hlength⟩ := ih hrest
      refine ⟨List.forall_mem_cons.2 ⟨?_, hletters⟩, congrArg (· + 1) hlength⟩
      show (c.isUpper || c.isLower) = true
      rw [Bool.or_eq_true, isUpper_iff, isLower_iff]
      by_cases hupper : c.isUpper = true
      · exact .inl (isUpper_iff.1 hupper)
      · have hsame : c.toLower = c := dif_neg fun hd => hupper (isUpper_iff.2 hd)
        rw [hsame] at hc
        exact .inr (isLower_iff.1 hc.1)
    · have hsmall := (h _ List.mem_cons_self).1
      rw [lowerSigma_not_isLower] at hsmall
      cases hsmall
    · obtain ⟨d, hd, hbad⟩ := exists_lowerChar_not_isLower hascii
      obtain ⟨hlower, hk⟩ := h d (List.mem_append_left _ hd)
      rcases hbad with hbad | hbad
      · rw [hbad] at hlower
        cases hlower
      · exact absurd hbad hk

end Text

/-- A keyword without a `k` is spelled with letters of ASCII only, whatever their case. -/
theorem letters_of_canonical {w : List Char} {keyword : String} (h : Name.canonical w = keyword)
    (hkeyword : (keyword.toList.all fun d => d.isLower && d != 'k') = true) :
    (∀ c ∈ w, c.isAlpha = true) ∧ w.length = keyword.toList.length := by
  subst h
  rw [Name.canonical, String.toList_ofList] at hkeyword ⊢
  simp only [List.all_eq_true, Bool.and_eq_true, bne_iff_ne] at hkeyword
  obtain ⟨hletters, hlength⟩ := Text.letters_of_lowerFrom hkeyword
  exact ⟨hletters, hlength.symm⟩

/-- Letters are a name. -/
theorem isIdentifier_of_letters {w : List Char} (hne : w ≠ []) (h : ∀ c ∈ w, c.isAlpha = true) :
    Name.isIdentifier w = true := by
  obtain ⟨c, w, rfl⟩ := List.exists_cons_of_ne_nil hne
  have hstart {d : Char} (hd : d ∈ c :: w) : Name.isStart d = true := by
    rw [Name.isStart, h d hd]
    rfl
  rw [Name.isIdentifier, hstart List.mem_cons_self, Bool.true_and, List.all_eq_true]
  exact fun d hd => isPart_of_isStart (hstart (List.mem_cons_of_mem _ hd))

namespace Source

/-! ## Where a word is found -/

section Occurrences

variable {needle cs first gap second rest a b : List Char}

/-- A text is first found where it stands, and not after any other place where it stands. -/
theorem exists_first_place (hne : needle ≠ []) (a b : List Char) :
    ∃ a' b', a ++ (needle ++ b) = a' ++ (needle ++ b') ∧ a'.length ≤ a.length ∧
      positionOf needle (a ++ (needle ++ b)) = a'.length := by
  obtain ⟨n, needle, rfl⟩ := List.exists_cons_of_ne_nil hne
  induction a with
  | nil =>
    refine ⟨[], b, rfl, Nat.le_refl _, ?_⟩
    have hprefix : (n :: needle).isPrefixOf (n :: needle ++ b) = true :=
      List.isPrefixOf_iff_prefix.2 (List.prefix_append _ _)
    exact if_pos hprefix
  | cons d a ih =>
    obtain ⟨a', b', hsplit, hle, hposition⟩ := ih
    rw [List.cons_append, positionOf]
    split_ifs with hprefix
    · obtain ⟨b'', hb''⟩ := List.isPrefixOf_iff_prefix.1 hprefix
      exact ⟨[], b'', hb''.symm, Nat.zero_le _, rfl⟩
    · exact ⟨d :: a', b', congrArg (d :: ·) hsplit, Nat.succ_le_succ hle,
        congrArg (· + 1) hposition⟩

/-- Where the second word of a text stands, up to its own place: there, or within the first word. No
word reaches across a gap. -/
theorem word_occurs (hgap : IsGap gap) (hsecond : IsWord second)
    (h : first ++ (gap ++ (second ++ rest)) = a ++ (second ++ b))
    (ha : a.length ≤ first.length + gap.length) :
    a = first ++ gap ∨ ∃ x, first = a ++ (second ++ x) := by
  rcases List.append_eq_append_iff.1 h with ⟨m, rfl, hm⟩ | ⟨m, hfirst, hm⟩
  · rw [List.length_append] at ha
    rcases List.append_eq_append_iff.1 hm with ⟨m', rfl, -⟩ | ⟨m', hm', hrest⟩
    · rw [List.length_append] at ha
      obtain rfl : m' = [] := List.eq_nil_of_length_eq_zero (by omega)
      exact .inl (by rw [List.append_nil])
    · cases m' with
      | nil => exact .inl (by rw [hm', List.append_nil])
      | cons c m' =>
        have hblank := hgap.isBlank c (hm' ▸ List.mem_append_right _ List.mem_cons_self)
        cases hblank.symm.trans (hsecond.isBlank_head b (by rw [hrest]; rfl))
  · rcases List.append_eq_append_iff.1 hm with ⟨m', rfl, -⟩ | ⟨m', hm', hgap'⟩
    · exact .inr ⟨m', hfirst⟩
    · cases m' with
      | nil => exact .inr ⟨[], by rw [hfirst, hm', List.append_nil, List.append_nil]⟩
      | cons c m' =>
        have hblank := hgap.isBlank_head (second ++ rest) (c := c) (by rw [hgap']; rfl)
        have hword := hsecond.isBlank c (hm' ▸ List.mem_append_right _ List.mem_cons_self)
        cases hblank.symm.trans hword

/-- **The second word of a text is first found within the first word**, if that contains it, and
otherwise at its own place. -/
theorem positionOf_second (first rest : List Char) (hgap : IsGap gap) (hsecond : IsWord second) :
    (∃ a x, first = a ++ (second ++ x) ∧
      positionOf second (first ++ (gap ++ (second ++ rest))) = a.length) ∨
    ¬ second <:+: first ∧
      positionOf second (first ++ (gap ++ (second ++ rest))) = first.length + gap.length := by
  obtain ⟨a, b, hsplit, hle, hposition⟩ :=
    exists_first_place hsecond.ne_nil (first ++ gap) rest
  rw [List.append_assoc] at hsplit hposition
  rw [List.length_append] at hle
  rcases word_occurs hgap hsecond hsplit hle with rfl | ⟨x, rfl⟩
  · refine .inr ⟨?_, by rw [hposition, List.length_append]⟩
    -- An earlier place in the first word would have been found.
    rintro ⟨c, d, rfl⟩
    obtain ⟨a', b', -, hle', hposition'⟩ :=
      exists_first_place hsecond.ne_nil c (d ++ (gap ++ (second ++ rest)))
    have hgap' := List.length_pos_of_ne_nil hgap.ne_nil
    simp only [List.append_assoc, List.length_append] at hposition hposition'
    omega
  · exact .inl ⟨a, x, rfl, hposition⟩

end Occurrences

/-! ## Where an expression stands -/

/-- The argument of a statement stands between two parts of the content of the line. -/
inductive ArgumentPlace : List Char → List Char → Prop
  /-- What is assigned comes after the first equals sign. -/
  | assigned {target blanks : List Char} : '=' ∉ target →
    (∀ c ∈ blanks, Text.isBlank c = true) → ArgumentPlace (target ++ '=' :: blanks) []
  /-- The argument of a movement comes after its keyword. -/
  | moved {word gap : List Char} : Command.resolve (Name.canonical word) ∈ Command.movements →
    IsGap gap → ArgumentPlace (word ++ gap) []
  /-- The count of a loop and the test of a branch come between the keyword and the colon. -/
  | opened {word gap blanks : List Char} : Name.canonical word ∈ ["repeat", "if"] → IsGap gap →
    (∀ c ∈ blanks, Text.isBlank c = true) → ArgumentPlace (word ++ gap) (blanks ++ [':'])
  /-- The condition of a loop comes between `until` and the colon. -/
  | condition {word gap till gap' blanks : List Char} : Name.canonical word = "repeat" →
    IsGap gap → untilText? till = some [] → IsGap gap' →
    (∀ c ∈ blanks, Text.isBlank c = true) →
    ArgumentPlace (word ++ (gap ++ (till ++ gap'))) (blanks ++ [':'])

/-- Where the complaint comes from, if it is about an expression, a name or a pen state. -/
def Line.Refuses (line : Line) : Error → Prop
  | .malformed (.expression p) n column => n = line.number ∧ ∃ before text after k,
    line.content = before ++ (text ++ after) ∧ ArgumentPlace before after ∧ Trimmed text ∧
      text ≠ [] ∧ Expr.parse text = .error (.malformed p k) ∧
      column = line.offset + before.length + k
  | .malformed (.varName name) n column => n = line.number ∧ ∃ first ws,
    Text.words line.content = first :: name :: ws ∧ Name.canonical first = "var" ∧
      Name.isIdentifier name = false ∧
      column = line.offset + positionOf name line.content + 1
  | .malformed .penState n column => n = line.number ∧ ∃ first state,
    Text.words line.content = [first, state] ∧ Name.canonical first = "pen" ∧
      Name.canonical state ∉ ["up", "down"] ∧
      column = line.offset + positionOf state line.content + 1
  | _ => True

namespace Line

section Refuses

variable {line : Line} {before blanks text after first header : List Char}
  {ws : List (List Char)} {keyword : String}

theorem refuses_expression (before after : List Char)
    (hcontent : line.content = before ++ (blanks ++ (text ++ after)))
    (hblanks : ∀ c ∈ blanks, Text.isBlank c = true)
    (hplace : ArgumentPlace (before ++ blanks) after) (htrimmed : Trimmed text) (hne : text ≠ []) :
    Fails line.Refuses (line.expression (blanks ++ text) before.length) := by
  have hleft : Text.trimLeft (blanks ++ text) = text := by
    rw [Text.trimLeft, List.dropWhile_append_of_pos hblanks]
    exact trimLeft_eq_self htrimmed.head
  have hparse : Expr.parse (blanks ++ text) = Expr.parse text := by
    rw [Expr.parse, Expr.parse, trim_eq_self htrimmed, Text.trim, hleft,
      trimRight_eq_self htrimmed.last]
  unfold expression
  rw [hparse]
  split
  · exact fails_ok _
  · rename_i p k hk
    have hpositive := (Expr.within_of_parse hk).1
    refine fails_of ⟨rfl, before ++ blanks, text, after, k, ?_, hplace, htrimmed, hne, hk, ?_⟩
    · rw [hcontent, List.append_assoc]
    · rw [hleft, List.length_append, List.length_append]
      omega
  · exact fails_of trivial
  · exact fails_of trivial

theorem refuses_expressionAtEnd {whole : List Char} (before after : List Char)
    (hwhole : whole = before ++ text)
    (hcontent : line.content = whole ++ after) (hplace : ArgumentPlace before after)
    (htrimmed : Trimmed text) (hne : text ≠ []) :
    Fails line.Refuses (line.expressionAtEnd whole text) := by
  have hlength : whole.length - text.length = before.length := by
    rw [hwhole, List.length_append, Nat.add_sub_cancel]
  rw [expressionAtEnd, hlength, ← List.nil_append text]
  refine refuses_expression before after ?_ (List.forall_mem_nil _) ?_ htrimmed hne
  · rw [hcontent, hwhole, List.nil_append, List.append_assoc]
  · rwa [List.append_nil]

theorem refuses_beforeColon (keyword : String) :
    Fails line.Refuses (line.beforeColon keyword) := by
  unfold beforeColon
  dsimp only
  split_ifs
  · exact fails_of trivial
  · exact fails_ok _
  · exact fails_of trivial

/-- The end of a text that does not end with a blank is trimmed once its leading blanks are off. -/
theorem trimmed_trimLeft (before : List Char)
    (h : ∀ c ∈ (before ++ text).getLast?, Text.isBlank c = false) :
    Trimmed (Text.trimLeft text) := by
  refine ⟨fun c hc => Text.head_of_dropWhile hc, fun c hc => h c ?_⟩
  have hsplit : text.takeWhile Text.isBlank ++ Text.trimLeft text = text :=
    List.takeWhile_append_dropWhile
  rw [← hsplit, List.getLast?_append, List.getLast?_append, Option.mem_def.1 hc]
  rfl

/-- What is blank is empty, at the end of a text that does not end with a blank. -/
theorem eq_nil_of_trim_eq_nil (before : List Char)
    (h : ∀ c ∈ (before ++ after).getLast?, Text.isBlank c = false)
    (hblank : Text.trim after = []) : after = [] := by
  obtain ⟨front, back, hparts, hfront, hback⟩ := exists_trim after
  rw [hblank, List.nil_append] at hparts
  by_contra hne
  have hlast := List.getLast?_eq_some_getLast hne
  have hmem : after.getLast hne ∈ front ++ back := hparts ▸ List.getLast_mem hne
  have hnot := h (after.getLast hne) (by
    rw [List.getLast?_append, hlast]
    rfl)
  have his := (List.mem_append.1 hmem).elim (hfront _) (hback _)
  cases his.symm.trans hnot

theorem exists_equals {cs w : List Char} {targets : List (List Char)}
    (h : Text.words cs = targets ++ ['='] :: w :: ws) (htargets : ∀ v ∈ targets, '=' ∉ v) :
    ∃ target rest, cs = target ++ '=' :: rest ∧ '=' ∉ target ∧ Text.words rest = w :: ws := by
  have hblank {blanks : List Char} (hblanks : ∀ c ∈ blanks, Text.isBlank c = true) :
      '=' ∉ blanks := by
    intro hmem
    cases hblanks _ hmem
  induction targets generalizing cs with
  | nil =>
    obtain ⟨blanks, rest, rfl, hblanks, -, -, hrest⟩ := Text.exists_of_words_cons h
    exact ⟨blanks, rest, rfl, hblank hblanks, hrest⟩
  | cons v targets ih =>
    obtain ⟨hv, htargets⟩ := List.forall_mem_cons.1 htargets
    obtain ⟨blanks, rest, rfl, hblanks, -, -, hrest⟩ := Text.exists_of_words_cons h
    obtain ⟨target, rest', rfl, htarget, hrest'⟩ := ih hrest htargets
    refine ⟨blanks ++ (v ++ target), rest', by simp only [List.append_assoc], ?_, hrest'⟩
    rw [List.mem_append, List.mem_append, not_or, not_or]
    exact ⟨hblank hblanks, hv, htarget⟩

theorem trimLeft_ne_nil {cs w : List Char} (h : Text.words cs = w :: ws) :
    Text.trimLeft cs ≠ [] := by
  obtain ⟨blanks, rest, rfl, hblanks, hw, -, -⟩ := Text.exists_of_words_cons h
  obtain ⟨c, w, rfl⟩ := List.exists_cons_of_ne_nil hw.ne_nil
  rw [Text.trimLeft, List.dropWhile_append_of_pos hblanks, List.cons_append,
    List.dropWhile_cons_of_neg (by rw [hw.isBlank c List.mem_cons_self]; exact Bool.false_ne_true)]
  exact List.cons_ne_nil _ _

variable (htrimmed : Trimmed line.content)
include htrimmed

theorem refuses_assigned {w : List Char} (targets : List (List Char))
    (hwords : Text.words line.content = targets ++ ['='] :: w :: ws)
    (htargets : ∀ v ∈ targets, '=' ∉ v) : Fails line.Refuses line.assigned := by
  obtain ⟨target, rest, hcontent, htarget, hrest⟩ := exists_equals hwords htargets
  have hsplit : rest.takeWhile Text.isBlank ++ Text.trimLeft rest = rest :=
    List.takeWhile_append_dropWhile
  have hdrop : (line.content.dropWhile (· != '=')).drop 1 = rest := by
    rw [hcontent, dropWhile_append_stops]
    · rfl
    · intro c hc
      rw [bne_iff_ne]
      rintro rfl
      exact htarget hc
    · rintro c ⟨⟩
      rfl
  have hlength : line.content.length - rest.length = (target ++ ['=']).length := by
    rw [hcontent]
    simp only [List.length_append, List.length_cons, List.length_nil]
    omega
  unfold assigned expressionAtEnd
  rw [hdrop, hlength, ← hsplit]
  refine refuses_expression _ [] ?_ (fun c hc => List.mem_takeWhile_imp hc) ?_
    (trimmed_trimLeft (target ++ ['=']) ?_) (trimLeft_ne_nil hrest)
  · rw [List.append_nil, hsplit, hcontent, List.append_assoc, List.singleton_append]
  · rw [List.append_assoc, List.singleton_append]
    exact .assigned htarget fun c hc => List.mem_takeWhile_imp hc
  · have hlast := htrimmed.last
    rwa [hcontent, ← List.singleton_append, ← List.append_assoc] at hlast

theorem refuses_movement {instr : Expr → Instr} (hwords : Text.words line.content = ws)
    (hkeyword : Command.resolve (Name.canonical (ws.head?.getD [])) ∈ Command.movements) :
    Fails line.Refuses (line.movement keyword instr ws) := by
  match ws, hwords with
  | [], _ | [_], _ => exact fails_of trivial
  | w :: second :: _, hwords =>
    obtain ⟨gap, rest, hcontent, -, hgap, hsecond, -, -⟩ :=
      Text.exists_two_words htrimmed.head hwords
    have htext : Text.trimLeft (line.content.drop w.length) = second ++ rest := by
      rw [hcontent, List.drop_left, Text.trimLeft, List.dropWhile_append_of_pos hgap.isBlank]
      exact trimLeft_eq_self fun c hc => hsecond.isBlank_head rest hc
    have hexpression : Fails line.Refuses
        (line.expressionAtEnd line.content (second ++ rest)) := by
      refine refuses_expressionAtEnd (w ++ gap) [] ?_
        (List.append_nil _).symm (.moved hkeyword hgap) ⟨?_, ?_⟩ ?_
      · rw [hcontent, List.append_assoc]
      · exact fun c hc => hsecond.isBlank_head rest hc
      · intro c hc
        refine htrimmed.last c ?_
        rw [hcontent, ← List.append_assoc, List.getLast?_append, Option.mem_def.1 hc]
        rfl
      · exact List.append_ne_nil_of_left_ne_nil hsecond.ne_nil _
    simp only [movement, htext]
    exact fails_bind hexpression fun _ _ => fails_ok _

theorem exists_of_beforeColon (h : line.beforeColon keyword = .ok header) :
    ∃ blanks, line.content = header ++ (blanks ++ [':']) ∧
      (∀ c ∈ blanks, Text.isBlank c = true) ∧ ∀ c ∈ header.getLast?, Text.isBlank c = false := by
  let after := (line.content.reverse.takeWhile (· != ':')).reverse
  have hsplit : (line.content.reverse.dropWhile (· != ':')).reverse ++ after = line.content := by
    rw [← List.reverse_append, List.takeWhile_append_dropWhile, List.reverse_reverse]
  unfold beforeColon at h
  dsimp only at h
  split_ifs at h with hnone hblank
  · cases h
  · cases h
    rw [beq_iff_eq] at hnone
    obtain ⟨c, rest, hrest⟩ : ∃ c rest, line.content.reverse.dropWhile (· != ':') = c :: rest := by
      refine List.exists_cons_of_ne_nil fun hnil => hnone ?_
      rw [hnil, List.reverse_nil, List.nil_append] at hsplit
      exact congrArg List.length hsplit
    obtain rfl : c = ':' := by simpa using Text.dropWhile_head hrest
    rw [hrest, List.reverse_cons, List.append_assoc] at hsplit
    have hafter : after = [] := by
      refine eq_nil_of_trim_eq_nil (rest.reverse ++ [':']) (fun c hc => ?_)
        (List.isEmpty_iff.1 hblank)
      exact htrimmed.last c (by rwa [← hsplit, ← List.append_assoc])
    have hcolon : line.content.length - after.length - 1 = rest.reverse.length := by
      rw [← hsplit, hafter]
      simp
    have htake : line.content.take (line.content.length - after.length - 1) = rest.reverse := by
      rw [hcolon, ← hsplit, List.take_left]
    obtain ⟨blanks, hblanks, hisBlank⟩ := exists_trimRight rest.reverse
    refine ⟨blanks, ?_, hisBlank, fun c hc => ?_⟩
    · show _ = Text.trimRight (line.content.take (line.content.length - after.length - 1)) ++ _
      rw [htake, ← List.append_assoc, ← hblanks, ← hsplit, hafter]
      rfl
    · rw [Text.trimRight, List.getLast?_reverse] at hc
      exact Text.head_of_dropWhile hc
  · cases h

/-- The argument of a header, which follows a keyword of `n` letters. -/
theorem exists_header_parts {n : Nat} (hwords : Text.words line.content = first :: ws)
    (hfirst : first.length = n) (h : line.beforeColon keyword = .ok header)
    (hne : Text.trimLeft (header.drop n) ≠ []) :
    ∃ gap blanks, header = first ++ (gap ++ Text.trimLeft (header.drop n)) ∧
      line.content = header ++ (blanks ++ [':']) ∧ IsGap gap ∧
      (∀ c ∈ blanks, Text.isBlank c = true) ∧ Trimmed (Text.trimLeft (header.drop n)) := by
  obtain ⟨blanks, hcontent, hblanks, hlast⟩ := exists_of_beforeColon htrimmed h
  obtain ⟨rest, hrest, -, hhead, -⟩ := Text.exists_first_word htrimmed.head hwords
  have hmore : header.drop n ≠ [] := by
    intro hnil
    rw [hnil] at hne
    exact hne rfl
  have hlong : n < header.length := by
    by_contra hshort
    exact hmore (List.drop_eq_nil_of_le (Nat.le_of_not_lt hshort))
  have htake : header.take n = first := by
    have heq := congrArg (List.take n) (hcontent.symm.trans hrest)
    rwa [List.take_append_of_le_length hlong.le, List.take_append_of_le_length hfirst.ge,
      List.take_of_length_le hfirst.le] at heq
  have hheader : header = first ++ header.drop n := by
    rw [← htake, List.take_append_drop]
  have hgap : (header.drop n).takeWhile Text.isBlank ++ Text.trimLeft (header.drop n) =
      header.drop n :=
    List.takeWhile_append_dropWhile
  refine ⟨(header.drop n).takeWhile Text.isBlank, blanks, ?_, hcontent,
    ⟨?_, fun c hc => List.mem_takeWhile_imp hc⟩, hblanks,
    trimmed_trimLeft first (by rwa [← hheader])⟩
  · rw [hgap]
    exact hheader
  · -- A blank follows the keyword.
    obtain ⟨c, more, hcmore⟩ := List.exists_cons_of_ne_nil hmore
    have hrest' : rest = header.drop n ++ (blanks ++ [':']) := by
      have heq := hcontent.symm.trans hrest
      rw [hheader, List.append_assoc] at heq
      exact (List.append_cancel_left heq).symm
    have hc : Text.isBlank c = true := hhead c (by rw [hrest', hcmore]; rfl)
    rw [hcmore, List.takeWhile_cons_of_pos hc]
    exact List.cons_ne_nil _ _

omit htrimmed in
/-- The condition after `until`. -/
theorem exists_until {condition : List Char} (h : untilText? text = some condition)
    (hne : condition ≠ []) :
    ∃ till gap, text = till ++ (gap ++ condition) ∧ untilText? till = some [] ∧ IsGap gap ∧
      ∀ c ∈ condition.head?, Text.isBlank c = false := by
  unfold untilText? at h
  split at h
  · rename_i u n t i l rest
    dsimp only at h
    split_ifs at h with huntil
    split at h
    · cases h
      exact absurd rfl hne
    · rename_i c rest
      split_ifs at h with hc
      cases h
      refine ⟨[u, n, t, i, l], (c :: rest).takeWhile Text.isBlank, ?_, ?_,
        ⟨?_, fun d hd => List.mem_takeWhile_imp hd⟩, fun d hd => Text.head_of_dropWhile hd⟩
      · rw [Text.trimLeft, List.takeWhile_append_dropWhile]
        rfl
      · unfold untilText?
        dsimp only
        rw [if_pos huntil]
      · rw [List.takeWhile_cons_of_pos hc]
        exact List.cons_ne_nil _ _
  · cases h

theorem refuses_conditional (hwords : Text.words line.content = first :: ws)
    (hkeyword : Name.canonical first = "if") : Fails line.Refuses line.conditional := by
  refine fails_bind (refuses_beforeColon _) fun header hheader => ?_
  dsimp only
  split_ifs with hempty
  · exact fails_of trivial
  · rw [List.isEmpty_iff] at hempty
    have hlength := (letters_of_canonical hkeyword (by decide)).2
    obtain ⟨gap, blanks, hparts, hcontent, hgap, hblanks, htext⟩ :=
      exists_header_parts htrimmed hwords hlength hheader hempty
    rw [← List.append_assoc] at hparts
    refine fails_bind ?_ fun _ _ => fails_ok _
    exact refuses_expressionAtEnd _ _ hparts hcontent
      (.opened (by simp [hkeyword]) hgap hblanks) htext hempty

theorem refuses_repetition (hwords : Text.words line.content = first :: ws)
    (hkeyword : Name.canonical first = "repeat") : Fails line.Refuses line.repetition := by
  refine fails_bind (refuses_beforeColon _) fun header hheader => ?_
  have hlength : first.length = 6 := (letters_of_canonical hkeyword (by decide)).2
  have hparts (hne : Text.trimLeft (header.drop 6) ≠ []) :=
    exists_header_parts htrimmed hwords hlength hheader hne
  dsimp only
  split
  · exact fails_of trivial
  · rename_i condition hne huntil
    have hcondition : condition ≠ [] := hne
    obtain ⟨till, gap', htext, htill, hgap', hhead⟩ := exists_until huntil hcondition
    obtain ⟨gap, blanks, hheader', hcontent, hgap, hblanks, htrimmed'⟩ := hparts (by
      intro hnil
      rw [hnil] at huntil
      cases huntil)
    have hlast := htrimmed'.last
    rw [htext] at hheader' hlast
    refine fails_bind ?_ fun _ _ => fails_ok _
    refine refuses_expressionAtEnd (first ++ (gap ++ (till ++ gap'))) _ ?_ hcontent
      (.condition hkeyword hgap htill hgap' hblanks) ⟨hhead, fun c hc => hlast c ?_⟩ hcondition
    · simp only [hheader', List.append_assoc]
    · rw [← List.append_assoc, List.getLast?_append, Option.mem_def.1 hc]
      rfl
  · split_ifs with hempty
    · exact fails_of trivial
    · rw [List.isEmpty_iff] at hempty
      obtain ⟨gap, blanks, hheader', hcontent, hgap, hblanks, htext⟩ := hparts hempty
      rw [← List.append_assoc] at hheader'
      refine fails_bind ?_ fun _ _ => fails_ok _
      exact refuses_expressionAtEnd _ _ hheader' hcontent
        (.opened (by simp [hkeyword]) hgap hblanks) htext hempty

omit htrimmed in
theorem equals_not_mem_of_isIdentifier {name : List Char} (h : Name.isIdentifier name = true) :
    '=' ∉ name := by
  intro hmem
  cases isPart_of_mem h hmem

theorem refuses_declaration (hwords : Text.words line.content = first :: ws)
    (hkeyword : Name.canonical first = "var") :
    Fails line.Refuses (line.declaration (first :: ws)) := by
  have hletters := (letters_of_canonical hkeyword (by decide)).1
  unfold declaration
  split
  · rename_i _ name eq w ws' hws
    cases hws
    split_ifs with heq hname
    · exact fails_of trivial
    · exact fails_of ⟨rfl, first, _, hwords, hkeyword, by simpa using hname, rfl⟩
    · have heq' : eq = ['='] := by simpa using heq
      have hname' : Name.isIdentifier name = true := by simpa using hname
      subst heq'
      refine fails_bind (refuses_assigned htrimmed [first, name] hwords ?_)
        fun _ _ => fails_ok _
      rintro v hv hmem
      simp only [List.mem_cons, List.not_mem_nil, or_false] at hv
      rcases hv with rfl | rfl
      · cases hletters _ hmem
      · exact equals_not_mem_of_isIdentifier hname' hmem
  · exact fails_of trivial

theorem refuses_assignment {name : List Char} (hwords : Text.words line.content = name :: ws)
    (h : isAssignment (name :: ws) = true) : Fails line.Refuses (line.assignment name) := by
  unfold isAssignment at h
  split at h
  · rename_i _ eq w ws' hws
    cases hws
    rw [Bool.and_eq_true, beq_iff_eq] at h
    obtain ⟨hname, rfl⟩ := h
    refine fails_bind (refuses_assigned htrimmed [name] hwords ?_)
      fun _ _ => fails_ok _
    intro v hv
    rw [List.mem_singleton.1 hv]
    exact equals_not_mem_of_isIdentifier hname
  · cases h

omit htrimmed in
theorem refuses_penChange (hwords : Text.words line.content = first :: ws)
    (hkeyword : Name.canonical first = "pen") :
    Fails line.Refuses (line.penChange (first :: ws)) := by
  unfold penChange
  split
  · rename_i _ state hws
    cases hws
    dsimp only
    split_ifs with hup hdown
    · exact fails_ok _
    · exact fails_ok _
    · refine fails_of ⟨rfl, first, state, hwords, hkeyword, ?_, rfl⟩
      rw [beq_iff_eq] at hup hdown
      simp [hup, hdown]
  · exact fails_of trivial

omit htrimmed in
theorem refuses_jump (inLoop : Bool) (i : Instr) (ws : List (List Char)) :
    Fails line.Refuses (line.jump inLoop keyword i ws) := by
  unfold jump
  split
  · split_ifs
    · exact fails_ok _
    · exact fails_of trivial
  · exact fails_of trivial

omit htrimmed in
theorem refuses_colorChange (ws : List (List Char)) :
    Fails line.Refuses (line.colorChange ws) := by
  unfold colorChange
  split
  · split
    · exact fails_ok _
    · exact fails_of trivial
    · exact fails_of trivial
    · exact fails_of trivial
  · exact fails_of trivial

/-- **Where the complaints about a line come from.** -/
theorem refuses_statement (inLoop : Bool) : Fails line.Refuses (line.statement inLoop) := by
  unfold statement
  dsimp only
  cases hwords : Text.words line.content with
  | nil => exact fails_of trivial
  | cons first ws =>
    have hself {keyword : String} (hk : keyword ∉ Command.movements)
        (hr : Command.resolve keyword = keyword)
        (h : Command.resolve (Name.canonical first) = keyword) : Name.canonical first = keyword :=
      (resolve_eq_iff hk hr).1 h
    rw [List.head?_cons, Option.getD_some]
    split_ifs with hvar hassign
    · exact refuses_declaration htrimmed hwords (hself (by decide) (by decide) (beq_iff_eq.1 hvar))
    · exact refuses_assignment htrimmed hwords hassign
    · split
      · rename_i h
        exact refuses_repetition htrimmed hwords (hself (by decide) (by decide) h)
      · rename_i h
        exact refuses_conditional htrimmed hwords (hself (by decide) (by decide) h)
      · exact refuses_jump _ _ _
      · exact refuses_jump _ _ _
      · rename_i h
        exact refuses_movement htrimmed hwords (by simp [h, Command.movements])
      · rename_i h
        exact refuses_movement htrimmed hwords (by simp [h, Command.movements])
      · rename_i h
        exact refuses_movement htrimmed hwords (by simp [h, Command.movements])
      · rename_i h
        exact refuses_movement htrimmed hwords (by simp [h, Command.movements])
      · rename_i h
        exact refuses_penChange hwords (hself (by decide) (by decide) h)
      · exact refuses_colorChange _
      · exact fails_of trivial

end Refuses

end Line

theorem refuses_parse (source : String) :
    Fails (fun e => ∃ l ∈ statementLines source, l.Refuses e) (parse source) :=
  fails_block (fun _ hl => Line.refuses_statement (trimmed_content hl)) false

/-! ## Columns of words -/

section SecondWord

variable {source : String} {l : Line} {first gap second rest : List Char} {ws : List (List Char)}
  {column : Nat}

/-- The first two words of a line, as they stand in it. -/
theorem exists_two_words_of_mem (hl : l ∈ statementLines source)
    (hwords : Text.words l.content = first :: second :: ws) :
    ∃ gap rest tail, l.raw = l.lead ++ (first ++ (gap ++ (second ++ (rest ++ tail)))) ∧
      l.content = first ++ (gap ++ (second ++ rest)) ∧ IsWord first ∧ IsGap gap ∧
      IsWord second ∧ ∀ d ∈ rest.head?, Text.isBlank d = true := by
  obtain ⟨tail, htail⟩ := exists_parts hl
  obtain ⟨gap, rest, hcontent, hfirst, hgap, hsecond, hrest, -⟩ :=
    Text.exists_two_words (trimmed_content hl).head hwords
  refine ⟨gap, rest, tail, ?_, hcontent, hfirst, hgap, hsecond, hrest⟩
  rw [htail, hcontent]
  simp only [List.append_assoc]

/-- In a plain line, the column of the second word is that of an occurrence in the first word, if
there is one, and else that of the second word. -/
theorem column_of_second (hl : l ∈ statementLines source) (hplain : l.Plain)
    (hcontent : l.content = first ++ (gap ++ (second ++ rest))) (hgap : IsGap gap)
    (hsecond : IsWord second) (hcolumn : column = l.offset + positionOf second l.content + 1) :
    (∃ a b, first = a ++ (second ++ b) ∧ column = (l.lead ++ a).length + 1) ∨
      ¬ second <:+: first ∧ column = (l.lead ++ (first ++ gap)).length + 1 := by
  rw [hcontent, hplain.offset_eq hl] at hcolumn
  rcases positionOf_second first rest hgap hsecond with ⟨a, b, hfirst, hposition⟩ |
    ⟨hnot, hposition⟩
  · exact .inl ⟨a, b, hfirst, by rw [hcolumn, hposition, List.length_append]⟩
  · exact .inr ⟨hnot, by rw [hcolumn, hposition, List.length_append, List.length_append]⟩

end SecondWord

/-- **A complaint about a word points at it**, unless it is a pen state that occurs in the keyword.
Names of variables and pen states are second words of their lines. In a plain line, the column of a
complaint about one of them is the place of the second word, with one exception: a pen state that
occurs within the first word is reported where it occurs there. -/
theorem word_complaint_column {source : String} {c : Complaint} {n column : Nat}
    (h : parse source = .error (.malformed c n column))
    (hc : c = .penState ∨ ∃ name, c = .varName name) :
    ∃ l ∈ statementLines source, l.number = n ∧ ∃ first gap second rest tail,
      l.raw = l.lead ++ (first ++ (gap ++ (second ++ (rest ++ tail)))) ∧
      l.content = first ++ (gap ++ (second ++ rest)) ∧
      IsWord first ∧ IsGap gap ∧ IsWord second ∧ (∀ d ∈ rest.head?, Text.isBlank d = true) ∧
      (c = .varName second ∧ Name.canonical first = "var" ∨
        c = .penState ∧ Name.canonical first = "pen") ∧
      (l.Plain →
        (column = (l.lead ++ (first ++ gap)).length + 1 ↔
          ¬ (c = .penState ∧ second <:+: first)) ∧
        (c = .penState → second <:+: first →
          ∃ a b, first = a ++ (second ++ b) ∧ column = (l.lead ++ a).length + 1)) := by
  obtain ⟨l, hl, hrefused⟩ := refuses_parse source _ h
  rcases hc with rfl | ⟨name, rfl⟩
  · obtain ⟨rfl, first, state, hwords, hfirst, -, hcolumn⟩ := hrefused
    obtain ⟨gap, rest, tail, hraw, hcontent, hword, hgap, hstate, hrest⟩ :=
      exists_two_words_of_mem hl hwords
    refine ⟨l, hl, rfl, first, gap, state, rest, tail, hraw, hcontent, hword, hgap, hstate, hrest,
      .inr ⟨rfl, hfirst⟩, fun hplain => ?_⟩
    rcases column_of_second hl hplain hcontent hgap hstate hcolumn with
      ⟨a, b, rfl, hplace⟩ | ⟨hnot, hplace⟩
    · have hinfix : state <:+: a ++ (state ++ b) := ⟨a, b, List.append_assoc ..⟩
      refine ⟨iff_of_false ?_ fun hnot => hnot ⟨rfl, hinfix⟩, fun _ _ => ⟨a, b, rfl, hplace⟩⟩
      have hpositive := List.length_pos_of_ne_nil hgap.ne_nil
      simp only [hplace, List.length_append]
      omega
    · exact ⟨iff_of_true hplace fun hinfix => hnot hinfix.2, fun _ hinfix => absurd hinfix hnot⟩
  · obtain ⟨rfl, first, ws, hwords, hfirst, hname, hcolumn⟩ := hrefused
    obtain ⟨gap, rest, tail, hraw, hcontent, hword, hgap, hsecond, hrest⟩ :=
      exists_two_words_of_mem hl hwords
    refine ⟨l, hl, rfl, first, gap, name, rest, tail, hraw, hcontent, hword, hgap, hsecond, hrest,
      .inl ⟨rfl, hfirst⟩, fun hplain => ⟨iff_of_true ?_ (by rintro ⟨⟨⟩, -⟩), nofun⟩⟩
    rcases column_of_second hl hplain hcontent hgap hsecond hcolumn with
      ⟨a, b, rfl, -⟩ | ⟨-, hplace⟩
    · -- Every part of the keyword is a name, but this word is none.
      have hletters := (letters_of_canonical hfirst (by decide)).1
      have hidentifier := isIdentifier_of_letters hsecond.ne_nil fun d hd =>
        hletters d (List.mem_append_right _ (List.mem_append_left _ hd))
      cases hname.symm.trans hidentifier
    · exact hplace

/-- The pen state `p` is found in the keyword. -/
theorem penState_found_in_keyword :
    parse "pen p" = .error (.malformed .penState 1 1) ∧
      ∀ l ∈ statementLines "pen p", l.Plain ∧ Text.words l.content = ["pen".toList, "p".toList] ∧
        l.raw = "pen ".toList ++ "p".toList ∧ 1 ≠ "pen ".length + 1 := by
  have hfails : (parse "pen p").map (fun _ => ()) = .error (.malformed .penState 1 1) := by
    decide +kernel
  have hlines : statementLines "pen p" = [.ofRaw 1 "pen p".toList] := by decide +kernel
  refine ⟨error_of_map hfails, fun l hl => ?_⟩
  rw [hlines, List.mem_singleton] at hl
  subst hl
  decide +kernel

/-- A name that occurs again later in the line. -/
theorem varName_column :
    parse "\tvar 1x = 1x # 1x" = .error (.malformed (.varName "1x".toList) 1 6) ∧
      ∃ l ∈ statementLines "\tvar 1x = 1x # 1x", ∃ first gap,
        6 = (l.lead ++ (first ++ gap)).length + 1 := by
  have hfails : (parse "\tvar 1x = 1x # 1x").map (fun _ => ()) =
      .error (.malformed (.varName "1x".toList) 1 6) := by
    decide +kernel
  have hlines : ∀ l ∈ statementLines "\tvar 1x = 1x # 1x", l.Plain := by decide +kernel
  have hparse := error_of_map hfails
  obtain ⟨l, hl, -, first, gap, second, rest, tail, -, -, -, -, -, -, -, hcolumn⟩ :=
    word_complaint_column hparse (.inr ⟨_, rfl⟩)
  exact ⟨hparse, l, hl, first, gap, (hcolumn (hlines l hl)).1.2 (by rintro ⟨⟨⟩, -⟩)⟩

end Source

end PixelTurtle
