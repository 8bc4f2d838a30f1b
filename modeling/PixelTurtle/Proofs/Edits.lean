import Mathlib.Logic.Relation
import Mathlib.Order.Monotone.Basic
import PixelTurtle.Proofs.Placement
import PixelTurtle.Proofs.Spelling

/-!
# Programs that are laid out differently

A program does not depend on how its text is laid out, as long as its statements stay and their
indentations compare as before. So empty lines, comments and other ends of lines change nothing, nor
do indentations of other widths.

* `LaidOutAlike` says that two texts have the same statements, indented alike, and `ReadAlike` that
  the same comes of reading them.
* `measures_eq` says that the statements of a text are those of its parts.
* `IsRemark.measure?_append` says that a comment at the end of a line is no part of its statement.
* `Edit` are the changes of a text that keep its statements, by `Edit.remeasured`.
* `parse_layout_free` is the theorem about texts that are laid out alike, and about edits.
-/

namespace PixelTurtle.Source

/-! ## Texts that are laid out alike -/

/-- The lines with a statement of two texts, in pairs from the top. -/
def corresponding (source source' : String) : List (Line × Line) :=
  (statementLines source).zip (statementLines source')

/-- The texts have the same statements, and one statement is indented more deeply than another in
both texts or in none. -/
structure LaidOutAlike (source source' : String) : Prop where
  contents : (statementLines source).map Line.content = (statementLines source').map Line.content
  indents : ∀ p ∈ corresponding source source', ∀ q ∈ corresponding source source',
    p.1.indent < q.1.indent ↔ p.2.indent < q.2.indent

/-- Both texts are the same program, if the lines are not numbered; or the same complaint is made
about corresponding lines, at the same place of their contents; or the same numeral has no value. -/
def ReadAlike (source source' : String) : Prop :=
  match parse source, parse source' with
  | .ok program, .ok program' => unnumberedAll program = unnumberedAll program'
  | .error (.malformed c n column), .error (.malformed c' n' column') =>
    c = c' ∧ ∃ p ∈ corresponding source source', n = p.1.number ∧ n' = p.2.number ∧
      ∃ k, column = p.1.offset + k + 1 ∧ column' = p.2.offset + k + 1
  | .error (.numeral digits), .error (.numeral digits') => digits = digits'
  | _, _ => False

section

variable {source source' : String}

theorem LaidOutAlike.length_eq (h : LaidOutAlike source source') :
    (statementLines source).length = (statementLines source').length := by
  have := congrArg List.length h.contents
  rwa [List.length_map, List.length_map] at this

theorem LaidOutAlike.matched (h : LaidOutAlike source source') :
    Matched (corresponding source source') where
  content p hp := by
    refine ⟨?_, content_ne_nil (List.of_mem_zip hp).1⟩
    obtain ⟨i, hi, rfl⟩ := List.mem_iff_getElem.1 hp
    have heq := List.getElem_of_eq h.contents (i := i) (by simp [corresponding] at hi ⊢; omega)
    rw [List.getElem_map, List.getElem_map] at heq
    simp only [corresponding, List.getElem_zip, heq]
  indent := h.indents

/-- **Texts that are laid out alike are read alike.** -/
theorem LaidOutAlike.readAlike (h : LaidOutAlike source source') : ReadAlike source source' := by
  have hread := alike_block h.matched false
  have hlines : (corresponding source source').map Prod.fst = statementLines source :=
    List.map_fst_zip (Nat.le_of_eq h.length_eq)
  have hlines' : (corresponding source source').map Prod.snd = statementLines source' :=
    List.map_snd_zip (Nat.le_of_eq h.length_eq.symm)
  rw [hlines, hlines'] at hread
  change Alike _ _ (parse source) (parse source') at hread
  unfold ReadAlike
  generalize parse source = x at hread
  generalize parse source' = x' at hread
  cases hread with
  | ok h => exact h
  | complaint c hl _ => exact ⟨rfl, _, hl, rfl, rfl, _, rfl, rfl⟩
  | numeral => rfl

end

/-! ## Lines and statements -/

section

variable {cs current raw raw' above below tail : List Char} {c : Char}

/-- The indentation and the content of a line with a statement. -/
def Line.measure? (raw : List Char) : Option (Nat × List Char) :=
  let line := Line.ofRaw 0 raw
  if line.isStatement then some (line.indent, line.content) else none

theorem measure?_of_content_eq_nil (h : (Line.ofRaw 0 raw).content = []) :
    Line.measure? raw = none := by
  simp [Line.measure?, Line.isStatement, h]

theorem measure?_of_content_ne_nil (h : (Line.ofRaw 0 raw).content ≠ []) :
    Line.measure? raw = some ((Line.ofRaw 0 raw).indent, (Line.ofRaw 0 raw).content) := by
  simp [Line.measure?, Line.isStatement, h]

/-- The indentation of a line without a statement does not matter. -/
theorem measure?_congr (hcontent : (Line.ofRaw 0 raw').content = (Line.ofRaw 0 raw).content)
    (hindent : (Line.ofRaw 0 raw).content ≠ [] →
      (Line.ofRaw 0 raw').indent = (Line.ofRaw 0 raw).indent) :
    Line.measure? raw' = Line.measure? raw := by
  by_cases h : (Line.ofRaw 0 raw).content = []
  · rw [measure?_of_content_eq_nil h, measure?_of_content_eq_nil (hcontent.trans h)]
  · rw [measure?_of_content_ne_nil h, measure?_of_content_ne_nil (hcontent ▸ h), hcontent,
      hindent h]

/-- The indentations and contents of the statements of a text. -/
def measures (source : String) : List (Nat × List Char) :=
  (statementLines source).map fun l => (l.indent, l.content)

theorem measures_eq_filterMap (source : String) :
    measures source = (splitLines source.toList).filterMap Line.measure? := by
  -- The numbers of the lines do not matter, so their count may start anywhere.
  have hcount (n : Nat) (raws : List (List Char)) :
      ((raws.mapIdx fun i raw => Line.ofRaw (i + n) raw).filter Line.isStatement).map
        (fun l => (l.indent, l.content)) = raws.filterMap Line.measure? := by
    induction raws generalizing n with
    | nil => rfl
    | cons raw raws ih =>
      have hrest := ih (n + 1)
      have hraw : Line.measure? raw = if (Line.ofRaw n raw).isStatement then
        some ((Line.ofRaw n raw).indent, (Line.ofRaw n raw).content) else none := rfl
      simp only [List.mapIdx_cons, Nat.zero_add, Nat.add_assoc, Nat.add_comm 1 n] at hrest ⊢
      rw [List.filter_cons, List.filterMap_cons, hraw]
      split_ifs
      · rw [List.map_cons, hrest]
      · exact hrest
  exact hcount 1 _

/-! ## Parts of a text -/

/-- The characters that end a line. -/
def isBreak (c : Char) : Bool :=
  c == '\n' || c == '\r'

/-- The characters are those of one line. -/
def Unbroken (cs : List Char) : Prop :=
  ∀ c ∈ cs, isBreak c = false

-- The test runs along the text. The instances for bounded quantifiers may run through all characters.
instance : DecidablePred Unbroken := fun cs =>
  decidable_of_iff (cs.all (!isBreak ·)) (by simp [Unbroken])

/-- The indentations and contents of the statements in a part of a text. Every break ends a line
here: between the two of a line end there is an empty one, which holds no statement. -/
def measuresOf (cs : List Char) : List (Nat × List Char) :=
  (cs.splitOnP isBreak).filterMap Line.measure?

theorem measuresOf_line (h : Unbroken cs) :
    measuresOf cs = (Line.measure? cs).toList := by
  rw [measuresOf, List.splitOnP_eq_singleton h, List.filterMap_cons]
  cases Line.measure? cs <;> rfl

theorem measuresOf_append_cons (above below : List Char) (hc : isBreak c = true) :
    measuresOf (above ++ c :: below) = measuresOf above ++ measuresOf below := by
  rw [measuresOf, List.splitOnP_append_cons _ _ hc, List.filterMap_append, measuresOf, measuresOf]

theorem filterMap_cons_line (h : Unbroken raw) (raws : List (List Char)) :
    (raw :: raws).filterMap Line.measure? = measuresOf raw ++ raws.filterMap Line.measure? := by
  rw [measuresOf_line h, List.filterMap_cons]
  cases Line.measure? raw <;> rfl

theorem filterMap_splitLinesFrom (hcurrent : Unbroken current) :
    (splitLinesFrom current cs).filterMap Line.measure? = measuresOf (current.reverse ++ cs) := by
  have hline : Unbroken current.reverse := fun c hc => hcurrent c (List.mem_reverse.1 hc)
  have hnil : Unbroken [] := List.forall_mem_nil _
  fun_induction splitLinesFrom current cs with
  | case1 current => simp [filterMap_cons_line hline]
  | case2 current cs ih =>
    have hempty : measuresOf ('\n' :: cs) = measuresOf cs :=
      measuresOf_append_cons [] cs (by decide)
    rw [filterMap_cons_line hline, ih hnil hnil, measuresOf_append_cons _ _ (by decide), hempty]
    rfl
  | case3 current c cs _ hc ih =>
    rw [filterMap_cons_line hline, ih hnil hnil, measuresOf_append_cons _ _ hc]
    rfl
  | case4 current c cs _ hc ih =>
    have hcons : Unbroken (c :: current) := by
      intro d hd
      rcases List.mem_cons.1 hd with rfl | hd
      · exact Bool.eq_false_iff.2 hc
      · exact hcurrent d hd
    rw [ih hcons fun d hd => hcons d (List.mem_reverse.1 hd)]
    simp

/-- **The statements of a text are those of its parts.** -/
theorem measures_eq (source : String) : measures source = measuresOf source.toList := by
  rw [measures_eq_filterMap, splitLines, filterMap_splitLinesFrom (List.forall_mem_nil _)]
  rfl

/-- What comes after `above` starts a line. -/
def StartsLine (above : List Char) : Prop :=
  ∀ c ∈ above.getLast?, isBreak c = true

/-- What comes before `below` ends a line. -/
def EndsLine (below : List Char) : Prop :=
  ∀ c ∈ below.head?, isBreak c = true

instance : DecidablePred StartsLine := fun above =>
  decidable_of_iff (above.getLast?.all isBreak) (Option.all_eq_true _ _)

instance : DecidablePred EndsLine := fun below =>
  decidable_of_iff (below.head?.all isBreak) (Option.all_eq_true _ _)

theorem measuresOf_append_of_startsLine (h : StartsLine above) (below : List Char) :
    measuresOf (above ++ below) = measuresOf above ++ measuresOf below := by
  rcases List.eq_nil_or_concat above with rfl | ⟨above, c, rfl⟩
  · rfl
  · have hc : isBreak c = true := h c (by simp)
    have hnil : measuresOf [] = [] := rfl
    simp only [List.concat_eq_append, List.append_assoc, List.singleton_append]
    rw [measuresOf_append_cons _ _ hc, measuresOf_append_cons _ _ hc, hnil, List.append_nil]

theorem measuresOf_append_of_endsLine (h : EndsLine below) (above : List Char) :
    measuresOf (above ++ below) = measuresOf above ++ measuresOf below := by
  cases below with
  | nil =>
    rw [List.append_nil]
    exact (List.append_nil _).symm
  | cons c below =>
    have hc : isBreak c = true := h c rfl
    have hempty : measuresOf (c :: below) = measuresOf below := measuresOf_append_cons [] below hc
    rw [measuresOf_append_cons _ _ hc, hempty]

/-- What is added to the end of a line without changing its statement does not change those of a
text. -/
theorem measuresOf_append_tail (htail : Unbroken tail)
    (hline : ∀ raw, Line.measure? (raw ++ tail) = Line.measure? raw)
    (hraw : Unbroken raw) :
    measuresOf (raw ++ cs ++ tail) = measuresOf (raw ++ cs) := by
  induction cs generalizing raw with
  | nil =>
    rw [List.append_nil, measuresOf_line hraw, ← hline raw, measuresOf_line]
    intro c hc
    exact (List.mem_append.1 hc).elim (hraw c) (htail c)
  | cons c cs ih =>
    by_cases hc : isBreak c = true
    · have hrest := @ih [] (List.forall_mem_nil _)
      rw [List.append_assoc, List.cons_append, measuresOf_append_cons _ _ hc,
        measuresOf_append_cons _ _ hc]
      exact congrArg (measuresOf raw ++ ·) hrest
    · have hline' : Unbroken (raw ++ [c]) := by
        intro d hd
        rcases List.mem_append.1 hd with hd | hd
        · exact hraw d hd
        · rw [List.mem_singleton.1 hd]
          exact Bool.eq_false_iff.2 hc
      simpa using ih hline'

/-! ## Comments -/

theorem trim_append_blanks (cs : List Char) (h : ∀ c ∈ tail, Text.isBlank c = true) :
    Text.trim (cs ++ tail) = Text.trim cs := by
  have htail : tail.dropWhile Text.isBlank = [] := List.dropWhile_eq_nil_iff.2 h
  have hright (xs : List Char) : Text.trimRight (xs ++ tail) = Text.trimRight xs := by
    rw [Text.trimRight, List.reverse_append, List.dropWhile_append_of_pos]
    · rfl
    · exact fun c hc => h c (List.mem_reverse.1 hc)
  rw [Text.trim, Text.trimLeft, List.dropWhile_append, htail]
  split_ifs with hempty
  · rw [List.isEmpty_iff] at hempty
    rw [Text.trim, Text.trimLeft, hempty]
  · exact hright _

theorem ne_of_isBlank {c d : Char} (hc : Text.isBlank c = true) (hd : Text.isBlank d = false) :
    c ≠ d := by
  rintro rfl
  rw [hd] at hc
  cases hc

theorem stripComment_blank {c : Char} (hc : Text.isBlank c = true) (cs : List Char) :
    stripComment (c :: cs) = c :: stripComment cs :=
  stripComment_cons (ne_of_isBlank hc (by decide)) fun h =>
    absurd h (ne_of_isBlank hc (by decide))

theorem isBlank_of_isIndent {c : Char} (hc : isIndent c = true) : Text.isBlank c = true := by
  have hchar : c = ' ' ∨ c = '\t' := by simpa [isIndent] using hc
  rcases hchar with rfl | rfl <;> decide

/-- The indentation of a line is blank, so its content is what the trimmed text has before the
comment. -/
theorem content_ofRaw (n : Nat) (raw : List Char) :
    (Line.ofRaw n raw).content = Text.trim (stripComment raw) := by
  show Text.trim (stripComment (raw.dropWhile isIndent)) = _
  induction raw with
  | nil => rfl
  | cons c raw ih =>
    by_cases hc : isIndent c = true
    · have hblank := isBlank_of_isIndent hc
      rw [List.dropWhile_cons_of_pos hc, ih, stripComment_blank hblank, Text.trim, Text.trim,
        Text.trimLeft, Text.trimLeft, List.dropWhile_cons_of_pos hblank]
    · rw [List.dropWhile_cons_of_neg hc]

/-- A comment mark. -/
def marks : List (List Char) :=
  [['#'], ['/', '/']]

/-- A comment after a blank, which keeps it apart from an operator. -/
structure IsRemark (tail : List Char) : Prop where
  unbroken : Unbroken tail
  shape : ∃ blanks ≠ [], ∃ mark ∈ marks, ∃ text, tail = blanks ++ mark ++ text ∧
    ∀ c ∈ blanks, Text.isBlank c = true

theorem stripComment_mark {mark : List Char} (h : mark ∈ marks) (text : List Char) :
    stripComment (mark ++ text) = [] := by
  simp only [marks, List.mem_cons, List.not_mem_nil, or_false] at h
  rcases h with rfl | rfl <;> rfl

theorem stripComment_blanks {blanks : List Char} (h : ∀ c ∈ blanks, Text.isBlank c = true)
    (cs : List Char) : stripComment (blanks ++ cs) = blanks ++ stripComment cs := by
  induction blanks with
  | nil => rfl
  | cons c blanks ih =>
    rw [List.cons_append, stripComment_blank (h c List.mem_cons_self),
      ih fun d hd => h d (List.mem_cons_of_mem _ hd), List.cons_append]

/-- What starts with a blank is no part of a comment mark before it. -/
theorem stripComment_append_blank (raw cs : List Char) (hc : Text.isBlank c = true) :
    stripComment (raw ++ c :: cs) = stripComment raw ∨
      stripComment (raw ++ c :: cs) = stripComment raw ++ stripComment (c :: cs) := by
  fun_induction stripComment raw with
  | case1 => exact .inr rfl
  | case2 => exact .inl rfl
  | case3 d raw _ hd =>
    rw [beq_iff_eq] at hd
    subst hd
    exact .inl rfl
  | case4 d raw hslash hd ih =>
    have hne : d ≠ '#' := by simpa using hd
    have hnext : d = '/' → (raw ++ c :: cs).head? ≠ some '/' := by
      rintro rfl hhead
      cases raw with
      | nil => exact ne_of_isBlank hc (d := '/') (by decide) (Option.some.inj hhead)
      | cons e raw => exact hslash raw rfl (congrArg (· :: raw) (Option.some.inj hhead))
    rw [List.cons_append, stripComment_cons hne hnext]
    rcases ih with ih | ih
    · exact .inl (congrArg (d :: ·) ih)
    · exact .inr (congrArg (d :: ·) ih)

/-- **A remark changes no statement.** -/
theorem IsRemark.measure?_append (h : IsRemark tail) (raw : List Char) :
    Line.measure? (raw ++ tail) = Line.measure? raw := by
  obtain ⟨blanks, hne, mark, hmark, text, rfl, hblanks⟩ := h.shape
  have hstrip : stripComment (blanks ++ mark ++ text) = blanks := by
    rw [List.append_assoc, stripComment_blanks hblanks, stripComment_mark hmark, List.append_nil]
  have hcontent : (Line.ofRaw 0 (raw ++ (blanks ++ mark ++ text))).content =
      (Line.ofRaw 0 raw).content := by
    rw [content_ofRaw, content_ofRaw]
    obtain ⟨c, blanks, rfl⟩ := List.exists_cons_of_ne_nil hne
    rcases stripComment_append_blank raw (blanks ++ mark ++ text)
      (hblanks c List.mem_cons_self) with hraw | hraw
    · exact congrArg _ hraw
    · refine (congrArg _ hraw).trans ?_
      rw [show stripComment (c :: (blanks ++ mark ++ text)) = c :: blanks from hstrip,
        trim_append_blanks _ hblanks]
  refine measure?_congr hcontent fun hraw => ?_
  -- A line with a statement has more than an indentation, so nothing after it is measured.
  have hindent : (raw.takeWhile isIndent).length ≠ raw.length := by
    intro hall
    have hdrop : raw.dropWhile isIndent = [] := by
      have hparts := congrArg List.length (List.takeWhile_append_dropWhile (p := isIndent) (l := raw))
      rw [List.length_append] at hparts
      exact List.eq_nil_of_length_eq_zero (by omega)
    apply hraw
    show Text.trim (stripComment (raw.dropWhile isIndent)) = []
    rw [hdrop]
    rfl
  show ((raw ++ _).takeWhile isIndent).foldl _ 0 = (raw.takeWhile isIndent).foldl _ 0
  rw [List.takeWhile_append, if_neg hindent]

/-! ## Edits -/

/-- The ends that a line can have. -/
def lineEnds : List String :=
  ["\n", "\r\n", "\r"]

/-- A line without a statement: it has at most blanks and a comment. -/
structure IsIdle (line : String) : Prop where
  unbroken : Unbroken line.toList
  content : (Line.ofRaw 0 line.toList).content = []

/-- The second line has the text of the first one. If that has a statement, it is indented by `f w`
instead of `w`. -/
structure Reindented (f : Nat → Nat) (raw raw' : List Char) : Prop where
  text : raw.dropWhile isIndent = raw'.dropWhile isIndent
  indent : (Line.ofRaw 0 raw).content ≠ [] →
    (Line.ofRaw 0 raw').indent = f (Line.ofRaw 0 raw).indent

/-- The indentations of the statements of a text. -/
def widths (source : String) : Set Nat :=
  {w | ∃ l ∈ statementLines source, l.indent = w}

/-- A change of a text that keeps its statements, in their order of indentation. -/
inductive Edit : String → String → Prop
  /-- A new line before another one. -/
  | insertBefore {above line finish below : String} : StartsLine above.toList → IsIdle line →
    finish ∈ lineEnds → Edit (above ++ below) (above ++ line ++ finish ++ below)
  /-- A new line after another one. -/
  | insertAfter {above finish line below : String} : EndsLine below.toList → IsIdle line →
    finish ∈ lineEnds → Edit (above ++ below) (above ++ finish ++ line ++ below)
  /-- A new comment at the end of a line. -/
  | remark {above tail below : String} : EndsLine below.toList → IsRemark tail.toList →
    Edit (above ++ below) (above ++ tail ++ below)
  /-- Another end of a line. -/
  | lineEnd {above finish below : String} : finish ∈ lineEnds →
    Edit (above ++ "\n" ++ below) (above ++ finish ++ below)
  /-- Other indentations of all lines. -/
  | reindent {source source' : String} (f : Nat → Nat) : StrictMonoOn f (widths source) →
    List.Forall₂ (Reindented f) (splitLines source.toList) (splitLines source'.toList) →
    Edit source source'

theorem measuresOf_append_finish {finish : String} (h : finish ∈ lineEnds) (above below : List Char) :
    measuresOf (above ++ (finish.toList ++ below)) = measuresOf above ++ measuresOf below := by
  have hempty : measuresOf ('\n' :: below) = measuresOf below :=
    measuresOf_append_cons [] below (by decide)
  simp only [lineEnds, List.mem_cons, List.not_mem_nil, or_false] at h
  rcases h with rfl | rfl | rfl
  · exact measuresOf_append_cons _ _ (by decide)
  · refine (measuresOf_append_cons _ _ (by decide)).trans ?_
    rw [← hempty]
    rfl
  · exact measuresOf_append_cons _ _ (by decide)

theorem IsIdle.measuresOf_eq {line : String} (h : IsIdle line) : measuresOf line.toList = [] := by
  rw [measuresOf_line h.unbroken, measure?_of_content_eq_nil h.content]
  rfl

theorem Reindented.measure?_eq {f : Nat → Nat} (h : Reindented f raw raw') :
    Line.measure? raw' = (Line.measure? raw).map (Prod.map f id) := by
  have hcontent : (Line.ofRaw 0 raw').content = (Line.ofRaw 0 raw).content := by
    show Text.trim (stripComment _) = Text.trim (stripComment _)
    rw [h.text]
  by_cases hnil : (Line.ofRaw 0 raw).content = []
  · rw [measure?_of_content_eq_nil hnil, measure?_of_content_eq_nil (hcontent.trans hnil)]
    rfl
  · rw [measure?_of_content_ne_nil hnil, measure?_of_content_ne_nil (hcontent ▸ hnil), hcontent,
      h.indent hnil]
    rfl

variable {source source' source'' : String}

theorem measures_of_reindented {f : Nat → Nat} (h : List.Forall₂ (Reindented f)
    (splitLines source.toList) (splitLines source'.toList)) :
    measures source' = (measures source).map (Prod.map f id) := by
  rw [measures_eq_filterMap, measures_eq_filterMap]
  generalize splitLines source.toList = raws at h
  generalize splitLines source'.toList = raws' at h
  induction h with
  | nil => rfl
  | cons hline _ ih =>
    rw [List.filterMap_cons, List.filterMap_cons, hline.measure?_eq, ih]
    cases Line.measure? _ <;> rfl

theorem mem_widths {w : Nat} : w ∈ widths source ↔ ∃ m ∈ measures source, m.1 = w := by
  simp [widths, measures]

/-- The statements of the second text are those of the first one, with other indentations that
compare as before. -/
def Remeasured (source source' : String) : Prop :=
  ∃ f, StrictMonoOn f (widths source) ∧ measures source' = (measures source).map (Prod.map f id)

theorem remeasured_of_eq (h : measures source' = measures source) : Remeasured source source' :=
  ⟨id, strictMonoOn_id, by simpa using h⟩

theorem Remeasured.trans (h : Remeasured source source') (h' : Remeasured source' source'') :
    Remeasured source source'' := by
  obtain ⟨f, hf, heq⟩ := h
  obtain ⟨g, hg, heq'⟩ := h'
  have hmaps : Set.MapsTo f (widths source) (widths source') := by
    intro w hw
    obtain ⟨m, hm, rfl⟩ := mem_widths.1 hw
    refine mem_widths.2 ⟨Prod.map f id m, ?_, rfl⟩
    rw [heq]
    exact List.mem_map_of_mem hm
  refine ⟨g ∘ f, hg.comp hf hmaps, ?_⟩
  rw [heq', heq, List.map_map, Prod.map_comp_map, Function.comp_id]

/-- **An edit keeps the statements**, in their order of indentation. -/
theorem Edit.remeasured (h : Edit source source') : Remeasured source source' := by
  cases h with
  | insertBefore habove hline hfinish =>
    apply remeasured_of_eq
    simp only [measures_eq, String.toList_append, List.append_assoc]
    rw [measuresOf_append_of_startsLine habove, measuresOf_append_finish hfinish,
      hline.measuresOf_eq, List.nil_append, measuresOf_append_of_startsLine habove]
  | insertAfter hbelow hline hfinish =>
    apply remeasured_of_eq
    simp only [measures_eq, String.toList_append, List.append_assoc]
    rw [measuresOf_append_finish hfinish, measuresOf_append_of_endsLine hbelow,
      hline.measuresOf_eq, List.nil_append, measuresOf_append_of_endsLine hbelow]
  | remark hbelow htail =>
    apply remeasured_of_eq
    simp only [measures_eq, String.toList_append]
    rw [measuresOf_append_of_endsLine hbelow, measuresOf_append_of_endsLine hbelow]
    congr 1
    exact measuresOf_append_tail htail.unbroken htail.measure?_append (List.forall_mem_nil _)
  | lineEnd hfinish =>
    apply remeasured_of_eq
    have hfeed : "\n" ∈ lineEnds := List.mem_cons_self
    simp only [measures_eq, String.toList_append, List.append_assoc]
    rw [measuresOf_append_finish hfinish, measuresOf_append_finish hfeed]
  | reindent f hf hlines => exact ⟨f, hf, measures_of_reindented hlines⟩

/-- Any number of edits keeps the statements. -/
theorem remeasured_of_edits (h : Relation.ReflTransGen Edit source source') :
    Remeasured source source' := by
  induction h with
  | refl => exact remeasured_of_eq rfl
  | tail _ hedit ih => exact ih.trans hedit.remeasured

/-- Texts with the same statements in the same order of indentation are laid out alike. -/
theorem Remeasured.laidOutAlike (h : Remeasured source source') : LaidOutAlike source source' := by
  obtain ⟨f, hf, heq⟩ := h
  have hcontents : (measures source).map Prod.snd = (measures source').map Prod.snd := by
    rw [heq, List.map_map]
    rfl
  have hindent (p : Line × Line) (hp : p ∈ corresponding source source') :
      p.2.indent = f p.1.indent := by
    obtain ⟨i, hi, rfl⟩ := List.mem_iff_getElem.1 hp
    rw [corresponding, List.length_zip] at hi
    have hmeasure := List.getElem_of_eq heq (i := i) (by rw [measures, List.length_map]; omega)
    simp only [measures, List.getElem_map] at hmeasure
    simp only [corresponding, List.getElem_zip]
    exact congrArg Prod.fst hmeasure
  refine ⟨?_, fun p hp q hq => ?_⟩
  · rw [measures, measures, List.map_map, List.map_map] at hcontents
    exact hcontents
  · rw [hindent p hp, hindent q hq]
    exact (hf.lt_iff_lt ⟨_, (List.of_mem_zip hp).1, rfl⟩ ⟨_, (List.of_mem_zip hq).1, rfl⟩).symm

/-! ## Reading after edits -/

/-- **Only the statements and the order of their indentations matter** to how a text is read. In
particular, edits of any number do not: empty lines, comments, other ends of lines and other
indentations. -/
theorem parse_layout_free :
    (∀ source source', LaidOutAlike source source' → ReadAlike source source') ∧
      ∀ source source', Relation.ReflTransGen Edit source source' → ReadAlike source source' :=
  ⟨fun _ _ h => h.readAlike, fun _ _ h => (remeasured_of_edits h).laidOutAlike.readAlike⟩

/-- An expression that is not closed is complained about wherever it stands. A program stays the
same with half the indentations, another end of a line, a comment after a quotient and one inside a
block. -/
theorem parse_layout_free_blocks :
    (LaidOutAlike "if 1:\n    f (2\n  l 1" "#\r\n\tif 1:\r\t\t\tf (2 // two\r\n     l 1" ∧
      ReadAlike "if 1:\n    f (2\n  l 1" "#\r\n\tif 1:\r\t\t\tf (2 // two\r\n     l 1") ∧
    Relation.ReflTransGen Edit "repeat 2:\n\tf 8 / 2\n  l 90\nb 1"
        "repeat 2:\r  f 8 / 2 // half\n# turn\r\n l 90\nb 1" ∧
      ReadAlike "repeat 2:\n\tf 8 / 2\n  l 90\nb 1"
        "repeat 2:\r  f 8 / 2 // half\n# turn\r\n l 90\nb 1" := by
  have halike : LaidOutAlike "if 1:\n    f (2\n  l 1"
      "#\r\n\tif 1:\r\t\t\tf (2 // two\r\n     l 1" := by
    refine ⟨?_, ?_⟩ <;> decide +kernel
  have hhalf : Edit "repeat 2:\n\tf 8 / 2\n  l 90\nb 1" "repeat 2:\n  f 8 / 2\n l 90\nb 1" := by
    refine .reindent (· / 2) ?_ ?_
    · have heven : ∀ l ∈ statementLines "repeat 2:\n\tf 8 / 2\n  l 90\nb 1", l.indent % 2 = 0 := by
        decide +kernel
      rintro _ ⟨l, hl, rfl⟩ _ ⟨k, hk, rfl⟩ hlt
      have := heven l hl
      have := heven k hk
      show l.indent / 2 < k.indent / 2
      omega
    · have hbefore : splitLines "repeat 2:\n\tf 8 / 2\n  l 90\nb 1".toList =
          ["repeat 2:".toList, "\tf 8 / 2".toList, "  l 90".toList, "b 1".toList] := by
        decide +kernel
      have hafter : splitLines "repeat 2:\n  f 8 / 2\n l 90\nb 1".toList =
          ["repeat 2:".toList, "  f 8 / 2".toList, " l 90".toList, "b 1".toList] := by
        decide +kernel
      rw [hbefore, hafter]
      exact .cons ⟨by decide, by decide⟩ (.cons ⟨by decide, by decide⟩
        (.cons ⟨by decide, by decide⟩ (.cons ⟨by decide, by decide⟩ .nil)))
  have hfinish : Edit ("repeat 2:" ++ "\n" ++ "  f 8 / 2\n l 90\nb 1")
      ("repeat 2:" ++ "\r" ++ "  f 8 / 2\n l 90\nb 1") := .lineEnd (by decide)
  have hremark : Edit ("repeat 2:\r  f 8 / 2" ++ "\n l 90\nb 1")
      ("repeat 2:\r  f 8 / 2" ++ " // half" ++ "\n l 90\nb 1") := by
    refine .remark (by decide +kernel) ⟨by decide, ?_⟩
    exact ⟨[' '], by decide, ['/', '/'], by decide, " half".toList, by decide,
      List.forall_mem_singleton.2 (by decide)⟩
  have hline : Edit ("repeat 2:\r  f 8 / 2 // half\n" ++ " l 90\nb 1")
      ("repeat 2:\r  f 8 / 2 // half\n" ++ "# turn" ++ "\r\n" ++ " l 90\nb 1") := by
    refine .insertBefore (by decide +kernel) ⟨by decide, by decide⟩ (by decide)
  have hedits : Relation.ReflTransGen Edit "repeat 2:\n\tf 8 / 2\n  l 90\nb 1"
      "repeat 2:\r  f 8 / 2 // half\n# turn\r\n l 90\nb 1" :=
    .tail (.tail (.tail (.single hhalf) hfinish) hremark) hline
  exact ⟨⟨halike, parse_layout_free.1 _ _ halike⟩, hedits, parse_layout_free.2 _ _ hedits⟩

end

end PixelTurtle.Source
