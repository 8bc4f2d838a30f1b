import PixelTurtle.Proofs.Edits
import PixelTurtle.Proofs.Seams

/-!
# Columns

The column of a complaint is counted from the measured indentation of its line, which consists of
spaces and tabs. The content of a line is trimmed of all blanks, so the columns are those of the
line if no other blank stands before the content, and only then.

* `Text.exists_two_words` takes a text apart at its first two words.
* `Line.Plain` is a line that is indented with spaces and tabs only. `exists_parts` says where the
  content of a line stands.
* `offset_locates_content_iff` says that the measured indentation ends where the content starts in
  plain lines, and in no others.
-/

namespace PixelTurtle

/-! ## Words -/

/-- Blanks between two words. -/
structure IsGap (gap : List Char) : Prop where
  ne_nil : gap ≠ []
  isBlank : ∀ c ∈ gap, Text.isBlank c = true

theorem IsGap.isBlank_head {gap : List Char} (h : IsGap gap) (cs : List Char) {c : Char}
    (hc : c ∈ (gap ++ cs).head?) : Text.isBlank c = true := by
  obtain ⟨d, gap, rfl⟩ := List.exists_cons_of_ne_nil h.ne_nil
  obtain rfl : d = c := Option.some.inj hc
  exact h.isBlank d List.mem_cons_self

theorem IsWord.isBlank_head {w : List Char} (h : IsWord w) (cs : List Char) {c : Char}
    (hc : c ∈ (w ++ cs).head?) : Text.isBlank c = false := by
  obtain ⟨d, w, rfl⟩ := List.exists_cons_of_ne_nil h.ne_nil
  obtain rfl : d = c := Option.some.inj hc
  exact h.isBlank d List.mem_cons_self

namespace Text

variable {cs w first second : List Char} {ws : List (List Char)}

/-- The first word of a text comes off its front, with the blanks before it. -/
theorem exists_of_words_cons (h : words cs = w :: ws) :
    ∃ blanks rest, cs = blanks ++ (w ++ rest) ∧ (∀ c ∈ blanks, isBlank c = true) ∧ IsWord w ∧
      (∀ c ∈ rest.head?, isBlank c = true) ∧ words rest = ws := by
  rw [words] at h
  split at h
  · cases h
  · rename_i c rest htrim
    cases h
    have hc : isBlank c = false := dropWhile_head htrim
    refine ⟨cs.takeWhile isBlank, afterWord (c :: rest), ?_, fun d hd => List.mem_takeWhile_imp hd,
      ⟨?_, fun d hd => ?_⟩, fun d hd => ?_, rfl⟩
    · rw [word_append_afterWord, ← htrim]
      exact List.takeWhile_append_dropWhile.symm
    · rw [word, List.takeWhile_cons_of_pos (by rw [hc]; rfl)]
      exact List.cons_ne_nil _ _
    · have hnot := List.mem_takeWhile_imp hd
      rwa [Bool.not_eq_true'] at hnot
    · exact (Bool.not_eq_false' _).mp (head_of_dropWhile (p := (!isBlank ·)) hd)

theorem eq_nil_of_isBlank_head {blanks rest : List Char} (hblanks : ∀ c ∈ blanks, isBlank c = true)
    (h : ∀ c ∈ (blanks ++ rest).head?, isBlank c = false) : blanks = [] := by
  cases blanks with
  | nil => rfl
  | cons c blanks => cases (h c rfl).symm.trans (hblanks c List.mem_cons_self)

/-- A text that does not start with a blank starts with its first word. -/
theorem exists_first_word (hcs : ∀ c ∈ cs.head?, isBlank c = false) (h : words cs = w :: ws) :
    ∃ rest, cs = w ++ rest ∧ IsWord w ∧ (∀ c ∈ rest.head?, isBlank c = true) ∧
      words rest = ws := by
  obtain ⟨blanks, rest, rfl, hblanks, hw, hrest, hws⟩ := exists_of_words_cons h
  obtain rfl := eq_nil_of_isBlank_head hblanks hcs
  exact ⟨rest, rfl, hw, hrest, hws⟩

/-- **A text comes apart at its first two words.** -/
theorem exists_two_words (hcs : ∀ c ∈ cs.head?, isBlank c = false)
    (h : words cs = first :: second :: ws) :
    ∃ gap rest, cs = first ++ (gap ++ (second ++ rest)) ∧ IsWord first ∧ IsGap gap ∧
      IsWord second ∧ (∀ c ∈ rest.head?, isBlank c = true) ∧ words rest = ws := by
  obtain ⟨rest₁, rfl, hfirst, hhead, hrest₁⟩ := exists_first_word hcs h
  obtain ⟨gap, rest, rfl, hgap, hsecond, hrest, hws⟩ := exists_of_words_cons hrest₁
  refine ⟨gap, rest, rfl, hfirst, ⟨?_, hgap⟩, hsecond, hrest, hws⟩
  rintro rfl
  obtain ⟨c, second, rfl⟩ := List.exists_cons_of_ne_nil hsecond.ne_nil
  cases (hhead c rfl).symm.trans (hsecond.isBlank c List.mem_cons_self)

/-- Trimmed texts are trimmed. -/
theorem trimmed_trim (cs : List Char) : Trimmed (trim cs) := by
  refine ⟨fun c hc => ?_, fun c hc => ?_⟩
  · obtain ⟨after, hafter, -⟩ := exists_trimRight (trimLeft cs)
    refine head_of_dropWhile (l := cs) (p := isBlank) ?_
    show c ∈ (trimLeft cs).head?
    rw [hafter, List.head?_append, ← trim, Option.mem_def.1 hc]
    rfl
  · rw [trim, trimRight, List.getLast?_reverse] at hc
    exact head_of_dropWhile hc

end Text

namespace Source

/-! ## The parts of a line -/

/-- The blanks at the start of a line. -/
def Line.lead (l : Line) : List Char :=
  l.raw.takeWhile Text.isBlank

/-- The line is indented with spaces and tabs only. -/
def Line.Plain (l : Line) : Prop :=
  ∀ c ∈ l.lead, isIndent c = true

instance : DecidablePred Line.Plain := fun l =>
  decidable_of_iff (l.lead.all isIndent) List.all_eq_true

theorem exists_comment (cs : List Char) : ∃ comment, cs = stripComment cs ++ comment := by
  fun_induction stripComment cs with
  | case1 => exact ⟨[], rfl⟩
  | case2 cs => exact ⟨'/' :: '/' :: cs, rfl⟩
  | case3 c cs _ _ => exact ⟨c :: cs, rfl⟩
  | case4 c cs _ _ ih =>
    obtain ⟨comment, hcomment⟩ := ih
    exact ⟨comment, congrArg (c :: ·) hcomment⟩

/-- The content of a line comes after the blanks at its start. -/
theorem exists_tail (n : Nat) (raw : List Char) :
    ∃ tail, raw = raw.takeWhile Text.isBlank ++ ((Line.ofRaw n raw).content ++ tail) := by
  let rest := raw.dropWhile Text.isBlank
  have hraw : raw.takeWhile Text.isBlank ++ rest = raw := List.takeWhile_append_dropWhile
  have hlead : ∀ c ∈ raw.takeWhile Text.isBlank, Text.isBlank c = true :=
    fun c hc => List.mem_takeWhile_imp hc
  obtain ⟨comment, hcomment⟩ := exists_comment rest
  have hhead : ∀ c ∈ (stripComment rest).head?, Text.isBlank c = false := by
    intro c hc
    refine Text.head_of_dropWhile (l := raw) (p := Text.isBlank) ?_
    show c ∈ rest.head?
    rw [hcomment, List.head?_append, Option.mem_def.1 hc]
    rfl
  obtain ⟨before, after, hparts, hbefore, -⟩ := exists_trim (stripComment rest)
  rw [hparts] at hhead
  obtain rfl := Text.eq_nil_of_isBlank_head hbefore hhead
  have hcontent : (Line.ofRaw n raw).content = Text.trim (stripComment rest) := by
    have htrim : Text.trimLeft (raw.takeWhile Text.isBlank ++ stripComment rest) =
        Text.trimLeft (stripComment rest) :=
      List.dropWhile_append_of_pos hlead
    rw [content_ofRaw, ← hraw, stripComment_blanks hlead, Text.trim, htrim, ← Text.trim]
  refine ⟨after ++ comment, ?_⟩
  rw [hcontent, ← List.append_assoc (Text.trim _), ← List.nil_append (Text.trim _ ++ after),
    ← hparts, ← hcomment, hraw]

/-- The measured indentation is the part of the leading blanks before the first other blank. -/
theorem takeWhile_isIndent (raw : List Char) :
    raw.takeWhile isIndent = (raw.takeWhile Text.isBlank).takeWhile isIndent := by
  induction raw with
  | nil => rfl
  | cons c raw ih =>
    by_cases hc : isIndent c = true
    · rw [List.takeWhile_cons_of_pos hc, List.takeWhile_cons_of_pos (isBlank_of_isIndent hc),
        List.takeWhile_cons_of_pos hc, ih]
    · rw [List.takeWhile_cons_of_neg hc, List.takeWhile_cons]
      split
      · rw [List.takeWhile_cons_of_neg hc]
      · rfl

section Parts

variable {source : String} {l : Line}

theorem offset_eq (hl : l ∈ statementLines source) :
    l.offset = (l.lead.takeWhile isIndent).length := by
  obtain ⟨i, hi, -⟩ := exists_index hl
  rw [Line.lead, ← takeWhile_isIndent]
  exact congrArg Line.offset hi

theorem exists_parts (hl : l ∈ statementLines source) :
    ∃ tail, l.raw = l.lead ++ (l.content ++ tail) := by
  obtain ⟨i, hi, -⟩ := exists_index hl
  obtain ⟨tail, htail⟩ := exists_tail (i + 1) l.raw
  rw [← hi] at htail
  exact ⟨tail, htail⟩

/-- The measured indentation of a plain line ends where the content starts. -/
theorem Line.Plain.offset_eq (h : l.Plain) (hl : l ∈ statementLines source) :
    l.offset = l.lead.length := by
  rw [Source.offset_eq hl, List.takeWhile_eq_self_iff.2 h]

theorem trimmed_content (hl : l ∈ statementLines source) : Trimmed l.content := by
  obtain ⟨i, hi, -⟩ := exists_index hl
  have hcontent : l.content = Text.trim (stripComment l.raw) := by
    rw [← content_ofRaw (i + 1), ← hi]
  rw [hcontent]
  exact Text.trimmed_trim _

theorem lead_isBlank {c : Char} (hc : c ∈ l.lead) : Text.isBlank c = true :=
  List.mem_takeWhile_imp hc

/-- **The measured indentation locates the content of plain lines, and of no others.** In a line
with a statement, the content comes right after the blanks at the start. The measured indentation
consists of those before the first one that is neither a space nor a tab, so the text after it
starts with the content exactly if there is no such blank. The other columns are too small. -/
theorem offset_locates_content_iff (hl : l ∈ statementLines source) :
    (∃ tail, l.raw = l.lead ++ (l.content ++ tail)) ∧
    (∀ i < l.content.length, l.raw[l.lead.length + i]? = l.content[i]?) ∧
    l.offset = (l.lead.takeWhile isIndent).length ∧
    ((l.raw.drop l.offset).take l.content.length = l.content ↔ l.Plain) := by
  obtain ⟨tail, htail⟩ := exists_parts hl
  have hoffset := offset_eq hl
  refine ⟨⟨tail, htail⟩, fun i hi => ?_, hoffset, fun hslice => ?_, fun hplain => ?_⟩
  · rw [htail, List.getElem?_append_right (Nat.le_add_right _ _), Nat.add_sub_cancel_left,
      List.getElem?_append_left hi]
  · -- Otherwise the slice starts with a blank, and the content does not.
    by_contra hnot
    have hsplit : l.lead.takeWhile isIndent ++ l.lead.dropWhile isIndent = l.lead :=
      List.takeWhile_append_dropWhile
    obtain ⟨c, more, hmore⟩ : ∃ c more, l.lead.dropWhile isIndent = c :: more := by
      refine List.exists_cons_of_ne_nil fun hnil => hnot fun c hc => ?_
      rw [hnil, List.append_nil] at hsplit
      rw [← hsplit] at hc
      exact List.mem_takeWhile_imp hc
    have hc : Text.isBlank c = true := by
      refine lead_isBlank (l := l) ?_
      rw [← hsplit, hmore]
      exact List.mem_append_right _ List.mem_cons_self
    obtain ⟨d, content, hcontent⟩ := List.exists_cons_of_ne_nil (content_ne_nil hl)
    have hd : Text.isBlank d = false := (trimmed_content hl).head d (by rw [hcontent]; rfl)
    rw [htail, ← hsplit, hmore, hoffset, List.append_assoc, List.drop_left, hcontent] at hslice
    cases (List.cons.inj hslice).1
    cases hc.symm.trans hd
  · rw [hplain.offset_eq hl, htail, List.drop_left, List.take_left]

/-- A no-break space at the start of a line is no part of its measured indentation. -/
theorem noBreakSpace_not_measured :
    ∃ l ∈ statementLines "\u00a0forward 1", l.content = "forward 1".toList ∧ l.offset = 0 ∧
      (l.raw.drop l.offset).take l.content.length = "\u00a0forward ".toList := by
  have hlines : statementLines "\u00a0forward 1" = [.ofRaw 1 "\u00a0forward 1".toList] := by
    decide +kernel
  refine ⟨_, hlines ▸ List.mem_cons_self, ?_⟩
  decide +kernel

/-- The content of a line that is indented with a tab is located, also if it has other blanks in it.
-/
theorem tab_is_measured :
    ∃ l ∈ statementLines "\t pen\u2003up\u00a0# up", l.offset = 2 ∧
      (l.raw.drop l.offset).take l.content.length = l.content := by
  have hlines : statementLines "\t pen\u2003up\u00a0# up" =
      [.ofRaw 1 "\t pen\u2003up\u00a0# up".toList] := by
    decide +kernel
  have hl : Line.ofRaw 1 "\t pen\u2003up\u00a0# up".toList ∈
      statementLines "\t pen\u2003up\u00a0# up" :=
    hlines ▸ List.mem_cons_self
  exact ⟨_, hl, by decide, (offset_locates_content_iff hl).2.2.2.2 (by decide)⟩

end Parts

end Source

end PixelTurtle
