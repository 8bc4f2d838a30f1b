import PixelTurtle.Proofs.StatementRoundTrip

/-!
# Reading written programs

The text of a program is read as the program itself, with its instructions on the lines where they
stand. A line under `d` bodies has the indentation `d`, so the block below a header is the written
body, and what comes after the block is what comes after the instruction.

* `splitLines_lines`, `Line.content_ofRaw_indented` and `Line.indent_ofRaw_indented` take the text
  apart.
* `block_printAll` reads the lines of a program.
* `parse_printProgram` reads its text.
-/

namespace PixelTurtle.Source

variable {lit : Float → List Char}

/-! ## Lines -/

/-- A text that a line can hold. -/
structure IsLineText (cs : List Char) : Prop where
  tidy : Tidy cs
  trimmed : Trimmed cs
  ne_nil : cs ≠ []

theorem isLineText_text {inLoop : Bool} {i : Instr} (h : i.WellFormed lit inLoop) :
    IsLineText (i.text lit) :=
  ⟨Instr.tidy_text h, Instr.trimmed_text h, Instr.text_ne_nil h⟩

section Indented

variable {cs : List Char} {depth : Nat}

theorem isIndent_head (h : IsLineText cs) : ∀ c ∈ cs.head?, isIndent c = false := by
  intro c hc
  have hb := h.trimmed.head c hc
  by_contra hi
  rw [Bool.not_eq_false] at hi
  simp only [isIndent, Bool.or_eq_true, beq_iff_eq] at hi
  rcases hi with rfl | rfl
  · cases hb
  · cases hb

theorem isIndent_replicate : ∀ c ∈ List.replicate depth ' ', isIndent c = true := by
  intro c hc
  rw [List.eq_of_mem_replicate hc]
  rfl

theorem Line.content_ofRaw_indented (n : Nat) (h : IsLineText cs) :
    (Line.ofRaw n (indented depth cs)).content = cs := by
  show Text.trim (stripComment ((indented depth cs).dropWhile isIndent)) = cs
  rw [indented, dropWhile_append_stops isIndent_replicate (isIndent_head h), h.tidy.strip,
    trim_eq_self h.trimmed]

theorem foldl_indentWidth_replicate (width depth : Nat) :
    (List.replicate depth ' ').foldl (fun width c => width + indentWidth c) width =
      width + depth := by
  induction depth generalizing width with
  | zero => rfl
  | succ depth ih =>
    have hblank : indentWidth ' ' = 1 := rfl
    rw [List.replicate_succ, List.foldl_cons, ih, hblank]
    omega

theorem Line.indent_ofRaw_indented (n : Nat) (h : IsLineText cs) :
    (Line.ofRaw n (indented depth cs)).indent = depth := by
  show ((indented depth cs).takeWhile isIndent).foldl (fun width c => width + indentWidth c) 0 =
    depth
  rw [indented, takeWhile_append_stops isIndent_replicate (isIndent_head h),
    foldl_indentWidth_replicate]
  exact Nat.zero_add depth

theorem Line.isStatement_ofRaw_indented (n : Nat) (h : IsLineText cs) :
    (Line.ofRaw n (indented depth cs)).isStatement = true := by
  rw [Line.isStatement, Line.content_ofRaw_indented n h, List.isEmpty_eq_false_iff.2 h.ne_nil]
  rfl

end Indented

/-- A line feed after a text without line ends. -/
theorem splitLinesFrom_append {cs : List Char} (h : ∀ c ∈ cs, c ≠ '\n' ∧ c ≠ '\r')
    (current rest : List Char) :
    splitLinesFrom current (cs ++ '\n' :: rest) =
      (current.reverse ++ cs) :: splitLinesFrom [] rest := by
  induction cs generalizing current with
  | nil =>
    rw [List.nil_append, List.append_nil, splitLinesFrom]
    · rfl
    · nofun
  | cons c cs ih =>
    obtain ⟨hn, hr⟩ := h c List.mem_cons_self
    rw [List.cons_append, splitLinesFrom]
    · have hc : (c == '\n' || c == '\r') = false := by
        rw [Bool.or_eq_false_iff, beq_eq_false_iff_ne, beq_eq_false_iff_ne]
        exact ⟨hn, hr⟩
      rw [hc, if_neg Bool.false_ne_true, ih fun d hd => h d (List.mem_cons_of_mem _ hd),
        List.reverse_cons, List.append_assoc]
      rfl
    · rintro tail rfl
      exact absurd rfl hr

/-- Lines that each end with a line feed; there is an empty one after the last. -/
theorem splitLines_lines {raws : List (List Char)}
    (h : ∀ raw ∈ raws, ∀ c ∈ raw, c ≠ '\n' ∧ c ≠ '\r') :
    splitLines (raws.flatMap (· ++ ['\n'])) = raws ++ [[]] := by
  induction raws with
  | nil => rfl
  | cons raw raws ih =>
    rw [splitLines, List.flatMap_cons, List.append_assoc, List.singleton_append,
      splitLinesFrom_append (h raw List.mem_cons_self)]
    exact congrArg (raw :: ·) (ih fun r hr => h r (List.mem_cons_of_mem _ hr))

/-! ## Numbered lines -/

/-- Lines with numbers from `n` on. -/
def numbered (n : Nat) : List (List Char) → List Line
  | [] => []
  | raw :: raws => Line.ofRaw n raw :: numbered (n + 1) raws

theorem mapIdx_eq_numbered (n : Nat) (raws : List (List Char)) :
    (raws.mapIdx fun k raw => Line.ofRaw (k + n) raw) = numbered n raws := by
  induction raws generalizing n with
  | nil => rfl
  | cons raw raws ih =>
    have hshift : (fun k raw => Line.ofRaw (k + 1 + n) raw) =
        fun k raw => Line.ofRaw (k + (n + 1)) raw := by
      funext k raw
      rw [Nat.add_assoc, Nat.add_comm 1 n]
    rw [List.mapIdx_cons, hshift, ih, Nat.zero_add, numbered]

theorem numbered_append (n : Nat) (raws raws' : List (List Char)) :
    numbered n (raws ++ raws') = numbered n raws ++ numbered (n + raws.length) raws' := by
  induction raws generalizing n with
  | nil => rfl
  | cons raw raws ih =>
    have hn : n + (raws.length + 1) = n + 1 + raws.length := by omega
    rw [List.cons_append, numbered, numbered, ih, List.length_cons, List.cons_append, hn]

theorem number_numbered (n : Nat) (raws : List (List Char)) :
    (numbered n raws).map Line.number = List.range' n raws.length := by
  induction raws generalizing n with
  | nil => rfl
  | cons raw raws ih =>
    rw [numbered, List.map_cons, ih, List.length_cons, List.range'_succ]
    rfl

/-! ## Lines of a program -/

theorem length_printAll (depth : Nat) (is : List Instr) :
    (printAll lit depth is).length = (preorderAll is).length := by
  induction is using program_induction generalizing depth with
  | nil => rfl
  | cons i is ihbody ih =>
    rw [printAll_cons, preorderAll_cons, List.length_cons, List.length_cons, List.length_append,
      List.length_append, ihbody, ih]

theorem wellFormedAll_body {inLoop : Bool} {i : Instr} (h : i.WellFormed lit inLoop) :
    ∃ inLoop', WellFormedAll lit inLoop' i.body := by
  cases i with
  | loop mode count until? body l => exact ⟨true, h.2⟩
  | branch test body l => exact ⟨inLoop, h.2⟩
  | _ => exact ⟨inLoop, trivial⟩

/-- Every line of a program is a statement under at least as many bodies as the program. -/
theorem exists_of_mem_printAll {inLoop : Bool} {depth : Nat} {is : List Instr}
    (h : WellFormedAll lit inLoop is) {raw : List Char} (hr : raw ∈ printAll lit depth is) :
    ∃ d cs, depth ≤ d ∧ raw = indented d cs ∧ IsLineText cs := by
  induction is using program_induction generalizing inLoop depth with
  | nil => cases hr
  | cons i is ihbody ih =>
    rw [printAll_cons] at hr
    rcases List.mem_cons.1 hr with rfl | hr
    · exact ⟨depth, i.text lit, Nat.le_refl depth, rfl, isLineText_text h.1⟩
    · rcases List.mem_append.1 hr with hr | hr
      · obtain ⟨inLoop', hbody⟩ := wellFormedAll_body h.1
        obtain ⟨d, cs, hd, hraw, hcs⟩ := ihbody hbody hr
        exact ⟨d, cs, Nat.le_of_succ_le hd, hraw, hcs⟩
      · exact ih h.2 hr

theorem exists_of_mem_numbered {n : Nat} {raws : List (List Char)} {line : Line}
    (h : line ∈ numbered n raws) : ∃ k, ∃ raw ∈ raws, line = Line.ofRaw k raw := by
  induction raws generalizing n with
  | nil => cases h
  | cons raw raws ih =>
    rcases List.mem_cons.1 h with rfl | h
    · exact ⟨n, raw, List.mem_cons_self, rfl⟩
    · obtain ⟨k, r, hr, hk⟩ := ih h
      exact ⟨k, r, List.mem_cons_of_mem _ hr, hk⟩

section Block

variable {inLoop : Bool} {depth n : Nat} {is : List Instr} {line : Line}

theorem le_indent_of_mem (h : WellFormedAll lit inLoop is)
    (hl : line ∈ numbered n (printAll lit depth is)) : depth ≤ line.indent := by
  obtain ⟨k, raw, hraw, rfl⟩ := exists_of_mem_numbered hl
  obtain ⟨d, cs, hd, rfl, hcs⟩ := exists_of_mem_printAll h hraw
  rwa [Line.indent_ofRaw_indented k hcs]

theorem isStatement_of_mem (h : WellFormedAll lit inLoop is)
    (hl : line ∈ numbered n (printAll lit depth is)) : line.isStatement = true := by
  obtain ⟨k, raw, hraw, rfl⟩ := exists_of_mem_numbered hl
  obtain ⟨d, cs, -, rfl, hcs⟩ := exists_of_mem_printAll h hraw
  exact Line.isStatement_ofRaw_indented k hcs

/-- The first line of a program has the indentation of the program. -/
theorem indent_head (h : WellFormedAll lit inLoop is) :
    ∀ l ∈ (numbered n (printAll lit depth is)).head?, l.indent = depth := by
  cases is with
  | nil => nofun
  | cons i is =>
    rw [printAll_cons, numbered]
    rintro l ⟨⟩
    exact Line.indent_ofRaw_indented n (isLineText_text h.1)

/-- The block of a line that stands before deeper lines and then one that is not deeper. -/
theorem Line.below_append {inner outer : List Line} (hi : ∀ l ∈ inner, line.indent < l.indent)
    (ho : ∀ l ∈ outer.head?, l.indent = line.indent) :
    line.below (inner ++ outer) = inner ∧ line.after (inner ++ outer) = outer := by
  have hi' : ∀ l ∈ inner, decide (line.indent < l.indent) = true :=
    fun l hl => decide_eq_true (hi l hl)
  have ho' : ∀ l ∈ outer.head?, decide (line.indent < l.indent) = false :=
    fun l hl => decide_eq_false (by rw [ho l hl]; exact Nat.lt_irrefl _)
  exact ⟨takeWhile_append_stops hi' ho', dropWhile_append_stops hi' ho'⟩

/-- **The lines of a program are read as the program.** -/
theorem block_printAll (h : WellFormedAll lit inLoop is) (depth n : Nat) :
    block inLoop (numbered n (printAll lit depth is)) = .ok (renumberAll n is) := by
  induction is using program_induction generalizing inLoop depth n with
  | nil => rw [printAll, numbered, block, renumberAll]
  | cons i is ihbody ih =>
    obtain ⟨hi, his⟩ := h
    have htext := isLineText_text hi
    have hlen : (printAll lit (depth + 1) i.body).length = (preorderAll i.body).length :=
      length_printAll _ _
    rw [printAll_cons, numbered, numbered_append, hlen, renumberAll, Instr.preorder_eq,
      List.length_cons, block]
    have hcontent : (Line.ofRaw n (indented depth (i.text lit))).content = i.text lit :=
      Line.content_ofRaw_indented n htext
    have hindent : (Line.ofRaw n (indented depth (i.text lit))).indent = depth :=
      Line.indent_ofRaw_indented n htext
    obtain ⟨s, hs, hstands⟩ := Line.statement_of_text hi hcontent
    rw [hs]
    cases s with
    | simple j =>
      obtain ⟨rfl, hbody⟩ := hstands
      simp only [hbody, printAll, numbered, preorderAll, List.length_nil, List.nil_append,
        Nat.add_zero, Nat.zero_add, ih his depth (n + 1)]
      rfl
    | header hd =>
      obtain ⟨hinstr, hbody⟩ := hstands
      have hn : n + 1 + (preorderAll i.body).length = n + ((preorderAll i.body).length + 1) := by
        omega
      have hinner : ∀ l ∈ numbered (n + 1) (printAll lit (depth + 1) i.body),
          (Line.ofRaw n (indented depth (i.text lit))).indent < l.indent := by
        intro l hl
        rw [hindent]
        exact le_indent_of_mem hbody hl
      have houter : ∀ l ∈ (numbered (n + ((preorderAll i.body).length + 1))
          (printAll lit depth is)).head?,
          l.indent = (Line.ofRaw n (indented depth (i.text lit))).indent := by
        intro l hl
        rw [hindent]
        exact indent_head his l hl
      obtain ⟨hbelow, hafter⟩ := Line.below_append hinner houter
      rw [hn]
      simp only [hbelow, hafter, ihbody hbody (depth + 1) (n + 1), ih his depth _]
      exact congrArg (fun j => Except.ok (j :: _)) hinstr

end Block

/-! ## The text of a program -/

theorem filter_linesOf_print {inLoop : Bool} {program : List Instr}
    (h : WellFormedAll lit inLoop program) :
    (linesOf (printProgram lit program).toList).filter Line.isStatement =
      numbered 1 (printAll lit 0 program) := by
  have hlines : ∀ raw ∈ printAll lit 0 program, ∀ c ∈ raw, c ≠ '\n' ∧ c ≠ '\r' := by
    intro raw hraw c hc
    obtain ⟨d, cs, -, rfl, hcs⟩ := exists_of_mem_printAll h hraw
    rcases List.mem_append.1 hc with hc | hc
    · rw [List.eq_of_mem_replicate hc]
      decide
    · exact hcs.tidy.line c hc
  have hlast (k : Nat) : (Line.ofRaw k []).isStatement = false := rfl
  rw [printProgram, String.toList_ofList, linesOf, splitLines_lines hlines, mapIdx_eq_numbered,
    numbered_append, List.filter_append, numbered, numbered,
    List.filter_eq_self.2 fun l hl => isStatement_of_mem h hl,
    List.filter_cons_of_neg (by rw [hlast]; exact Bool.false_ne_true), List.filter_nil,
    List.append_nil]

/-- **Reading undoes writing.** The text of a program that can be written is read as the program,
with the instructions numbered from one on, each before those inside it. -/
theorem parse_printProgram {program : List Instr} (h : WellFormedAll lit false program) :
    parse (printProgram lit program) = .ok (renumberAll 1 program) ∧
      (preorderAll (renumberAll 1 program)).map Instr.line =
        (List.range' 1 (preorderAll program).length).map fun n : Nat => some (n : Int) := by
  have hblock := block_printAll h 0 1
  refine ⟨?_, ?_⟩
  · rw [parse, filter_linesOf_print h, hblock]
  · have hlen : (printAll lit 0 program).length = (preorderAll program).length :=
      length_printAll 0 program
    rw [preorderAll_block hblock, ← hlen, ← number_numbered, List.map_map]
    rfl

/-- Variables may be called like keywords. -/
theorem parse_printProgram_keywords :
    parse "var repeat = 2.5\nrepeat until ((repeat) > (-(2.5))):\n if if:\n  break\n" = .ok
      [.assign "repeat" (.num 2.5) false (some 1),
        .loop .until none (some (.bin (.known .gt) (.var "repeat") (.unary .minus (.num 2.5))))
          [.branch (.var "if") [.breakLoop (some 4)] (some 3)] (some 2)] := by
  have hx : Spells (fun _ => "2.5".toList) 2.5 := by
    exact ⟨by decide, by decide +kernel⟩
  have hrepeat : IsName "repeat" := by decide
  have hif : IsName "if" := by decide
  have hwf : WellFormedAll (fun _ => "2.5".toList) false
      [.assign "repeat" (.num 2.5) false none,
        .loop .until none (some (.bin (.known .gt) (.var "repeat") (.unary .minus (.num 2.5))))
          [.branch (.var "if") [.breakLoop none] none] none] :=
    ⟨⟨hrepeat, nofun, hx, by decide⟩,
      ⟨.inr ⟨rfl, rfl, _, rfl, ⟨⟨_, rfl⟩, hrepeat, .inr rfl, hx⟩, by decide⟩,
        ⟨⟨hif, by decide⟩, rfl, trivial⟩, trivial⟩, trivial⟩
  exact (parse_printProgram hwf).1

end PixelTurtle.Source
