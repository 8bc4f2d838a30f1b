import Mathlib.Data.List.Nodup
import PixelTurtle.Source.Program

/-!
# The layout of a program

A program that was read from a text has the structure of its indentation. Its instructions, each
before those of its body, stand for the lines with a statement, one by one from the top; and an
instruction lies within the body of another one exactly when its line belongs to the block which
that one opens.

* `preorderAll` lists the instructions of a program, `Instr.body` is the body of one.
* `Line.opensBlock` tells the lines that open a block.
* `preorderAll_block` says which lines the instructions stand for.
* `exists_below` says which of them are those of a body.
* `parse_layout` joins the two.
-/

namespace PixelTurtle

/-! ## Instructions in order -/

def Instr.body : Instr → List Instr
  | .loop _ _ _ body _ => body
  | .branch _ body _ => body
  | _ => []

mutual
/-- An instruction and all those inside it. -/
def Instr.preorder : Instr → List Instr
  | .loop mode count until? body line => .loop mode count until? body line :: preorderAll body
  | .branch test body line => .branch test body line :: preorderAll body
  | i => [i]

/-- The instructions of a program, each before those inside it. -/
def preorderAll : List Instr → List Instr
  | [] => []
  | i :: is => i.preorder ++ preorderAll is
end

theorem Instr.preorder_eq (i : Instr) : i.preorder = i :: preorderAll i.body := by
  cases i <;> simp [Instr.preorder, Instr.body, preorderAll]

theorem preorderAll_cons (i : Instr) (is : List Instr) :
    preorderAll (i :: is) = i :: (preorderAll i.body ++ preorderAll is) := by
  rw [preorderAll, Instr.preorder_eq, List.cons_append]

theorem Instr.sizeOf_body_lt (i : Instr) : sizeOf i.body < 1 + sizeOf i := by
  cases i <;> simp [Instr.body] <;> omega

/-- Induction on a program: on the bodies of its instructions, and on what comes after them. -/
@[elab_as_elim]
theorem program_induction {motive : List Instr → Prop} (nil : motive [])
    (cons : ∀ i is, motive i.body → motive is → motive (i :: is)) (is : List Instr) :
    motive is := by
  match is with
  | [] => exact nil
  | i :: is => exact cons i is (program_induction nil cons i.body) (program_induction nil cons is)
termination_by sizeOf is
decreasing_by
  · have := i.sizeOf_body_lt
    simp only [List.cons.sizeOf_spec]
    omega
  · simp only [List.cons.sizeOf_spec]
    omega

/-- What lies within an instruction of a program lies within the program. -/
theorem preorderAll_body_subset {x : Instr} {is : List Instr} (hx : x ∈ preorderAll is) :
    preorderAll x.body ⊆ preorderAll is := by
  induction is using program_induction with
  | nil => cases hx
  | cons i is ihbody ih =>
    rw [preorderAll_cons] at hx ⊢
    refine List.Subset.trans ?_ (List.subset_cons_self ..)
    rcases List.mem_cons.1 hx with rfl | hx
    · exact List.subset_append_left _ _
    · rcases List.mem_append.1 hx with hx | hx
      · exact List.Subset.trans (ihbody hx) (List.subset_append_left _ _)
      · exact List.Subset.trans (ih hx) (List.subset_append_right _ _)

namespace Source

/-! ## Lines that open a block -/

/-- Whether a line opens a block: its first word is `repeat` or `if`, and it is no assignment to a
variable of that name. -/
def Line.opensBlock (line : Line) : Bool :=
  let words := Text.words line.content
  let keyword := Name.canonical (words.head?.getD [])
  !Line.isAssignment words && (keyword == "repeat" || keyword == "if")

def Statement.isHeader : Statement → Bool
  | .simple _ => false
  | .header _ => true

/-- The reading `x` of a line tells with `b` whether it is a header; if it is none, it is an
instruction of that line without a body. -/
def Line.Reads (line : Line) (b : Bool) (x : Except Error Statement) : Prop :=
  ∀ s, x = .ok s → s.isHeader = b ∧
    ∀ i, s = .simple i → i.line = some (line.number : Int) ∧ i.body = []

variable {line : Line}

theorem Line.reads_error (b : Bool) (e : Error) : line.Reads b (.error e) :=
  fun _ h => nomatch h

theorem Line.reads_simple {i : Instr} (hl : i.line = some (line.number : Int))
    (hb : i.body = []) : line.Reads false (.ok (.simple i)) := by
  intro s h
  cases h
  refine ⟨rfl, fun j hj => ?_⟩
  cases hj
  exact ⟨hl, hb⟩

theorem Line.reads_header (h : Header) : line.Reads true (.ok (.header h)) := by
  intro s hs
  cases hs
  exact ⟨rfl, nofun⟩

theorem Line.reads_bind {α : Type} {b : Bool} (x : Except Error α)
    {f : α → Except Error Statement} (hf : ∀ a, line.Reads b (f a)) :
    line.Reads b (x >>= f) := by
  cases x with
  | error e => exact line.reads_error b e
  | ok a => exact hf a

theorem Line.reads_declaration (ws : List (List Char)) :
    line.Reads false (line.declaration ws) := by
  unfold Line.declaration
  split
  · split
    · exact line.reads_error _ _
    · split
      · exact line.reads_error _ _
      · exact Line.reads_bind _ fun e => line.reads_simple rfl rfl
  · exact line.reads_error _ _

theorem Line.reads_assignment (name : List Char) : line.Reads false (line.assignment name) :=
  Line.reads_bind _ fun _ => line.reads_simple rfl rfl

theorem Line.reads_repetition : line.Reads true line.repetition := by
  refine Line.reads_bind _ fun header => ?_
  simp only
  split
  · exact line.reads_error _ _
  · exact Line.reads_bind _ fun e => line.reads_header _
  · split
    · exact line.reads_error _ _
    · exact Line.reads_bind _ fun e => line.reads_header _

theorem Line.reads_conditional : line.Reads true line.conditional := by
  refine Line.reads_bind _ fun header => ?_
  simp only
  split
  · exact line.reads_error _ _
  · exact Line.reads_bind _ fun e => line.reads_header _

theorem Line.reads_jump (inLoop : Bool) (keyword : String) {i : Instr}
    (hl : i.line = some (line.number : Int)) (hb : i.body = []) (ws : List (List Char)) :
    line.Reads false (line.jump inLoop keyword i ws) := by
  unfold Line.jump
  split
  · split
    · exact line.reads_simple hl hb
    · exact line.reads_error _ _
  · exact line.reads_error _ _

theorem Line.reads_movement (keyword : String) {instr : Expr → Instr}
    (h : ∀ e, (instr e).line = some (line.number : Int) ∧ (instr e).body = [])
    (ws : List (List Char)) : line.Reads false (line.movement keyword instr ws) := by
  unfold Line.movement
  split
  · exact Line.reads_bind _ fun e => line.reads_simple (h e).1 (h e).2
  · exact line.reads_error _ _

theorem Line.reads_penChange (ws : List (List Char)) : line.Reads false (line.penChange ws) := by
  unfold Line.penChange
  split
  · simp only
    split
    · exact line.reads_simple rfl rfl
    · split
      · exact line.reads_simple rfl rfl
      · exact line.reads_error _ _
  · exact line.reads_error _ _

theorem Line.reads_colorChange (ws : List (List Char)) :
    line.Reads false (line.colorChange ws) := by
  unfold Line.colorChange
  split
  · split
    · exact line.reads_simple rfl rfl
    · exact line.reads_error _ _
    · exact line.reads_error _ _
    · exact line.reads_error _ _
  · exact line.reads_error _ _

theorem resolve_eq_or (word : String) :
    Command.resolve word = word ∨ Command.resolve word ∈ Command.movements := by
  unfold Command.resolve
  split
  · exact .inl rfl
  · cases hf : Command.movements.find? fun m => word.toList.isPrefixOf m.toList with
    | none => exact .inl rfl
    | some m => exact .inr (List.mem_of_find?_eq_some hf)

/-- Only the movements have abbreviations. -/
theorem resolve_eq_iff {keyword word : String} (hk : keyword ∉ Command.movements)
    (hr : Command.resolve keyword = keyword) :
    Command.resolve word = keyword ↔ word = keyword := by
  constructor
  · intro h
    rcases resolve_eq_or word with hw | hw
    · exact hw.symm.trans h
    · exact absurd (h ▸ hw) hk
  · rintro rfl
    exact hr

/-- Blocks are opened by the keywords that stand for themselves. -/
theorem Line.opensBlock_eq (line : Line) :
    line.opensBlock = (!Line.isAssignment (Text.words line.content) &&
      (Command.resolve (Name.canonical ((Text.words line.content).head?.getD [])) == "repeat" ||
        Command.resolve (Name.canonical ((Text.words line.content).head?.getD [])) == "if")) := by
  have h (word : String) : (Command.resolve word == "repeat") = (word == "repeat") := by
    rw [Bool.eq_iff_iff, beq_iff_eq, beq_iff_eq]
    exact resolve_eq_iff (by decide) (by decide)
  have h' (word : String) : (Command.resolve word == "if") = (word == "if") := by
    rw [Bool.eq_iff_iff, beq_iff_eq, beq_iff_eq]
    exact resolve_eq_iff (by decide) (by decide)
  rw [h, h']
  rfl

/-- What a line is read as. -/
theorem Line.reads_statement (inLoop : Bool) (line : Line) :
    line.Reads line.opensBlock (line.statement inLoop) := by
  rw [Line.opensBlock_eq]
  unfold Line.statement
  simp only
  generalize Command.resolve (Name.canonical ((Text.words line.content).head?.getD [])) = keyword
  cases ha : Line.isAssignment (Text.words line.content) with
  | true =>
    split
    · exact line.reads_declaration _
    · exact line.reads_assignment _
  | false =>
    split
    · rename_i hv
      rw [beq_iff_eq] at hv
      subst hv
      exact line.reads_declaration _
    · rw [if_neg nofun]
      split
      · exact line.reads_repetition
      · exact line.reads_conditional
      · exact line.reads_jump _ _ rfl rfl _
      · exact line.reads_jump _ _ rfl rfl _
      · exact line.reads_movement _ (fun e => ⟨rfl, rfl⟩) _
      · exact line.reads_movement _ (fun e => ⟨rfl, rfl⟩) _
      · exact line.reads_movement _ (fun e => ⟨rfl, rfl⟩) _
      · exact line.reads_movement _ (fun e => ⟨rfl, rfl⟩) _
      · exact line.reads_penChange _
      · exact line.reads_colorChange _
      · exact line.reads_error _ _

/-! ## The lines of a block -/

theorem header_instr_line (h : Header) (n : Nat) (body : List Instr) :
    (h.instr n body).line = some (n : Int) := by
  cases h <;> rfl

theorem header_instr_body (h : Header) (n : Nat) (body : List Instr) :
    (h.instr n body).body = body := by
  cases h <;> rfl

theorem Line.below_append_after (line : Line) (rest : List Line) :
    line.below rest ++ line.after rest = rest :=
  List.takeWhile_append_dropWhile

/-- The instructions of a block stand for its lines, in order. -/
theorem preorderAll_block {inLoop : Bool} {lines : List Line} {is : List Instr}
    (h : block inLoop lines = .ok is) :
    (preorderAll is).map Instr.line = lines.map fun l => some (l.number : Int) := by
  fun_induction block inLoop lines generalizing is with
  | case1 =>
    cases h
    rfl
  | case2 => cases h
  | case3 => cases h
  | case4 inLoop line rest i hs is' hb ih =>
    cases h
    obtain ⟨hl, hbody⟩ := (line.reads_statement inLoop _ hs).2 i rfl
    rw [preorderAll_cons, hbody, List.map_cons, List.map_cons, hl, preorderAll, List.nil_append,
      ih hb]
  | case5 => cases h
  | case6 => cases h
  | case7 inLoop line rest hd hs body hb is' ha ih₁ ih₂ =>
    cases h
    rw [preorderAll_cons, header_instr_body, List.map_cons, List.map_cons, header_instr_line,
      List.map_append, ih₁ hb, ih₂ ha, ← List.map_append, line.below_append_after]

theorem Line.indent_lt_of_mem_below {line a : Line} {rest : List Line}
    (h : a ∈ line.below rest) : line.indent < a.indent := by
  have hall := List.all_takeWhile (p := fun l : Line => decide (line.indent < l.indent)) (l := rest)
  exact of_decide_eq_true (List.all_eq_true.1 hall a h)

/-- After the end of a block there is nothing more for the blocks inside it. -/
theorem Line.below_append_after_of_lt {line a : Line} (ha : line.indent < a.indent)
    (inner rest : List Line) : a.below (inner ++ line.after rest) = a.below inner := by
  have hnil : a.below (line.after rest) = [] := by
    cases h : line.after rest with
    | nil => rfl
    | cons b after =>
      have hb : ¬ line.indent < b.indent := of_decide_eq_false
        (Text.dropWhile_head (p := fun l : Line => decide (line.indent < l.indent)) h)
      exact List.takeWhile_cons_of_neg (by simp only [decide_eq_true_eq]; omega)
  unfold Line.below at hnil ⊢
  rw [List.takeWhile_append]
  split
  · rename_i hl
    rw [hnil, List.append_nil]
    exact ((List.takeWhile_sublist _).eq_of_length hl).symm
  · rfl

/-- The body of an instruction stands for the lines below its own that belong to its block. -/
theorem exists_below {inLoop : Bool} {lines : List Line} {is : List Instr}
    (h : block inLoop lines = .ok is) {x : Instr} (hx : x ∈ preorderAll is) :
    ∃ above line rest, lines = above ++ line :: rest ∧ x.line = some (line.number : Int) ∧
      (preorderAll x.body).map Instr.line =
        (if line.opensBlock then line.below rest else []).map fun l => some (l.number : Int) := by
  fun_induction block inLoop lines generalizing is x with
  | case1 =>
    cases h
    cases hx
  | case2 => cases h
  | case3 => cases h
  | case4 inLoop line rest i hs is' hb ih =>
    cases h
    obtain ⟨hopen, hi⟩ := line.reads_statement inLoop _ hs
    obtain ⟨hl, hbody⟩ := hi i rfl
    rw [preorderAll_cons, hbody] at hx
    rcases List.mem_cons.1 hx with rfl | hx
    · refine ⟨[], line, rest, rfl, hl, ?_⟩
      rw [hbody, ← hopen]
      rfl
    · obtain ⟨above, a, rest', rfl, ha, hbelow⟩ := ih hb hx
      exact ⟨line :: above, a, rest', rfl, ha, hbelow⟩
  | case5 => cases h
  | case6 => cases h
  | case7 inLoop line rest hd hs body hb is' ha ih₁ ih₂ =>
    cases h
    have hopen : true = line.opensBlock := (line.reads_statement inLoop _ hs).1
    rw [preorderAll_cons, header_instr_body] at hx
    rcases List.mem_cons.1 hx with rfl | hx
    · refine ⟨[], line, rest, rfl, header_instr_line .., ?_⟩
      rw [header_instr_body, ← hopen]
      exact preorderAll_block hb
    · rcases List.mem_append.1 hx with hx | hx
      · -- Inside the body: the block of `a` ends before that of `line` or with it.
        obtain ⟨above, a, rest', hbelow, hxl, hxb⟩ := ih₁ hb hx
        have ha' : a ∈ line.below rest := by
          rw [hbelow]
          exact List.mem_append_right _ List.mem_cons_self
        have hlt := Line.indent_lt_of_mem_below ha'
        have hrest : above ++ a :: (rest' ++ line.after rest) = rest := by
          rw [← List.cons_append, ← List.append_assoc, ← hbelow, line.below_append_after]
        refine ⟨line :: above, a, rest' ++ line.after rest, ?_, hxl, ?_⟩
        · rw [List.cons_append, hrest]
        · rw [Line.below_append_after_of_lt hlt]
          exact hxb
      · obtain ⟨above, a, rest', hafter, hxl, hxb⟩ := ih₂ ha hx
        refine ⟨line :: (line.below rest ++ above), a, rest', ?_, hxl, hxb⟩
        rw [List.cons_append, List.append_assoc, ← hafter, line.below_append_after]

/-- A line after `line` belongs to its block when no line up to it leaves the block. -/
theorem Line.mem_below_iff {line b : Line} {rest : List Line}
    (hrest : rest.Pairwise (·.number < ·.number)) (hb : b ∈ rest) :
    b ∈ line.below rest ↔ ∀ k ∈ rest, k.number ≤ b.number → line.indent < k.indent := by
  induction rest with
  | nil => cases hb
  | cons c rest ih =>
    obtain ⟨hc, hrest⟩ := List.pairwise_cons.1 hrest
    have hcb : c.number ≤ b.number := by
      rcases List.mem_cons.1 hb with rfl | hb
      · exact Nat.le_refl _
      · exact Nat.le_of_lt (hc b hb)
    unfold Line.below at ih ⊢
    rw [List.takeWhile_cons]
    split
    · rename_i hlt
      rw [decide_eq_true_eq] at hlt
      rcases List.mem_cons.1 hb with rfl | hmem
      · refine iff_of_true List.mem_cons_self fun k hk hle => ?_
        rcases List.mem_cons.1 hk with rfl | hk
        · exact hlt
        · have := hc k hk
          omega
      · have hne : b ≠ c := by
          rintro rfl
          exact Nat.lt_irrefl _ (hc b hmem)
        rw [List.mem_cons, or_iff_right hne, ih hrest hmem]
        refine ⟨fun h k hk hle => ?_, fun h k hk => h k (List.mem_cons_of_mem _ hk)⟩
        rcases List.mem_cons.1 hk with rfl | hk
        · exact hlt
        · exact h k hk hle
    · rename_i hlt
      rw [decide_eq_true_eq] at hlt
      exact iff_of_false List.not_mem_nil fun h => hlt (h c List.mem_cons_self hcb)

/-! ## The layout of a text -/

/-- The lines of a text that hold a statement. -/
def statementLines (source : String) : List Line :=
  (linesOf source.toList).filter Line.isStatement

theorem pairwise_statementLines (source : String) :
    (statementLines source).Pairwise (·.number < ·.number) := by
  refine List.Pairwise.filter _ ?_
  rw [List.pairwise_iff_getElem]
  intro i j hi hj hij
  simp only [linesOf, List.getElem_mapIdx, Line.ofRaw]
  omega

theorem nodup_numbers (source : String) :
    ((statementLines source).map fun l => some (l.number : Int)).Nodup := by
  refine List.Pairwise.map _ ?_ (pairwise_statementLines source)
  intro a b hab heq
  have := Option.some.inj heq
  omega

/-- In a list of lines in order, those after a line are those with larger numbers. -/
theorem mem_rest_iff {above rest : List Line} {a : Line}
    (h : (above ++ a :: rest).Pairwise (·.number < ·.number)) {k : Line}
    (hk : k ∈ above ++ a :: rest) : k ∈ rest ↔ a.number < k.number := by
  obtain ⟨-, hrest, habove⟩ := List.pairwise_append.1 h
  obtain ⟨harest, -⟩ := List.pairwise_cons.1 hrest
  refine ⟨harest k, fun hlt => ?_⟩
  rcases List.mem_append.1 hk with hk | hk
  · have := habove k hk a List.mem_cons_self
    omega
  · rcases List.mem_cons.1 hk with rfl | hk
    · omega
    · exact hk

/-- **A program is laid out as its text.** Its instructions, each before those inside it, stand for
the lines with a statement, each line once and in order. Of two such lines, the instruction of the
later one lies within the body of that of the earlier one exactly when the earlier one opens a block
and all lines with a statement from there on down to the later one are indented more deeply. -/
theorem parse_layout {source : String} {program : List Instr}
    (h : parse source = .ok program) :
    (preorderAll program).map Instr.line =
      (statementLines source).map (fun l => some (l.number : Int)) ∧
    (statementLines source).Pairwise (·.number < ·.number) ∧
    ∀ a ∈ statementLines source, ∀ b ∈ statementLines source, a.number < b.number →
      ∀ x ∈ preorderAll program, x.line = some (a.number : Int) →
      ∀ y ∈ preorderAll program, y.line = some (b.number : Int) →
      (y ∈ preorderAll x.body ↔ a.opensBlock ∧
        ∀ k ∈ statementLines source, a.number < k.number → k.number ≤ b.number →
          a.indent < k.indent) := by
  have hlines : (preorderAll program).map Instr.line =
      (statementLines source).map (fun l => some (l.number : Int)) := preorderAll_block h
  have hsorted := pairwise_statementLines source
  have hnodup := nodup_numbers source
  refine ⟨hlines, hsorted, fun a ha b hb hab x hx hxa y hy hyb => ?_⟩
  obtain ⟨above, a', rest, hsplit, hxa', hbody⟩ :
    ∃ above line rest, statementLines source = above ++ line :: rest ∧ _ := exists_below h hx
  rw [hsplit] at ha hb hsorted hnodup ⊢
  have hinj {k l : Line} (hk : k ∈ above ++ a' :: rest) (hl : l ∈ above ++ a' :: rest)
      (h : some (k.number : Int) = some (l.number : Int)) : k = l :=
    List.inj_on_of_nodup_map hnodup hk hl h
  obtain rfl : a' = a :=
    hinj (List.mem_append_right _ List.mem_cons_self) ha (hxa'.symm.trans hxa)
  have hbrest : b ∈ rest := (mem_rest_iff hsorted hb).2 hab
  -- Instructions are told apart by their lines, as lines are by their numbers.
  have hmem : y ∈ preorderAll x.body ↔ y.line ∈ (preorderAll x.body).map Instr.line := by
    refine ⟨List.mem_map_of_mem, fun hm => ?_⟩
    obtain ⟨z, hz, hzy⟩ := List.mem_map.1 hm
    rw [hsplit] at hlines
    rw [← hlines] at hnodup
    rwa [← List.inj_on_of_nodup_map hnodup (preorderAll_body_subset hx hz) hy hzy]
  have hblock : some (b.number : Int) ∈ (a'.below rest).map (fun l => some (l.number : Int)) ↔
      b ∈ a'.below rest := by
    refine ⟨fun hm => ?_, List.mem_map_of_mem⟩
    obtain ⟨l, hl, hlb⟩ := List.mem_map.1 hm
    have hl' : l ∈ rest := (List.takeWhile_sublist _).subset hl
    rwa [← hinj (List.mem_append_right _ (List.mem_cons_of_mem _ hl')) hb hlb]
  have hsorted' := (List.pairwise_cons.1 (List.pairwise_append.1 hsorted).2.1).2
  rw [hmem, hbody, hyb]
  cases a'.opensBlock with
  | false => simp
  | true =>
    rw [if_pos rfl, hblock, Line.mem_below_iff hsorted' hbrest]
    simp only [true_and]
    refine ⟨fun h k hk hak hkb => h k ((mem_rest_iff hsorted hk).2 hak) hkb, fun h k hk hkb => ?_⟩
    have hk' := List.mem_append_right above (List.mem_cons_of_mem a' hk)
    exact h k hk' ((mem_rest_iff hsorted hk').1 hk) hkb

/-- The body of a loop may be indented irregularly, and a comment does not end it. -/
theorem parse_layout_irregular :
    ∃ program, parse "repeat 2:\n   f 1\n# aside\n  l x\nb 4" = .ok program ∧
      (preorderAll program).map Instr.line = [some 1, some 2, some 4, some 5] ∧
      ∃ x ∈ preorderAll program, x.line = some 1 ∧
        ∃ y ∈ preorderAll program, y.line = some 4 ∧ y ∈ preorderAll x.body := by
  have hok : (parse "repeat 2:\n   f 1\n# aside\n  l x\nb 4").isOk = true := by decide +kernel
  have hlines : statementLines "repeat 2:\n   f 1\n# aside\n  l x\nb 4" =
      [.ofRaw 1 "repeat 2:".toList, .ofRaw 2 "   f 1".toList, .ofRaw 4 "  l x".toList,
        .ofRaw 5 "b 4".toList] := by
    decide +kernel
  cases h : parse "repeat 2:\n   f 1\n# aside\n  l x\nb 4" with
  | error e =>
    rw [h] at hok
    cases hok
  | ok program =>
    obtain ⟨hmap, -, hnest⟩ := parse_layout h
    rw [hlines] at hmap hnest
    refine ⟨program, rfl, hmap, ?_⟩
    have hfind : ∀ n ∈ [some 1, some 2, some 4, some 5],
        ∃ x ∈ preorderAll program, x.line = n := by
      intro n hn
      exact List.mem_map.1 (hmap ▸ hn)
    obtain ⟨x, hx, hx₁⟩ := hfind (some 1) (by decide)
    obtain ⟨y, hy, hy₄⟩ := hfind (some 4) (by decide)
    refine ⟨x, hx, hx₁, y, hy, hy₄, ?_⟩
    exact (hnest _ (.head _) _ (.tail _ (.tail _ (.head _))) (by decide) x hx hx₁ y hy hy₄).2
      (by decide +kernel)

end Source

end PixelTurtle
