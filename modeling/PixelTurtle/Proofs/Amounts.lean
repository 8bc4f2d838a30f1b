import PixelTurtle.Proofs.Proper

/-!
# The amounts of color commands

A color command adds or sets numbers that stand in the program. A program built by hand may hold
any numbers there; one that was read from a text holds finite ones only.

* `FiniteAmounts` says this of a program.
* `Source.hasFiniteAmounts_block` follows the reading of a block, and `finiteAmounts_of_parse` is
  the result for texts.
-/

namespace PixelTurtle

/-- A number that is given is finite. -/
def Amount.IsFinite : Amount → Prop
  | .lit x => x.isFinite = true
  | .var _ => True

/-- The number that is added or set is finite, if it is given. -/
def HsvParam.IsFinite : HsvParam → Prop
  | .offset _ a => a.IsFinite
  | .absolute a => a.IsFinite
  | _ => True

/-- All numbers in a color command are finite. -/
def Instr.HasFiniteAmounts : Instr → Prop
  | .hsv h s v _ => h.IsFinite ∧ s.IsFinite ∧ v.IsFinite
  | _ => True

instance : DecidablePred Amount.IsFinite
  | .lit x => inferInstanceAs (Decidable (x.isFinite = true))
  | .var _ => inferInstanceAs (Decidable True)

instance : DecidablePred HsvParam.IsFinite
  | .ignore => inferInstanceAs (Decidable True)
  | .offset _ a => inferInstanceAs (Decidable a.IsFinite)
  | .absolute a => inferInstanceAs (Decidable a.IsFinite)
  | .foreign _ => inferInstanceAs (Decidable True)

instance : DecidablePred Instr.HasFiniteAmounts
  | .hsv h s v _ => inferInstanceAs (Decidable (h.IsFinite ∧ s.IsFinite ∧ v.IsFinite))
  | .move .. | .turn .. | .pen .. | .assign .. | .loop .. | .branch .. | .breakLoop _
  | .continueLoop _ | .foreign _ => inferInstanceAs (Decidable True)

/-- All numbers in the color commands of the program are finite. -/
def FiniteAmounts (program : List Instr) : Prop :=
  ∀ i ∈ preorderAll program, i.HasFiniteAmounts

instance : DecidablePred FiniteAmounts := fun program =>
  inferInstanceAs (Decidable (∀ i ∈ preorderAll program, i.HasFiniteAmounts))

/-! ## Parameters that were read -/

theorem Amount.isFinite_of_parse {cs : List Char} {a : Amount}
    (h : Amount.parseUnsigned? cs = some a) : a.IsFinite := by
  unfold Amount.parseUnsigned? at h
  split_ifs at h
  · cases h
    trivial
  · obtain ⟨x, hx, rfl⟩ := Option.map_eq_some_iff.1 h
    obtain ⟨n, -, hn⟩ := Option.bind_eq_some_iff.1 hx
    dsimp only at hn
    split_ifs at hn with hfinite
    cases hn
    exact hfinite

theorem HsvParam.isFinite_of_parseOffset {sign : UnaryOp} {raw body : List Char} {q : HsvParam}
    (h : parseOffset sign raw body = .ok q) : q.IsFinite := by
  unfold parseOffset at h
  split at h
  · rename_i a ha
    cases h
    exact Amount.isFinite_of_parse ha
  · cases h

theorem HsvParam.isFinite_of_parse {cs : List Char} {q : HsvParam} (h : parse cs = .ok q) :
    q.IsFinite := by
  unfold parse at h
  split at h
  · cases h
  · cases h
    trivial
  · exact isFinite_of_parseOffset h
  · exact isFinite_of_parseOffset h
  · split at h
    · rename_i a ha
      cases h
      exact Amount.isFinite_of_parse ha
    · cases h

namespace Source

/-! ## Lines -/

/-- The statement is no color command with a number that is not finite. -/
def Statement.HasFiniteAmounts : Statement → Prop
  | .simple i => i.HasFiniteAmounts
  | .header _ => True

variable {inLoop : Bool} {line : Line}

theorem Line.amounts_colorChange (ws : List (List Char)) :
    Yields Statement.HasFiniteAmounts (line.colorChange ws) := by
  unfold Line.colorChange
  split
  · split
    · rename_i hh hs hv
      exact yields_ok ⟨HsvParam.isFinite_of_parse hh, HsvParam.isFinite_of_parse hs,
        HsvParam.isFinite_of_parse hv⟩
    · exact yields_error _
    · exact yields_error _
    · exact yields_error _
  · exact yields_error _

/-- A statement that starts with an expression is no color command. -/
theorem amounts_bind {x : Except Error Expr} {f : Expr → Statement}
    (h : ∀ e, (f e).HasFiniteAmounts) :
    Yields Statement.HasFiniteAmounts (x >>= fun e => .ok (f e)) :=
  yields_bind (yields_true x) fun e _ => yields_ok (h e)

theorem Line.amounts_declaration (ws : List (List Char)) :
    Yields Statement.HasFiniteAmounts (line.declaration ws) := by
  unfold Line.declaration
  split
  · split
    · exact yields_error _
    · split
      · exact yields_error _
      · exact amounts_bind fun _ => trivial
  · exact yields_error _

theorem Line.amounts_repetition : Yields Statement.HasFiniteAmounts line.repetition := by
  refine yields_bind (yields_true _) fun header _ => ?_
  simp only
  split
  · exact yields_error _
  · exact amounts_bind fun _ => trivial
  · split
    · exact yields_error _
    · exact amounts_bind fun _ => trivial

theorem Line.amounts_conditional : Yields Statement.HasFiniteAmounts line.conditional := by
  refine yields_bind (yields_true _) fun header _ => ?_
  simp only
  split
  · exact yields_error _
  · exact amounts_bind fun _ => trivial

theorem Line.amounts_jump {keyword : String} {i : Instr} (hi : i.HasFiniteAmounts)
    (ws : List (List Char)) :
    Yields Statement.HasFiniteAmounts (line.jump inLoop keyword i ws) := by
  unfold Line.jump
  split
  · split
    · exact yields_ok hi
    · exact yields_error _
  · exact yields_error _

theorem Line.amounts_movement {keyword : String} {instr : Expr → Instr}
    (hi : ∀ e, (instr e).HasFiniteAmounts) (ws : List (List Char)) :
    Yields Statement.HasFiniteAmounts (line.movement keyword instr ws) := by
  unfold Line.movement
  split
  · exact amounts_bind hi
  · exact yields_error _

theorem Line.amounts_penChange (ws : List (List Char)) :
    Yields Statement.HasFiniteAmounts (line.penChange ws) := by
  unfold Line.penChange
  split
  · simp only
    split
    · exact yields_ok trivial
    · split
      · exact yields_ok trivial
      · exact yields_error _
  · exact yields_error _

theorem Line.amounts_statement :
    Yields Statement.HasFiniteAmounts (line.statement inLoop) := by
  unfold Line.statement
  simp only
  split
  · exact line.amounts_declaration _
  · split
    · exact amounts_bind fun _ => trivial
    · split
      · exact line.amounts_repetition
      · exact line.amounts_conditional
      · exact line.amounts_jump (by trivial) _
      · exact line.amounts_jump (by trivial) _
      · exact line.amounts_movement (fun _ => by trivial) _
      · exact line.amounts_movement (fun _ => by trivial) _
      · exact line.amounts_movement (fun _ => by trivial) _
      · exact line.amounts_movement (fun _ => by trivial) _
      · exact line.amounts_penChange _
      · exact line.amounts_colorChange _
      · exact yields_error _

/-! ## Blocks -/

theorem hasFiniteAmounts_block {lines : List Line} {is : List Instr}
    (h : block inLoop lines = .ok is) : ∀ i ∈ preorderAll is, i.HasFiniteAmounts := by
  fun_induction block inLoop lines generalizing is with
  | case1 =>
    cases h
    exact List.forall_mem_nil _
  | case2 => cases h
  | case3 => cases h
  | case4 inLoop line rest i hs is' hb ih =>
    cases h
    have hbody := ((line.reads_statement inLoop _ hs).2 i rfl).2
    rw [preorderAll_cons, hbody]
    exact List.forall_mem_cons.2 ⟨line.amounts_statement _ hs, ih hb⟩
  | case5 => cases h
  | case6 => cases h
  | case7 inLoop line rest hd hs body hb is' ha ih₁ ih₂ =>
    cases h
    rw [preorderAll_cons, header_instr_body]
    refine List.forall_mem_cons.2 ⟨?_, List.forall_mem_append.2 ⟨ih₁ hb, ih₂ ha⟩⟩
    cases hd <;> trivial

end Source

/-- **The amounts of a program that was read are finite.** -/
theorem finiteAmounts_of_parse {source : String} {program : List Instr}
    (h : Source.parse source = .ok program) : FiniteAmounts program :=
  Source.hasFiniteAmounts_block h

end PixelTurtle
