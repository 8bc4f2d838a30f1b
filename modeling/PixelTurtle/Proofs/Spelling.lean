import Mathlib.Data.List.TakeWhile
import PixelTurtle.Proofs.Printer

/-!
# Characters and words

Names and literals are made of letters, digits, underscores and points. None of these is a blank,
ends a line, starts a comment or has another meaning of its own, so a name or a literal is read as
it is written.

* `isAtom` are the characters of names and literals.
* `canonical_of_isName` says that names are written as they are kept.
* `IsWord.words_append`, `trim_eq_self` and `stripComment_append` say how texts come apart.
-/

namespace PixelTurtle

/-! ## Characters -/

/-- The characters of names and literals. -/
def isAtom (c : Char) : Bool :=
  Name.isPart c || Text.isDecimal c || c == '.'

theorem isUpper_iff {c : Char} : c.isUpper = true ↔ 65 ≤ c.toNat ∧ c.toNat ≤ 90 :=
  decide_eq_true_iff

theorem isLower_iff {c : Char} : c.isLower = true ↔ 97 ≤ c.toNat ∧ c.toNat ≤ 122 := by
  show (decide (97 ≤ c.toNat) && decide (c.toNat ≤ 122)) = true ↔ _
  rw [Bool.and_eq_true, decide_eq_true_iff, decide_eq_true_iff]

theorem isDigit_iff {c : Char} : c.isDigit = true ↔ 48 ≤ c.toNat ∧ c.toNat ≤ 57 := by
  show (decide (48 ≤ c.toNat) && decide (c.toNat ≤ 57)) = true ↔ _
  rw [Bool.and_eq_true, decide_eq_true_iff, decide_eq_true_iff]

/-- The code of a character that starts a name. -/
theorem isStart_iff {c : Char} : Name.isStart c = true ↔
    (65 ≤ c.toNat ∧ c.toNat ≤ 90) ∨ (97 ≤ c.toNat ∧ c.toNat ≤ 122) ∨ c = '_' := by
  show (c.isUpper || c.isLower || c == '_') = true ↔ _
  rw [Bool.or_eq_true, Bool.or_eq_true, isUpper_iff, isLower_iff, beq_iff_eq, or_assoc]

/-- The code of a character of a name. -/
theorem isPart_iff {c : Char} : Name.isPart c = true ↔
    Name.isStart c = true ∨ (48 ≤ c.toNat ∧ c.toNat ≤ 57) := by
  show (c.isAlpha || c.isDigit || c == '_') = true ↔ (c.isAlpha || c == '_') = true ∨ _
  rw [Bool.or_eq_true, Bool.or_eq_true, Bool.or_eq_true, isDigit_iff]
  tauto

theorem isPart_of_isStart {c : Char} (h : Name.isStart c = true) : Name.isPart c = true :=
  isPart_iff.2 (.inl h)

theorem toNat_of_isStart {c : Char} (h : Name.isStart c = true) :
    (65 ≤ c.toNat ∧ c.toNat ≤ 90) ∨ c.toNat = 95 ∨ (97 ≤ c.toNat ∧ c.toNat ≤ 122) := by
  rcases isStart_iff.1 h with h | h | rfl
  · exact .inl h
  · exact .inr (.inr h)
  · exact .inr (.inl rfl)

theorem toNat_of_isPart {c : Char} (h : Name.isPart c = true) :
    (48 ≤ c.toNat ∧ c.toNat ≤ 57) ∨ (65 ≤ c.toNat ∧ c.toNat ≤ 90) ∨ c.toNat = 95 ∨
      (97 ≤ c.toNat ∧ c.toNat ≤ 122) := by
  rcases isPart_iff.1 h with h | h
  · exact .inr (toNat_of_isStart h)
  · exact .inl h

/-- The code of a digit. -/
theorem toNat_of_isDecimal {c : Char} (h : Text.isDecimal c = true) :
    (48 ≤ c.toNat ∧ c.toNat ≤ 57) ∨
      128 ≤ c.toNat ∧ ∃ z ∈ Text.scriptZeros, z ≤ c.toNat ∧ c.toNat ≤ z + 9 := by
  simp only [Text.isDecimal, Text.decimalValue?] at h
  split at h
  · split at h
    · rename_i hd
      simp only [Bool.and_eq_true, decide_eq_true_eq] at hd
      exact .inl hd
    · cases h
  · rw [Option.isSome_map, List.find?_isSome] at h
    obtain ⟨z, hz, hc⟩ := h
    simp only [Bool.and_eq_true, decide_eq_true_eq] at hc
    exact .inr ⟨by omega, z, hz, hc⟩

theorem isBlank_script_digit : ∀ z ∈ Text.scriptZeros, ∀ d < 10,
    Text.isBlank (Char.ofNat (z + d)) = false := by
  decide +kernel

theorem isBlank_of_isDecimal {c : Char} (h : Text.isDecimal c = true) :
    Text.isBlank c = false := by
  rcases toNat_of_isDecimal h with hc | ⟨-, z, hz, hle, hge⟩
  · simp only [Text.isBlank]
    simp
    omega
  · have := isBlank_script_digit z hz (c.toNat - z) (by omega)
    rwa [Nat.add_sub_cancel' hle, Char.ofNat_toNat] at this

theorem isBlank_of_isPart {c : Char} (h : Name.isPart c = true) : Text.isBlank c = false := by
  have := toNat_of_isPart h
  simp only [Text.isBlank]
  simp
  omega

theorem isAtom_of_isPart {c : Char} (h : Name.isPart c = true) : isAtom c = true := by
  rw [isAtom, h]
  rfl

/-- Digits and points are characters of literals. -/
theorem isAtom_of_isLiteral {cs : List Char} (h : IsLiteral cs) {c : Char} (hc : c ∈ cs) :
    isAtom c = true := by
  rcases h.1 c hc with hd | rfl
  · rw [isAtom, hd, Bool.or_true]
    rfl
  · rfl

theorem isBlank_of_isAtom {c : Char} (h : isAtom c = true) : Text.isBlank c = false := by
  simp only [isAtom, Bool.or_eq_true, beq_iff_eq] at h
  rcases h with (h | h) | rfl
  · exact isBlank_of_isPart h
  · exact isBlank_of_isDecimal h
  · rfl

/-- A character that is none of names and literals. -/
theorem ne_of_isAtom {c d : Char} (h : isAtom c = true) (hd : isAtom d = false) : c ≠ d := by
  rintro rfl
  rw [h] at hd
  cases hd

theorem isStart_of_isDecimal {c : Char} (h : Text.isDecimal c = true) :
    Name.isStart c = false := by
  by_contra hs
  rw [Bool.not_eq_false] at hs
  have := toNat_of_isStart hs
  rcases toNat_of_isDecimal h with hc | ⟨hc, -⟩
  · omega
  · omega

/-! ## Names and literals -/

theorem lowerFrom_of_isPart {cs : List Char} (h : ∀ c ∈ cs, Name.isPart c = true ∧ ¬ c.isUpper)
    (afterLetter : Bool) : Text.lowerFrom afterLetter cs = cs := by
  induction cs generalizing afterLetter with
  | nil => rfl
  | cons c cs ih =>
    obtain ⟨hc, hu⟩ := h c List.mem_cons_self
    have hn : c.toNat < 0x80 := by
      have := toNat_of_isPart hc
      omega
    have hl : c.toLower = c := dif_neg fun hd => hu (isUpper_iff.2 hd)
    rw [Text.lowerFrom, if_pos hn, hl, ih fun d hd => h d (List.mem_cons_of_mem _ hd)]

theorem isPart_of_mem {name : List Char} (h : Name.isIdentifier name = true) {c : Char}
    (hc : c ∈ name) : Name.isPart c = true := by
  cases name with
  | nil => cases hc
  | cons d name =>
    simp only [Name.isIdentifier, Bool.and_eq_true, List.all_eq_true] at h
    rcases List.mem_cons.1 hc with rfl | hc
    · exact isPart_of_isStart h.1
    · exact h.2 c hc

section Name

variable {name : String}

/-- A name in lower case is kept as it is. -/
theorem canonical_of_isName (h : IsName name) : Name.canonical name.toList = name := by
  rw [Name.canonical, Text.lower, lowerFrom_of_isPart fun c hc => ⟨isPart_of_mem h.1 hc, h.2 c hc⟩,
    String.ofList_toList]

theorem isAtom_of_isName (h : IsName name) : ∀ c ∈ name.toList, isAtom c = true :=
  fun _ hc => isAtom_of_isPart (isPart_of_mem h.1 hc)

theorem toList_ne_nil_of_isName (h : IsName name) : name.toList ≠ [] := by
  intro hn
  have := h.1
  rw [hn] at this
  cases this

end Name

section Literal

variable {lit : Float → List Char} {x : Float}

theorem Spells.isAtom (h : Spells lit x) : ∀ c ∈ lit x, isAtom c = true :=
  fun _ hc => isAtom_of_isLiteral h.1 hc

/-- The value of a literal is that of its numeral. -/
theorem Spells.exists_numeral (h : Spells lit x) :
    ∃ m, Number.Numeral.parse? (lit x) = some m ∧ m.toFloat = x := by
  obtain ⟨m, hm, hx⟩ := Option.bind_eq_some_iff.1 h.2
  refine ⟨m, hm, ?_⟩
  simp only at hx
  split at hx
  · exact Option.some.inj hx
  · cases hx

theorem Spells.ne_nil (h : Spells lit x) : lit x ≠ [] := by
  intro hn
  obtain ⟨m, hm, -⟩ := h.exists_numeral
  rw [hn] at hm
  cases hm

/-- A point alone has no value. -/
theorem Spells.ne_point (h : Spells lit x) : lit x ≠ ['.'] := by
  intro hn
  obtain ⟨m, hm, -⟩ := h.exists_numeral
  have hnone : Number.Numeral.parse? ['.'] = none := by decide
  rw [hn, hnone] at hm
  cases hm

theorem Spells.isStart_head (h : Spells lit x) {c : Char} {cs : List Char}
    (hc : lit x = c :: cs) : Name.isStart c = false := by
  rcases h.1.1 c (hc ▸ List.mem_cons_self) with hd | rfl
  · exact isStart_of_isDecimal hd
  · rfl

theorem Spells.isIdentifier_eq_false (h : Spells lit x) :
    Name.isIdentifier (lit x) = false := by
  cases hc : lit x with
  | nil => rfl
  | cons c cs => rw [Name.isIdentifier, h.isStart_head hc, Bool.false_and]

end Literal

/-! ## Trimmed texts and words -/

theorem takeWhile_append_stops {α : Type} {p : α → Bool} {l tail : List α}
    (hl : ∀ a ∈ l, p a = true) (ht : ∀ a ∈ tail.head?, p a = false) :
    (l ++ tail).takeWhile p = l := by
  rw [List.takeWhile_append_of_pos hl]
  cases tail with
  | nil => exact List.append_nil l
  | cons a tail =>
    rw [List.takeWhile_cons_of_neg (by rw [ht a rfl]; exact Bool.false_ne_true), List.append_nil]

theorem dropWhile_append_stops {α : Type} {p : α → Bool} {l tail : List α}
    (hl : ∀ a ∈ l, p a = true) (ht : ∀ a ∈ tail.head?, p a = false) :
    (l ++ tail).dropWhile p = tail := by
  have h := List.takeWhile_append_dropWhile (p := p) (l := l ++ tail)
  rw [takeWhile_append_stops hl ht] at h
  exact List.append_cancel_left h

section Text

variable {cs w rest : List Char}

/-- A text that starts and ends with other characters than blanks. -/
structure Trimmed (cs : List Char) : Prop where
  head : ∀ c ∈ cs.head?, Text.isBlank c = false
  last : ∀ c ∈ cs.getLast?, Text.isBlank c = false

theorem trimLeft_eq_self (h : ∀ c ∈ cs.head?, Text.isBlank c = false) :
    Text.trimLeft cs = cs := by
  cases cs with
  | nil => rfl
  | cons c cs =>
    rw [Text.trimLeft, List.dropWhile_cons_of_neg]
    rw [h c rfl]
    exact Bool.false_ne_true

theorem trimRight_eq_self (h : ∀ c ∈ cs.getLast?, Text.isBlank c = false) :
    Text.trimRight cs = cs := by
  rw [← List.head?_reverse] at h
  have := trimLeft_eq_self h
  rw [Text.trimLeft] at this
  rw [Text.trimRight, this, List.reverse_reverse]

theorem trim_eq_self (h : Trimmed cs) : Text.trim cs = cs := by
  rw [Text.trim, trimLeft_eq_self h.head, trimRight_eq_self h.last]

theorem trimmed_of_isAtom (h : ∀ c ∈ cs, isAtom c = true) : Trimmed cs :=
  ⟨fun c hc => isBlank_of_isAtom (h c (List.mem_of_head? hc)),
    fun c hc => isBlank_of_isAtom (h c (List.mem_of_getLast? hc))⟩

theorem trimLeft_blank (cs : List Char) : Text.trimLeft (' ' :: cs) = Text.trimLeft cs := rfl

/-- A text without blanks. -/
structure IsWord (w : List Char) : Prop where
  ne_nil : w ≠ []
  isBlank : ∀ c ∈ w, Text.isBlank c = false

instance : DecidablePred IsWord := fun w =>
  @decidable_of_iff _ (w ≠ [] ∧ ∀ c ∈ w, Text.isBlank c = false)
    ⟨fun ⟨h₁, h₂⟩ => ⟨h₁, h₂⟩, fun ⟨h₁, h₂⟩ => ⟨h₁, h₂⟩⟩
    (@instDecidableAnd _ _ inferInstance (List.decidableBAll _ w))

theorem isWord_of_isAtom (hne : w ≠ []) (h : ∀ c ∈ w, isAtom c = true) : IsWord w :=
  ⟨hne, fun c hc => isBlank_of_isAtom (h c hc)⟩

theorem IsWord.not_isBlank (h : IsWord w) : ∀ c ∈ w, (!Text.isBlank c) = true := by
  intro c hc
  rw [h.isBlank c hc]
  rfl

theorem IsWord.word_append (h : IsWord w) (rest : List Char) :
    Text.word (w ++ ' ' :: rest) = w := by
  rw [Text.word, List.takeWhile_append_of_pos h.not_isBlank]
  exact List.append_nil w

theorem IsWord.afterWord_append (h : IsWord w) (rest : List Char) :
    Text.afterWord (w ++ ' ' :: rest) = ' ' :: rest := by
  rw [Text.afterWord, List.dropWhile_append_of_pos h.not_isBlank]
  rfl

theorem words_nil : Text.words [] = [] := by
  rw [Text.words]
  rfl

theorem words_blank (cs : List Char) : Text.words (' ' :: cs) = Text.words cs := by
  rw [Text.words, Text.words, trimLeft_blank]

/-- A text that starts with no blank has a first word. -/
theorem words_cons {c : Char} (hc : Text.isBlank c = false) (cs : List Char) :
    Text.words (c :: cs) =
      Text.word (c :: cs) :: Text.words (Text.afterWord (c :: cs)) := by
  have ht : Text.trimLeft (c :: cs) = c :: cs := trimLeft_eq_self (by rintro d ⟨⟩; exact hc)
  rw [Text.words]
  split
  · rename_i h
    rw [ht] at h
    cases h
  · rename_i h
    rw [ht] at h
    cases h
    rfl

/-- A word and a blank come off the front of a text. -/
theorem IsWord.words_append (h : IsWord w) (rest : List Char) :
    Text.words (w ++ ' ' :: rest) = w :: Text.words rest := by
  have h₁ := h.word_append rest
  have h₂ := h.afterWord_append rest
  cases w with
  | nil => exact absurd rfl h.ne_nil
  | cons c w =>
    rw [List.cons_append] at h₁ h₂ ⊢
    rw [words_cons (h.isBlank c List.mem_cons_self), h₁, h₂, words_blank]

theorem IsWord.words_eq (h : IsWord w) : Text.words w = [w] := by
  have h₁ : Text.word w = w := List.takeWhile_eq_self_iff.2 h.not_isBlank
  have h₂ : Text.afterWord w = [] := List.dropWhile_eq_nil_iff.2 h.not_isBlank
  cases w with
  | nil => exact absurd rfl h.ne_nil
  | cons c w => rw [words_cons (h.isBlank c List.mem_cons_self), h₁, h₂, words_nil]

/-- A text that can follow a keyword: it starts with no blank and no equals sign. -/
def IsArgument (cs : List Char) : Prop :=
  ∃ c rest, cs = c :: rest ∧ Text.isBlank c = false ∧ c ≠ '='

theorem isArgument_of_isAtom (hne : cs ≠ []) (h : ∀ c ∈ cs, isAtom c = true) : IsArgument cs := by
  obtain ⟨c, rest, rfl⟩ := List.exists_cons_of_ne_nil hne
  have hc := h c List.mem_cons_self
  exact ⟨c, rest, rfl, isBlank_of_isAtom hc, ne_of_isAtom hc rfl⟩

theorem IsArgument.ne_nil (h : IsArgument cs) : cs ≠ [] := by
  obtain ⟨c, rest, rfl, -, -⟩ := h
  nofun

theorem IsArgument.append (h : IsArgument cs) (rest : List Char) : IsArgument (cs ++ rest) := by
  obtain ⟨c, cs, rfl, hb, he⟩ := h
  exact ⟨c, cs ++ rest, rfl, hb, he⟩

theorem IsArgument.trimLeft_eq (h : IsArgument cs) : Text.trimLeft cs = cs := by
  obtain ⟨c, cs, rfl, hb, -⟩ := h
  refine trimLeft_eq_self ?_
  rintro d ⟨⟩
  exact hb

/-- The first word of an argument is no equals sign. -/
theorem IsArgument.exists_words (h : IsArgument cs) :
    ∃ w ws, Text.words cs = w :: ws ∧ w ≠ ['='] := by
  obtain ⟨c, cs, rfl, hb, he⟩ := h
  refine ⟨_, _, words_cons hb cs, ?_⟩
  rw [Text.word, List.takeWhile_cons_of_pos (by rw [hb]; rfl)]
  intro heq
  exact he (List.cons.inj heq).1

/-! ## Texts without comments -/

/-- A text within which no line ends and no comment starts, nor with what comes after it. -/
structure Tidy (cs : List Char) : Prop where
  strip : Source.stripComment cs = cs
  last : cs.getLast? ≠ some '/'
  line : ∀ c ∈ cs, c ≠ '\n' ∧ c ≠ '\r'

instance : DecidablePred Tidy := fun cs =>
  @decidable_of_iff _ (Source.stripComment cs = cs ∧ cs.getLast? ≠ some '/' ∧
      ∀ c ∈ cs, c ≠ '\n' ∧ c ≠ '\r')
    ⟨fun ⟨h₁, h₂, h₃⟩ => ⟨h₁, h₂, h₃⟩, fun ⟨h₁, h₂, h₃⟩ => ⟨h₁, h₂, h₃⟩⟩
    (@instDecidableAnd _ _ inferInstance
      (@instDecidableAnd _ _ inferInstance (List.decidableBAll _ cs)))

theorem stripComment_cons {c : Char} (h₁ : c ≠ '#') (h₂ : c = '/' → cs.head? ≠ some '/') :
    Source.stripComment (c :: cs) = c :: Source.stripComment cs := by
  rw [Source.stripComment, if_neg (by simpa using h₁)]
  rintro tail rfl rfl
  exact h₂ rfl rfl

/-- How a text without comments starts. -/
theorem stripComment_cons_eq_self {c : Char} (h : Source.stripComment (c :: cs) = c :: cs) :
    c ≠ '#' ∧ (c = '/' → cs.head? ≠ some '/') ∧ Source.stripComment cs = cs := by
  have h₁ : c ≠ '#' := by
    rintro rfl
    cases h
  have h₂ : c = '/' → cs.head? ≠ some '/' := by
    rintro rfl hs
    cases cs with
    | nil => cases hs
    | cons d cs =>
      cases hs
      cases h
  rw [stripComment_cons h₁ h₂] at h
  exact ⟨h₁, h₂, (List.cons.inj h).2⟩

theorem stripComment_append {a : List Char} (ha : Source.stripComment a = a)
    (hlast : a.getLast? ≠ some '/') (b : List Char) :
    Source.stripComment (a ++ b) = a ++ Source.stripComment b := by
  induction a with
  | nil => rfl
  | cons c a ih =>
    obtain ⟨h₁, h₂, h₃⟩ := stripComment_cons_eq_self ha
    cases a with
    | nil =>
      have hc : c ≠ '/' := fun hc => hlast (congrArg some hc)
      exact stripComment_cons h₁ fun h => absurd h hc
    | cons d a =>
      have h₂' : c = '/' → (d :: a ++ b).head? ≠ some '/' := h₂
      rw [List.cons_append, stripComment_cons h₁ h₂', ih h₃ hlast]
      rfl

theorem tidy_nil : Tidy [] := ⟨rfl, nofun, nofun⟩

theorem Tidy.append {a b : List Char} (ha : Tidy a) (hb : Tidy b) : Tidy (a ++ b) := by
  refine ⟨?_, ?_, fun c hc => ?_⟩
  · rw [stripComment_append ha.strip ha.last, hb.strip]
  · rw [List.getLast?_append]
    have hlast := hb.last
    cases h : b.getLast? with
    | none => exact ha.last
    | some c =>
      rw [h] at hlast
      exact hlast
  · rcases List.mem_append.1 hc with hc | hc
    · exact ha.line c hc
    · exact hb.line c hc

theorem Tidy.cons {c : Char} (hc : Tidy [c]) (h : Tidy cs) : Tidy (c :: cs) := hc.append h

theorem tidy_of_isAtom (h : ∀ c ∈ cs, isAtom c = true) : Tidy cs := by
  induction cs with
  | nil => exact tidy_nil
  | cons c cs ih =>
    have hc := h c List.mem_cons_self
    refine Tidy.cons ⟨?_, ?_, ?_⟩ (ih fun d hd => h d (List.mem_cons_of_mem _ hd))
    · exact stripComment_cons (ne_of_isAtom hc rfl) fun _ => nofun
    · exact fun h => ne_of_isAtom hc (by decide) (Option.some.inj h)
    · intro d hd
      obtain rfl := List.mem_singleton.1 hd
      exact ⟨ne_of_isAtom hc rfl, ne_of_isAtom hc rfl⟩

end Text

end PixelTurtle
