/-!
# Iteration

A function that gives a result, something to go on with, or nothing at all is iterated until there
is a result. An iteration need not end, and then it has no result.

* `Leads f a b` says that the iteration of `f` leads from `a` to `b`.
* `iterate` is the iteration. It keeps the proof that it only passes what leads to the same results,
  so that a result is one by `Leads`.
* `iterate_eq_some_iff` says that it finds what `Leads` says.
-/

namespace PixelTurtle

variable {α β : Type} {f : α → Option (α ⊕ β)}

/-- `Leads f a b`: the iteration of `f` on `a` ends with the result `b`. -/
inductive Leads (f : α → Option (α ⊕ β)) : α → β → Prop
  | done {a : α} {b : β} : f a = some (.inr b) → Leads f a b
  | more {a a' : α} {b : β} : f a = some (.inl a') → Leads f a' b → Leads f a b

/-- An iteration in progress, which was begun with `first`. -/
structure Iteration (f : α → Option (α ⊕ β)) (first : α) where
  current : α
  leads : ∀ b, Leads f current b → Leads f first b

/-- What an iteration that was begun with `first` comes to, if anything. -/
structure Iteration.Result (f : α → Option (α ⊕ β)) (first : α) where
  value : Option β
  leads : ∀ b, value = some b → Leads f first b

namespace Iteration

variable {first : α}

instance : Nonempty (Result f first) :=
  ⟨⟨none, fun _ h => by cases h⟩⟩

/-- An iteration before its first step. -/
def start (f : α → Option (α ⊕ β)) (first : α) : Iteration f first :=
  ⟨first, fun _ h => h⟩

/-- The iteration goes on with `a`. -/
def pass (i : Iteration f first) {a : α} (h : f i.current = some (.inl a)) : Iteration f first :=
  ⟨a, fun b hb => i.leads b (.more h hb)⟩

/-- The iteration ends with `b`. -/
def stop (i : Iteration f first) {b : β} (h : f i.current = some (.inr b)) : Result f first :=
  ⟨some b, fun _ hb => i.leads _ (.done (h.trans (by cases hb; rfl)))⟩

/-- One step. -/
def next (i : Iteration f first) : Option (Iteration f first ⊕ Result f first) :=
  match h : f i.current with
  | none => none
  | some (.inl _) => some (.inl (i.pass h))
  | some (.inr _) => some (.inr (i.stop h))

theorem next_of_inl {i : Iteration f first} {a : α} (h : f i.current = some (.inl a)) :
    i.next = some (.inl (i.pass h)) := by
  unfold next
  split
  · rename_i hf
    cases hf.symm.trans h
  · rename_i hf
    cases hf.symm.trans h
    rfl
  · rename_i hf
    cases hf.symm.trans h

theorem next_of_inr {i : Iteration f first} {b : β} (h : f i.current = some (.inr b)) :
    i.next = some (.inr (i.stop h)) := by
  unfold next
  split
  · rename_i hf
    cases hf.symm.trans h
  · rename_i hf
    cases hf.symm.trans h
  · rename_i hf
    cases hf.symm.trans h
    rfl

/-- What an iteration comes to is found by its steps. -/
theorem repeatM_next {a : α} {b : β} (h : Leads f a b) (i : Iteration f first)
    (hi : i.current = a) : ∃ r, repeatM next i = some r ∧ r.value = some b := by
  induction h generalizing i with
  | done h =>
    subst hi
    refine ⟨i.stop h, ?_, rfl⟩
    rw [repeatM_eq_of_monadTail, repeatM.body, next_of_inr h]
    rfl
  | more h _ ih =>
    subst hi
    obtain ⟨r, hr, hvalue⟩ := ih (i.pass h) rfl
    refine ⟨r, ?_, hvalue⟩
    rw [repeatM_eq_of_monadTail, repeatM.body, next_of_inl h]
    exact hr

end Iteration

/-- Iterates `f` until it gives a result. -/
def iterate (f : α → Option (α ⊕ β)) (a : α) : Option β := do
  let r ← repeatM Iteration.next (Iteration.start f a)
  r.value

section

variable {a a' : α} {b : β}

theorem iterate_eq_some_iff : iterate f a = some b ↔ Leads f a b := by
  constructor
  · intro h
    obtain ⟨r, -, hr⟩ := Option.bind_eq_some_iff.1 h
    exact r.leads b hr
  · intro h
    obtain ⟨r, hr, hvalue⟩ := Iteration.repeatM_next h (.start f a) rfl
    exact Option.bind_eq_some_iff.2 ⟨r, hr, hvalue⟩

theorem iterate_of_inr (h : f a = some (.inr b)) : iterate f a = some b :=
  iterate_eq_some_iff.2 (.done h)

/-- Two beginnings after which the iteration goes on alike. -/
theorem iterate_congr (h : f a = f a') : iterate f a = iterate f a' := by
  have imp {a a' : α} (h : f a = f a') {b : β} (hb : Leads f a b) : Leads f a' b := by
    cases hb with
    | done hdone => exact .done (h.symm.trans hdone)
    | more hmore hb => exact .more (h.symm.trans hmore) hb
  refine Option.ext fun b => ?_
  rw [iterate_eq_some_iff, iterate_eq_some_iff]
  exact ⟨imp h, imp h.symm⟩

theorem iterate_of_inl (h : f a = some (.inl a')) : iterate f a = iterate f a' := by
  refine Option.ext fun b => ?_
  rw [iterate_eq_some_iff, iterate_eq_some_iff]
  refine ⟨fun hb => ?_, .more h⟩
  cases hb with
  | done hdone => cases h.symm.trans hdone
  | more hmore hb =>
    cases h.symm.trans hmore
    exact hb

end

end PixelTurtle
