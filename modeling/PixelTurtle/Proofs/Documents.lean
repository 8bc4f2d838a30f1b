import PixelTurtle.Proofs.Replies

/-!
# What a written program tells

A program is written as a document: an instruction becomes an object whose field `type` tells its
kind, and what the instruction holds becomes the other fields. Nothing is lost on the way. Two
programs whose documents agree are the same program, with the same lines, and so the answer to a
request to read a program determines the program.

Documents agree whatever the order of the fields of their objects. Some readers of documents cannot
tell certain reals apart, such as the two zeros. A reader sees the reals through a function, and it
sees the same program when it sees the same document.

* `Json.Same f` says that two documents agree, with the reals seen through `f`.
* `Instr.mapReal f` is an instruction with its reals seen through `f`.
* `Expr.mapReal_of_same`, `HsvParam.mapReal_of_same`, `Instr.mapReal_of_same` and
  `mapRealAll_of_same` say that a document determines what was written.
* `Host.parse_of_respond` says what an answer that holds instructions tells.
* `dump_determines_program` is the theorem about programs and answers.
-/

namespace PixelTurtle

/-! ## Documents that agree -/

/-- Documents that agree, with the reals seen through `f`. Objects agree when they have the same
fields, in any order. -/
inductive Json.Same (f : Float → Float) : Json → Json → Prop
  | null : Same f .null .null
  | bool (b : Bool) : Same f (.bool b) (.bool b)
  | int (n : Int) : Same f (.int n) (.int n)
  | real {x y : Float} (h : f x = f y) : Same f (.real x) (.real y)
  | str (s : String) : Same f (.str s) (.str s)
  | arr {items items' : List Json} (h : List.Forall₂ (Same f) items items') :
    Same f (.arr items) (.arr items')
  | obj {fields fields' : List (String × Json)}
    (h : ∀ key, Option.Rel (Same f) (fields.lookup key) (fields'.lookup key)) :
    Same f (.obj fields) (.obj fields')

namespace Json

variable {f : Float → Float} {j j' v v' : Json}

theorem Same.bool_eq {b b' : Bool} (h : Same f (.bool b) (.bool b')) : b = b' := by
  cases h
  rfl

theorem Same.int_eq {n n' : Int} (h : Same f (.int n) (.int n')) : n = n' := by
  cases h
  rfl

theorem Same.str_eq {s s' : String} (h : Same f (.str s) (.str s')) : s = s' := by
  cases h
  rfl

theorem Same.real_eq {x y : Float} (h : Same f (.real x) (.real y)) : f x = f y := by
  cases h with
  | real h => exact h

theorem Same.items {items items' : List Json} (h : Same f (.arr items) (.arr items')) :
    List.Forall₂ (Same f) items items' := by
  cases h with
  | arr h => exact h

/-- Documents that agree have the same fields. -/
theorem Same.get? (h : j.Same f j') (key : String) :
    Option.Rel (Same f) (j.get? key) (j'.get? key) := by
  cases h with
  | obj h => exact h key
  | _ => exact .none

theorem Same.isSome_get? (h : j.Same f j') (key : String) :
    (j.get? key).isSome ↔ (j'.get? key).isSome := by
  have hrel := h.get? key
  generalize j.get? key = v at hrel
  generalize j'.get? key = v' at hrel
  cases hrel with
  | _ => rfl

theorem Same.get (h : j.Same f j') (key : String) (hv : j.get? key = some v)
    (hv' : j'.get? key = some v') : v.Same f v' := by
  have hrel := h.get? key
  rw [hv, hv'] at hrel
  cases hrel with
  | some h => exact h

/-- What the field `type` of an object says. -/
def tag (j : Json) : Option String :=
  match j.get? "type" with
  | some (.str s) => some s
  | _ => none

@[simp] theorem tag_obj (kind : String) (rest : List (String × Json)) :
    tag (.obj (("type", .str kind) :: rest)) = some kind := rfl

@[simp] theorem tag_str (s : String) : tag (.str s) = none := rfl

theorem Same.tag_eq (h : j.Same f j') : j.tag = j'.tag := by
  have hrel := h.get? "type"
  unfold tag
  generalize j.get? "type" = v at hrel
  generalize j'.get? "type" = v' at hrel
  cases hrel with
  | none => rfl
  | some h =>
    cases h with
    | _ => rfl

/-- Objects agree whose fields agree one by one. -/
theorem Same.of_fields {fields fields' : List (String × Json)}
    (h : List.Forall₂ (fun p p' => p.1 = p'.1 ∧ Same f p.2 p'.2) fields fields') :
    Same f (.obj fields) (.obj fields') := by
  refine .obj fun key => ?_
  induction h with
  | nil => exact .none
  | @cons p p' rest rest' hp _ ih =>
    obtain ⟨k, v⟩ := p
    obtain ⟨k', v'⟩ := p'
    obtain ⟨rfl, hv⟩ : k = k' ∧ Same f v v' := hp
    rw [List.lookup_cons, List.lookup_cons]
    cases key == k with
    | true => exact .some hv
    | false => exact ih

mutual
/-- A document agrees with itself. -/
theorem Same.refl (f : Float → Float) : ∀ j : Json, j.Same f j
  | .null => .null
  | .bool b => .bool b
  | .int n => .int n
  | .real _ => .real rfl
  | .str s => .str s
  | .arr items => .arr (same_items f items)
  | .obj fields => .of_fields (same_fields f fields)

theorem same_items (f : Float → Float) : ∀ items : List Json, List.Forall₂ (Same f) items items
  | [] => .nil
  | j :: rest => .cons (Same.refl f j) (same_items f rest)

theorem same_fields (f : Float → Float) : ∀ fields : List (String × Json),
    List.Forall₂ (fun p p' => p.1 = p'.1 ∧ Same f p.2 p'.2) fields fields
  | [] => .nil
  | (_, j) :: rest => .cons ⟨rfl, Same.refl f j⟩ (same_fields f rest)
end

end Json

/-! ## Programs whose reals are seen through a function -/

/-- An expression with its reals seen through `f`. -/
def Expr.mapReal (f : Float → Float) : Expr → Expr
  | .num x => .num (f x)
  | .var name => .var name
  | .unary op e => .unary op (e.mapReal f)
  | .bin op l r => .bin op (l.mapReal f) (r.mapReal f)
  | .foreign kind => .foreign kind

def Amount.mapReal (f : Float → Float) : Amount → Amount
  | .lit x => .lit (f x)
  | .var name => .var name

def HsvParam.mapReal (f : Float → Float) : HsvParam → HsvParam
  | .ignore => .ignore
  | .offset sign a => .offset sign (a.mapReal f)
  | .absolute a => .absolute (a.mapReal f)
  | .foreign kind => .foreign kind

mutual
/-- An instruction with its reals seen through `f`. -/
def Instr.mapReal (f : Float → Float) : Instr → Instr
  | .move way e l => .move way (e.mapReal f) l
  | .turn side e l => .turn side (e.mapReal f) l
  | .pen state l => .pen state l
  | .hsv h s v l => .hsv (h.mapReal f) (s.mapReal f) (v.mapReal f) l
  | .assign name e reassign l => .assign name (e.mapReal f) reassign l
  | .loop mode count until? body l =>
    .loop mode (count.map (Expr.mapReal f)) (until?.map (Expr.mapReal f)) (mapRealAll f body) l
  | .branch test body l => .branch (test.mapReal f) (mapRealAll f body) l
  | .breakLoop l => .breakLoop l
  | .continueLoop l => .continueLoop l
  | .foreign kind => .foreign kind

/-- A program with its reals seen through `f`. -/
def mapRealAll (f : Float → Float) : List Instr → List Instr
  | [] => []
  | i :: is => i.mapReal f :: mapRealAll f is
end

@[simp] theorem Expr.mapReal_id (e : Expr) : e.mapReal id = e := by
  induction e with
  | num x => rfl
  | var name => rfl
  | unary op e ih => rw [mapReal, ih]
  | bin op l r ihl ihr => rw [mapReal, ihl, ihr]
  | foreign kind => rfl

theorem Expr.mapReal_id' : Expr.mapReal id = id :=
  funext mapReal_id

@[simp] theorem Amount.mapReal_id (a : Amount) : a.mapReal id = a := by
  cases a with
  | _ => rfl

@[simp] theorem HsvParam.mapReal_id (p : HsvParam) : p.mapReal id = p := by
  cases p with
  | ignore => rfl
  | offset sign a => rw [mapReal, Amount.mapReal_id]
  | absolute a => rw [mapReal, Amount.mapReal_id]
  | foreign kind => rfl

mutual
@[simp] theorem Instr.mapReal_id : ∀ i : Instr, i.mapReal id = i
  | .move way e l => by rw [Instr.mapReal, Expr.mapReal_id]
  | .turn side e l => by rw [Instr.mapReal, Expr.mapReal_id]
  | .pen state l => rfl
  | .hsv h s v l => by simp only [Instr.mapReal, HsvParam.mapReal_id]
  | .assign name e reassign l => by rw [Instr.mapReal, Expr.mapReal_id]
  | .loop mode count until? body l => by
    rw [Instr.mapReal, Expr.mapReal_id', Option.map_id, mapRealAll_id body]
    rfl
  | .branch test body l => by rw [Instr.mapReal, Expr.mapReal_id, mapRealAll_id body]
  | .breakLoop l => rfl
  | .continueLoop l => rfl
  | .foreign kind => rfl

@[simp] theorem mapRealAll_id : ∀ is : List Instr, mapRealAll id is = is
  | [] => rfl
  | i :: is => by rw [mapRealAll, Instr.mapReal_id i, mapRealAll_id is]
end

/-! ## Words and operators -/

theorem Choice.ofText_text {a b : String} (hab : a ≠ b) (c : Choice a b) : ofText c.text = c := by
  cases c with
  | first => exact dif_pos rfl
  | second => exact (dif_neg hab.symm).trans (dif_pos rfl)
  | other word outside => exact (dif_neg outside.1).trans (dif_neg outside.2)

theorem Choice.text_injective {a b : String} (hab : a ≠ b) :
    Function.Injective (text : Choice a b → String) :=
  Function.LeftInverse.injective (ofText_text hab)

theorem BinOp.ofSymbol_symbol (op : BinOp) : BinOp.ofSymbol? op.symbol = some op := by
  cases op with
  | _ => decide

theorem Operator.ofSymbol_symbol (op : Operator) : ofSymbol op.symbol = op := by
  unfold ofSymbol
  split
  next op' h =>
    cases op with
    | known op =>
      cases h.symm.trans (BinOp.ofSymbol_symbol op)
      rfl
    | unknown s outside => cases h.symm.trans outside
  next h =>
    cases op with
    | known op => cases h.symm.trans (BinOp.ofSymbol_symbol op)
    | unknown s outside => rfl

theorem Operator.symbol_injective : Function.Injective symbol :=
  Function.LeftInverse.injective ofSymbol_symbol

/-! ## What the parts of a program tell -/

section Same

variable {f : Float → Float}

open Json (Same)

theorem Expr.mapReal_of_same {e e' : Expr} (h : e.dump.Same f e'.dump) :
    e.mapReal f = e'.mapReal f := by
  induction e generalizing e' with
  | num x =>
    cases e' with
    | num y =>
      have hvalue : f x = f y := (h.get "value" rfl rfl).real_eq
      rw [mapReal, mapReal, hvalue]
    | _ => exact absurd h.tag_eq (by simp [dump])
  | var name =>
    cases e' with
    | var name' =>
      have hname : name = name' := (h.get "name" rfl rfl).str_eq
      rw [hname]
    | _ => exact absurd h.tag_eq (by simp [dump])
  | unary op e ih =>
    cases e' with
    | unary op' e' =>
      have hop : op = op' := Choice.text_injective (by decide) (h.get "op" rfl rfl).str_eq
      have he : e.mapReal f = e'.mapReal f := ih (h.get "operand" rfl rfl)
      rw [mapReal, mapReal, hop, he]
    | _ => exact absurd h.tag_eq (by simp [dump])
  | bin op l r ihl ihr =>
    cases e' with
    | bin op' l' r' =>
      have hop : op = op' := Operator.symbol_injective (h.get "op" rfl rfl).str_eq
      have hl : l.mapReal f = l'.mapReal f := ihl (h.get "left" rfl rfl)
      have hr : r.mapReal f = r'.mapReal f := ihr (h.get "right" rfl rfl)
      rw [mapReal, mapReal, hop, hl, hr]
    | _ => exact absurd h.tag_eq (by simp [dump])
  | foreign kind =>
    cases e' with
    | foreign kind' => rw [h.str_eq]
    | _ => exact absurd h.tag_eq (by simp [dump])

/-- An expression that may be missing is told apart from one that is there. -/
theorem Expr.map_mapReal_of_same {e e' : Option Expr} (h : (dump? e).Same f (dump? e')) :
    e.map (mapReal f) = e'.map (mapReal f) := by
  cases e with
  | none =>
    cases e' with
    | none => rfl
    | some e' =>
      cases e' with
      | _ => cases h
  | some e =>
    cases e' with
    | none =>
      cases e with
      | _ => cases h
    | some e' => exact congrArg some (mapReal_of_same h)

/-- A plain number is told apart from a variable. -/
theorem Amount.mapReal_of_same {a a' : Amount} (h : a.dump.Same f a'.dump) :
    a.mapReal f = a'.mapReal f := by
  cases a with
  | lit x =>
    cases a' with
    | lit y => rw [mapReal, mapReal, h.real_eq]
    | var name => cases h
  | var name =>
    cases a' with
    | lit y => cases h
    | var name' =>
      have hname : name = name' := (h.get "name" rfl rfl).str_eq
      rw [hname]

theorem HsvParam.mapReal_of_same {p p' : HsvParam} (h : p.dump.Same f p'.dump) :
    p.mapReal f = p'.mapReal f := by
  cases p with
  | ignore =>
    cases p' with
    | ignore => rfl
    | _ => exact absurd h.tag_eq (by simp [dump])
  | offset sign a =>
    cases p' with
    | offset sign' a' =>
      have hsign : sign = sign' :=
        Choice.text_injective (by decide) (h.get "sign" rfl rfl).str_eq
      have ha : a.mapReal f = a'.mapReal f := Amount.mapReal_of_same (h.get "source" rfl rfl)
      rw [mapReal, mapReal, hsign, ha]
    | _ => exact absurd h.tag_eq (by simp [dump])
  | absolute a =>
    cases p' with
    | absolute a' =>
      have ha : a.mapReal f = a'.mapReal f := Amount.mapReal_of_same (h.get "source" rfl rfl)
      rw [mapReal, mapReal, ha]
    | _ => exact absurd h.tag_eq (by simp [dump])
  | foreign kind =>
    cases p' with
    | foreign kind' => rw [h.str_eq]
    | _ => exact absurd h.tag_eq (by simp [dump])

/-! ## What a program tells -/

theorem lookup_lineField (l : Option Int) : (lineField l).lookup "line" = l.map .int := by
  cases l with
  | _ => rfl

/-- The field `line` is there for an instruction with a line only. -/
theorem Instr.get?_line (i : Instr) : i.dump.get? "line" = i.line.map .int := by
  cases i with
  | foreign kind => rfl
  | _ => exact lookup_lineField _

/-- A written instruction tells its line. -/
theorem Instr.line_of_same {i i' : Instr} (h : i.dump.Same f i'.dump) : i.line = i'.line := by
  have hrel := h.get? "line"
  rw [get?_line, get?_line] at hrel
  generalize i.line = l at hrel
  generalize i'.line = l' at hrel
  cases l with
  | none =>
    cases l' with
    | none => rfl
    | some n' => cases hrel
  | some n =>
    cases l' with
    | none => cases hrel
    | some n' =>
      cases hrel with
      | some h => rw [h.int_eq]

mutual
/-- **A written instruction tells what was written**: its kind is told by the field `type`, and
each of the others holds one of its parts. -/
theorem Instr.mapReal_of_same :
    ∀ {i i' : Instr}, i.dump.Same f i'.dump → i.mapReal f = i'.mapReal f
  | .move way e l, i', h => by
    cases i' with
    | move way' e' l' =>
      have hway : way = way' :=
        Choice.text_injective (by decide) (h.get "direction" rfl rfl).str_eq
      have he : e.mapReal f = e'.mapReal f := Expr.mapReal_of_same (h.get "value" rfl rfl)
      have hline : l = l' := Instr.line_of_same h
      rw [Instr.mapReal, Instr.mapReal, hway, he, hline]
    | _ => exact absurd h.tag_eq (by simp [Instr.dump])
  | .turn side e l, i', h => by
    cases i' with
    | turn side' e' l' =>
      have hside : side = side' :=
        Choice.text_injective (by decide) (h.get "direction" rfl rfl).str_eq
      have he : e.mapReal f = e'.mapReal f := Expr.mapReal_of_same (h.get "value" rfl rfl)
      have hline : l = l' := Instr.line_of_same h
      rw [Instr.mapReal, Instr.mapReal, hside, he, hline]
    | _ => exact absurd h.tag_eq (by simp [Instr.dump])
  | .pen state l, i', h => by
    cases i' with
    | pen state' l' =>
      have hstate : state = state' :=
        Choice.text_injective (by decide) (h.get "state" rfl rfl).str_eq
      have hline : l = l' := Instr.line_of_same h
      rw [hstate, hline]
    | _ => exact absurd h.tag_eq (by simp [Instr.dump])
  | .hsv p q r l, i', h => by
    cases i' with
    | hsv p' q' r' l' =>
      have hp : p.mapReal f = p'.mapReal f := HsvParam.mapReal_of_same (h.get "h" rfl rfl)
      have hq : q.mapReal f = q'.mapReal f := HsvParam.mapReal_of_same (h.get "s" rfl rfl)
      have hr : r.mapReal f = r'.mapReal f := HsvParam.mapReal_of_same (h.get "v" rfl rfl)
      have hline : l = l' := Instr.line_of_same h
      rw [Instr.mapReal, Instr.mapReal, hp, hq, hr, hline]
    | _ => exact absurd h.tag_eq (by simp [Instr.dump])
  | .assign name e reassign l, i', h => by
    cases i' with
    | assign name' e' reassign' l' =>
      have hname : name = name' := (h.get "name" rfl rfl).str_eq
      have he : e.mapReal f = e'.mapReal f := Expr.mapReal_of_same (h.get "value" rfl rfl)
      have hreassign : reassign = reassign' := (h.get "reassign" rfl rfl).bool_eq
      have hline : l = l' := Instr.line_of_same h
      rw [Instr.mapReal, Instr.mapReal, hname, he, hreassign, hline]
    | _ => exact absurd h.tag_eq (by simp [Instr.dump])
  | .loop mode count until? body l, i', h => by
    cases i' with
    | loop mode' count' until?' body' l' =>
      have hmode : mode = mode' :=
        Choice.text_injective (by decide) (h.get "mode" rfl rfl).str_eq
      have hcount : count.map (Expr.mapReal f) = count'.map (Expr.mapReal f) :=
        Expr.map_mapReal_of_same (h.get "count" rfl rfl)
      have huntil : until?.map (Expr.mapReal f) = until?'.map (Expr.mapReal f) :=
        Expr.map_mapReal_of_same (h.get "until" rfl rfl)
      have hbody : mapRealAll f body = mapRealAll f body' :=
        mapRealAll_of_same (h.get "body" rfl rfl).items
      have hline : l = l' := Instr.line_of_same h
      rw [Instr.mapReal, Instr.mapReal, hmode, hcount, huntil, hbody, hline]
    | _ => exact absurd h.tag_eq (by simp [Instr.dump])
  | .branch test body l, i', h => by
    cases i' with
    | branch test' body' l' =>
      have htest : test.mapReal f = test'.mapReal f :=
        Expr.mapReal_of_same (h.get "test" rfl rfl)
      have hbody : mapRealAll f body = mapRealAll f body' :=
        mapRealAll_of_same (h.get "body" rfl rfl).items
      have hline : l = l' := Instr.line_of_same h
      rw [Instr.mapReal, Instr.mapReal, htest, hbody, hline]
    | _ => exact absurd h.tag_eq (by simp [Instr.dump])
  | .breakLoop l, i', h => by
    cases i' with
    | breakLoop l' =>
      have hline : l = l' := Instr.line_of_same h
      rw [hline]
    | _ => exact absurd h.tag_eq (by simp [Instr.dump])
  | .continueLoop l, i', h => by
    cases i' with
    | continueLoop l' =>
      have hline : l = l' := Instr.line_of_same h
      rw [hline]
    | _ => exact absurd h.tag_eq (by simp [Instr.dump])
  | .foreign kind, i', h => by
    cases i' with
    | foreign kind' => rw [h.str_eq]
    | _ => exact absurd h.tag_eq (by simp [Instr.dump])

/-- A written program tells its instructions, in order. -/
theorem mapRealAll_of_same :
    ∀ {is is' : List Instr}, List.Forall₂ (Same f) (dumpAll is) (dumpAll is') →
      mapRealAll f is = mapRealAll f is'
  | [], is', h => by
    cases is' with
    | nil => rfl
    | cons i' is' => cases h
  | i :: is, is', h => by
    cases is' with
    | nil => cases h
    | cons i' is' =>
      cases h with
      | cons hhead htail =>
        rw [mapRealAll, mapRealAll, Instr.mapReal_of_same hhead, mapRealAll_of_same htail]
end

end Same

/-- **Programs whose documents agree are equal**, lines included. -/
theorem eq_of_same {is is' : List Instr}
    (h : (Json.arr (dumpAll is)).Same id (.arr (dumpAll is'))) : is = is' := by
  simpa using mapRealAll_of_same h.items

theorem dumpAll_injective : Function.Injective dumpAll := by
  intro is is' h
  refine eq_of_same ?_
  rw [h]
  exact .refl id _

namespace Host

/-! ## What an answer tells -/

variable {p : ParseRequest} {answer : Json} {program : List Instr}

/-- The answer that holds the instructions of a program. -/
def instructions (program : List Instr) : Json :=
  .obj [("instructions", .arr (dumpAll program))]

/-- A text that is not too long and can be read is answered with its instructions, unless they are
nested too deeply. -/
theorem respond_of_parse (hcode : p.code.length ≤ 100000)
    (hparse : Source.parse p.code = .ok program) (hdump : canDump program) :
    p.respond = .ok (instructions program) := by
  obtain ⟨o, ho⟩ : ∃ o, ({} : Limits).options .null = .ok o := ⟨_, rfl⟩
  have hprepare : ({} : Limits).prepare (.str p.code) .null = .ok (program, o) := by
    refine (prepare_whole (.inl rfl)).trans ?_
    rw [if_neg (by omega), hparse]
    dsimp only
    rw [show (Limits.whole _ _ _).options .null = .ok o from ho]
  have hitems : ({} : Limits).parse (.str p.code) = .ok (dumpAll program) := by
    rw [Limits.parse, hprepare]
    exact if_pos hdump
  rw [ParseRequest.respond, hitems]
  rfl

/-- **What an answer that holds instructions tells**: the text was read, and the instructions are
those of its program. -/
theorem parse_of_respond (h : p.respond = .ok answer)
    (hinstructions : (answer.get? "instructions").isSome) :
    ∃ program, Source.parse p.code = .ok program ∧ answer = instructions program := by
  unfold ParseRequest.respond at h
  cases hparse : ({} : Limits).parse (.str p.code) with
  | error r =>
    rw [hparse] at h
    cases r with
    | report e =>
      cases h
      cases hinstructions
    | escape e => cases h
  | ok items =>
    rw [hparse] at h
    cases h
    obtain ⟨⟨program, o⟩, hprepare, hitems⟩ := exists_of_bind_eq_ok hparse
    dsimp only at hitems
    split_ifs at hitems
    cases hitems
    exact ⟨program, parse_of_prepare hprepare, rfl⟩

end Host

open Host

/-- **A written program determines the program.** If the documents of two programs agree, the
programs are equal, lines included; if they agree when the reals are seen through a function, so do
the programs. And if two requests to read a program get answers that agree and hold instructions,
both texts are those of one program. -/
theorem dump_determines_program :
    (∀ is is' : List Instr, (Json.arr (dumpAll is)).Same id (.arr (dumpAll is')) → is = is') ∧
    (∀ (f : Float → Float) (is is' : List Instr),
      (Json.arr (dumpAll is)).Same f (.arr (dumpAll is')) →
        mapRealAll f is = mapRealAll f is') ∧
    ∀ (p p' : ParseRequest) (answer answer' : Json),
      p.respond = .ok answer → p'.respond = .ok answer' → answer.Same id answer' →
        (answer.get? "instructions").isSome →
          ∃ program, Source.parse p.code = .ok program ∧ Source.parse p'.code = .ok program := by
  refine ⟨fun _ _ => eq_of_same, fun _ _ _ h => mapRealAll_of_same h.items, ?_⟩
  intro p p' answer answer' hp hp' hsame hinstructions
  have hinstructions' : (answer'.get? "instructions").isSome :=
    (hsame.isSome_get? "instructions").1 hinstructions
  obtain ⟨program, hparse, rfl⟩ := parse_of_respond hp hinstructions
  obtain ⟨program', hparse', rfl⟩ := parse_of_respond hp' hinstructions'
  have hprogram : program = program' := eq_of_same (hsame.get "instructions" rfl rfl)
  exact ⟨program, hparse, hprogram ▸ hparse'⟩

/-- A reader that takes the two zeros for the same real takes programs for the same that differ in
them only. Blanks and capitals make no difference to an answer, nor to the program. -/
theorem zeros_and_capitals_are_determined :
    mapRealAll Float.abs [.move .forward (.num 0) (some 1)] =
      mapRealAll Float.abs [.move .forward (.num (-0)) (some 1)] ∧
    ∃ program, Source.parse "pen up" = .ok program ∧ Source.parse "PEN  Up" = .ok program := by
  have hzeros : (Expr.num 0).dump.Same Float.abs (Expr.num (-0)).dump :=
    .of_fields (.cons ⟨rfl, .str _⟩ (.cons ⟨rfl, .real (by decide +kernel)⟩ .nil))
  have hmoves : (Json.arr (dumpAll [.move .forward (.num 0) (some 1)])).Same Float.abs
      (.arr (dumpAll [.move .forward (.num (-0)) (some 1)])) :=
    .arr (.cons (.of_fields (.cons ⟨rfl, .str _⟩ (.cons ⟨rfl, .str _⟩ (.cons ⟨rfl, hzeros⟩
      (.cons ⟨rfl, .int 1⟩ .nil))))) .nil)
  have hsmall : Source.parse "pen up" = .ok [.pen .up (some 1)] := by with_unfolding_all rfl
  have hcapital : Source.parse "PEN  Up" = .ok [.pen .up (some 1)] := by with_unfolding_all rfl
  have hfirst := respond_of_parse (p := ⟨"pen up"⟩) (by decide) hsmall rfl
  have hsecond := respond_of_parse (p := ⟨"PEN  Up"⟩) (by decide) hcapital rfl
  exact ⟨dump_determines_program.2.1 Float.abs _ _ hmoves,
    dump_determines_program.2.2 _ _ _ _ hfirst hsecond (.refl id _) rfl⟩

end PixelTurtle
