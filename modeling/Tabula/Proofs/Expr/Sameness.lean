import Tabula.Proofs.Expr.Unambiguous
import Tabula.Proofs.Number.Rounding

/-!
Equal expressions. Expressions count as equal if they have the same form and their literals have
equal values, so they read the same columns; what is left to them is how each value is written. They
are the same expression, and have the same text, only where every two of their literals are alike.
-/

namespace Tabula

open Number List

/-! ### Lists -/

section Lists

variable {α β : Type} {as bs : List α}

theorem map_eq_of_forall₂ {g : α → β} (h : Forall₂ (fun a b => g a = g b) as bs) :
    as.map g = bs.map g := by
  rwa [← forall₂_eq_eq_eq, forall₂_map_left_iff, forall₂_map_right_iff]

variable {g : α → List β}

theorem flatMap_eq_of_forall₂ (h : Forall₂ (fun a b => g a = g b) as bs) :
    as.flatMap g = bs.flatMap g := by
  rw [flatMap_def, flatMap_def, map_eq_of_forall₂ h]

theorem forall₂_flatMap {R : β → β → Prop} (h : Forall₂ (fun a b => Forall₂ R (g a) (g b)) as bs) :
    Forall₂ R (as.flatMap g) (bs.flatMap g) :=
  rel_flatMap h fun _ _ hab => hab

/-- Parts of the same lengths in the same whole. -/
theorem eq_of_flatMap_eq
    (h : Forall₂ (fun a b => (g a).length = (g b).length ∧ (g a = g b → a = b)) as bs)
    (heq : as.flatMap g = bs.flatMap g) : as = bs := by
  induction h with
  | nil => rfl
  | cons hab _ ih =>
      rw [flatMap_cons, flatMap_cons] at heq
      obtain ⟨hhead, htail⟩ := append_inj heq hab.1
      rw [hab.2 hhead, ih htail]

theorem eq_of_forall₂ {R S : α → α → Prop} (hRS : ∀ a b, R a b → S a b → a = b)
    (hR : Forall₂ R as bs) (hS : Forall₂ S as bs) : as = bs := by
  induction hR with
  | nil => rfl
  | cons hab _ ih =>
      obtain ⟨hab', hS⟩ := forall₂_cons.1 hS
      rw [hRS _ _ hab hab', ih hS]

end Lists

/-! ### Literals -/

/-- Whether a double has a minus, zero too. -/
def Number.hasMinus (x : Float) : Bool :=
  match Parts.of x with
  | .finite negative _ _ => negative
  | .infinite negative => negative
  | .nan => false

theorem place?_of_parts {x : Float} {negative : Bool} {m e : Nat}
    (h : Parts.of x = .finite negative m e) : hasMinus x = negative ∧ (Value.float x).place? =
      some (.at (if negative then -(m <<< e : Nat) else (m <<< e : Nat))) := by
  rw [hasMinus, Value.place?, h]
  cases negative <;> exact ⟨rfl, rfl⟩

/-- Doubles at one place are the same, but for the two zeros. -/
theorem eq_of_place? {x y : Float} (hx : x.isFinite = true) (hy : y.isFinite = true)
    (hplace : (Value.float x).place? = (Value.float y).place?) (hsign : hasMinus x = hasMinus y) :
    x = y := by
  obtain ⟨negative, m, e, hof, hx⟩ := exists_parts_of_isFinite hx
  obtain ⟨negative', m', e', hof', hy⟩ := exists_parts_of_isFinite hy
  obtain ⟨hminus, hat⟩ := place?_of_parts hof
  obtain ⟨hminus', hat'⟩ := place?_of_parts hof'
  obtain rfl : negative = negative' := hminus.symm.trans (hsign.trans hminus')
  have heq : m <<< e = m' <<< e' := by
    rw [hat, hat', Option.some.injEq, Place.at.injEq] at hplace
    cases negative with
    | false => exact Int.natCast_inj.1 hplace
    | true => exact Int.natCast_inj.1 (Int.neg_inj.1 hplace)
  have hpos {m e : Nat} (h : IsParts m e) : m <<< e ≠ 0 := by
    rw [Nat.shiftLeft_eq]
    exact Nat.ne_of_gt (Nat.mul_pos h.pos (Nat.two_pow_pos e))
  rcases hx with ⟨rfl, rfl, rfl⟩ | ⟨hm, rfl⟩ <;> rcases hy with ⟨rfl, rfl, rfl⟩ | ⟨hm', rfl⟩
  · rfl
  · exact absurd heq.symm (hpos hm')
  · exact absurd heq (hpos hm)
  · obtain ⟨rfl, rfl⟩ := hm.eq_of_shiftLeft hm' heq
    rfl

namespace Literal

/-- The values are equal, whatever they are written as. -/
def Same (l l' : Literal) : Prop := l.value.same l'.value = true

/-- Both are null, booleans, integers or texts, or they are doubles with or without a minus. -/
inductive Alike : Literal → Literal → Prop
  | null : Alike null null
  | bool (a b : Bool) : Alike (bool a) (bool b)
  | int (n m : Int) : Alike (int n) (int m)
  | float {x y : Float} (hx : x.isFinite = true) (hy : y.isFinite = true)
      (h : hasMinus x = hasMinus y) : Alike (float x hx) (float y hy)
  | str (s t : String) : Alike (str s) (str t)

theorem Alike.refl (l : Literal) : Alike l l := by
  cases l <;> constructor
  rfl

theorem Same.eq {l l' : Literal} (h : l.Same l') (halike : l.Alike l') : l = l' := by
  have hunit : ((twoTo unitBits : Nat) : Int) ≠ 0 :=
    Int.natCast_ne_zero.2 (Nat.ne_of_gt (twoTo_pos _))
  have hplace {v w : Value} (hv : v.isNumeric = true) (hw : v.same w = true) :
      v.place? = w.place? := by
    rw [Value.same_of_isNumeric (.inl hv)] at hw
    split at hw
    · rename_i hp hq
      rw [hp, hq, eq_of_beq hw]
    · cases hw
  cases halike with
  | null => rfl
  | bool a b =>
      have heq : Value.place? (.bool a) = Value.place? (.bool b) := hplace rfl h
      rw [Value.place?, Value.place?, Option.some.injEq, Place.at.injEq] at heq
      have hdigit := Int.eq_of_mul_eq_mul_right hunit heq
      cases a <;> cases b <;> first | rfl | cases hdigit
  | int n m =>
      have heq : Value.place? (.int n) = Value.place? (.int m) := hplace rfl h
      rw [Value.place?, Value.place?, Option.some.injEq, Place.at.injEq] at heq
      exact congrArg Literal.int (Int.eq_of_mul_eq_mul_right hunit heq)
  | float hx hy hsign =>
      obtain rfl := eq_of_place? hx hy (hplace rfl h) hsign
      rfl
  | str s t =>
      rw [Same, value, value, Value.same, beq_iff_eq] at h
      rw [h]

end Literal

namespace Expr

/-! ### Forms -/

/-- An expression without its operands and the value of a literal. -/
inductive Head
  | column (name : String)
  | literal
  | ranking (f : Ranking)
  | compare (op : CompareOp)
  | arith (op : ArithOp)
  | not
  | junction (op : Junction)
  | isNull (negated : Bool)
  | unary (f : UnaryFn)
  | round
  | roundTo
  | coalesce

def head : Expr → Head
  | column name => .column name
  | literal _ => .literal
  | ranking f => .ranking f
  | compare op _ _ => .compare op
  | arith op _ _ => .arith op
  | not _ => .not
  | junction op _ _ _ => .junction op
  | isNull _ negated => .isNull negated
  | unary f _ => .unary f
  | round _ => .round
  | roundTo _ _ => .roundTo
  | coalesce _ _ => .coalesce

def literal? : Expr → Option Literal
  | literal l => some l
  | _ => none

/-- The expression of a form, a literal and operands. -/
def ofHead? : Head → Option Literal → List Expr → Option Expr
  | .column name, _, _ => some (column name)
  | .literal, some l, _ => some (literal l)
  | .ranking f, _, _ => some (ranking f)
  | .compare op, _, [a, b] => some (compare op a b)
  | .arith op, _, [a, b] => some (arith op a b)
  | .not, _, [a] => some (not a)
  | .junction op, _, a :: b :: rest => some (junction op a b rest)
  | .isNull negated, _, [a] => some (isNull a negated)
  | .unary f, _, [a] => some (unary f a)
  | .round, _, [a] => some (round a)
  | .roundTo, _, [a, p] => some (roundTo a p)
  | .coalesce, _, a :: rest => some (coalesce a rest)
  | _, _, _ => none

theorem ofHead?_head (e : Expr) : ofHead? e.head e.literal? e.operands = some e := by
  cases e <;> rfl

theorem eq_of_parts {e f : Expr} (hhead : e.head = f.head) (hliteral : e.literal? = f.literal?)
    (hoperands : e.operands = f.operands) : e = f := by
  rw [← Option.some_inj, ← ofHead?_head e, hhead, hliteral, hoperands, ofHead?_head]

/-! ### Equality -/

theorem sameAll_iff {es fs : List Expr} :
    sameAll es fs = true ↔ Forall₂ (fun e f => e.same f = true) es fs := by
  induction es generalizing fs with
  | nil => cases fs <;> simp [sameAll]
  | cons e es ih => cases fs <;> simp [sameAll, ih]

/-- Equal expressions have one form, equal literals and equal operands. -/
theorem parts_of_same {e f : Expr} (h : e.same f = true) :
    e.head = f.head ∧ Forall₂ Literal.Same e.literal?.toList f.literal?.toList ∧
      Forall₂ (fun a b => a.same b = true) e.operands f.operands := by
  fun_cases same e f <;> simp_all [same, head, literal?, operands, sameAll_iff, Literal.Same]

/-- Induction along equal expressions. -/
@[elab_as_elim]
theorem induct_same {P : Expr → Expr → Prop}
    (h : ∀ e f : Expr, e.head = f.head →
      Forall₂ Literal.Same e.literal?.toList f.literal?.toList →
      Forall₂ (fun a b => a.same b = true ∧ P a b) e.operands f.operands → P e f)
    {e f : Expr} (hsame : e.same f = true) : P e f := by
  induction e using induct_operands generalizing f with
  | h e ih =>
      obtain ⟨hhead, hliteral, hoperands⟩ := parts_of_same hsame
      refine h e f hhead hliteral ?_
      have hall : ∀ a ∈ e.operands, ∀ b : Expr, a.same b = true → P a b := fun a ha b => ih a ha
      exact (forall₂_and_left _ _).2 ⟨hall, hoperands⟩ |>.imp fun a b hab => ⟨hab.2, hab.1 b hab.2⟩

/-! ### Literals of expressions -/

/-- The literals of an expression, left to right. -/
def literals (e : Expr) : List Literal := e.nodes.filterMap literal?

theorem literals_eq (e : Expr) :
    e.literals = e.literal?.toList ++ e.operands.flatMap literals := filterMap_nodes _ e

theorem forall₂_literals {e f : Expr} (h : e.same f = true) :
    Forall₂ Literal.Same e.literals f.literals := by
  refine induct_same (fun e f _ hliteral hoperands => ?_) h
  rw [literals_eq, literals_eq]
  exact rel_append hliteral (forall₂_flatMap (hoperands.imp fun _ _ hab => hab.2))

/-- Equal expressions differ in their literals or not at all. -/
theorem eq_of_literals {e f : Expr} (h : e.same f = true) (hliterals : e.literals = f.literals) :
    e = f := by
  revert hliterals
  refine induct_same (fun e f hhead hliteral hoperands hliterals => ?_) h
  rw [literals_eq, literals_eq] at hliterals
  obtain ⟨hown, hrest⟩ := append_inj hliterals hliteral.length_eq
  refine eq_of_parts hhead (by simpa using congrArg head? hown) (eq_of_flatMap_eq ?_ hrest)
  exact hoperands.imp fun a b hab => ⟨(forall₂_literals hab.1).length_eq, hab.2⟩

/-! ### What equal expressions share -/

/-- The column that the form names. -/
def Head.column? : Head → Option String
  | .column name => some name
  | _ => none

theorem columns_eq (e : Expr) :
    e.columns = e.head.column?.toList ++ e.operands.flatMap columns := by
  cases e <;> simp [columns, head, Head.column?, operands, columnsOf_eq_flatMap]

theorem columns_of_same {e f : Expr} (h : e.same f = true) : e.columns = f.columns := by
  refine induct_same (fun e f hhead _ hoperands => ?_) h
  rw [columns_eq, columns_eq, hhead, flatMap_eq_of_forall₂ (hoperands.imp fun _ _ hab => hab.2)]

/-! ### Texts of equal expressions -/

theorem apart_of_compound {e f : Expr} (he : e.isCompound = true) (hf : f.isCompound = true)
    (h : TellsApart (StartsIn [',', ')']) chars e f) : Apart e f := by
  refine ⟨h, fun r s _ _ heq => ?_⟩
  rw [operandChars_eq, operandChars_eq, if_pos he, if_pos hf, List.cons_append, List.cons_append,
    List.cons.injEq, List.append_assoc, List.append_assoc] at heq
  obtain ⟨rfl, hrest⟩ := h (')' :: r) (')' :: s) (by simp) (by simp) heq.2
  exact ⟨rfl, (List.cons.inj hrest).2⟩

theorem apart_of_simple {e f : Expr} (he : e.isCompound = false) (hf : f.isCompound = false)
    (h : TellsApart (StartsIn [' ', ',', ')']) chars e f) : Apart e f := by
  refine ⟨h.mono fun _ hcs => hcs.mono (List.subset_cons_self _ _), fun r s hr hs heq => ?_⟩
  rw [operandChars_eq, operandChars_eq, if_neg (by simp [he]), if_neg (by simp [hf])] at heq
  exact h r s hr hs heq

/-- Calls of one function whose arguments are told apart one by one. -/
theorem apart_of_called {e f a b : Expr} {name : String} {args args' : List Expr}
    (he : e.called? = some (name, a :: args)) (hf : f.called? = some (name, b :: args'))
    (h : ∀ i ∈ (a :: args).zip (b :: args'), TellsApart (StartsIn [',', ')']) chars i.1 i.2) :
    Apart e f := by
  have hsimple {e : Expr} {c : String × List Expr} (h : e.called? = some c) :
      e.isCompound = false := by
    cases e <;> first | rfl | cases h
  refine apart_of_simple (hsimple he) (hsimple hf) fun r s _ _ heq => ?_
  rw [chars_called he, chars_called hf, List.append_assoc, List.append_assoc,
    List.append_cancel_left_eq, List.cons_append, List.cons_append, List.cons.injEq,
    List.append_assoc, List.append_assoc] at heq
  obtain ⟨hargs, hrest⟩ := tellsApart_commas_cons (by decide) h (')' :: r) (')' :: s) (by simp)
    (by simp) heq.2
  rw [← hargs] at hf
  exact ⟨Option.some.inj ((recalled?_called? he).symm.trans (recalled?_called? hf)),
    (List.cons.inj hrest).2⟩

/-- Equal expressions are told apart, however their columns are called. -/
theorem apart_of_same {e f : Expr} (h : e.same f = true) : Apart e f := by
  refine induct_same (fun e f hhead hliteral hoperands => ?_) h
  have hzip : ∀ i ∈ e.operands.zip f.operands, Apart i.1 i.2 :=
    fun i hi => ((forall₂_iff_zip.1 hoperands).2 hi).2
  have hlinked (he : e.operands = e.lead :: e.others) (hf : f.operands = f.lead :: f.others)
      (hnot : ∀ a, e ≠ not a) (hnot' : ∀ a, f ≠ not a) :
      TellsApart (StartsIn [',', ')']) chars e f := by
    rw [he, hf, zip_cons_cons, forall_mem_cons] at hzip
    exact tellsApart_linked hnot hnot' hzip.1.operand fun i hi => (hzip.2 i hi).operand
  cases e with
  | column | ranking =>
      cases f <;> cases hhead
      exact ⟨.refl _ _ _, .refl _ _ _⟩
  | literal l =>
      cases f <;> cases hhead
      exact apart (by simp [Named, columns]) (by simp [Named, columns])
  | not a =>
      cases f <;> cases hhead
      exact apart_of_compound rfl rfl (tellsApart_not (hzip _ mem_cons_self).operand)
  | compare | arith | junction | isNull =>
      cases f <;> cases hhead
      exact apart_of_compound rfl rfl (hlinked rfl rfl (by simp) (by simp))
  | unary | round | roundTo | coalesce =>
      cases f <;> cases hhead
      exact apart_of_called rfl rfl fun i hi => (hzip i hi).alone

end Expr

end Tabula
