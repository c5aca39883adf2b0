import Tabula.Proofs.Expr.Nodes
import Tabula.Proofs.Result
import Tabula.Sql.Lower

/-!
Lowering as a total function. What an expression is lowered to does not depend on the dialect: a
dialect only decides whether it is lowered at all, by the functions that it has. So lowering is the
scalar of the expression behind a check, and whatever is said of scalars is said of a function by
recursion on the expression, without the failures in between.
-/

namespace Tabula

/-- The scalar functions that are called anywhere in the expression. -/
def Expr.functions (e : Expr) : List ScalarFn := e.nodes.filterMap fun n => n.callee?.map Prod.fst

/-- The dialect has all of the functions. -/
def Dialect.Has (d : Dialect) (fs : List ScalarFn) : Prop := ∀ f ∈ fs, f ∈ d.functions

/-- The cause says that the dialect has not one of the functions. -/
def Dialect.Lacks (d : Dialect) (fs : List ScalarFn) (cause : CompileCause) : Prop :=
  ∃ f ∈ fs, f ∉ d.functions ∧ cause = .functionUnavailable f d

section Functions

variable {d : Dialect} {e a : Expr}

theorem Expr.functions_eq (e : Expr) :
    e.functions = (e.callee?.map Prod.fst).toList ++ e.operands.flatMap functions :=
  filterMap_nodes _ e

theorem Expr.functions_subset (h : a ∈ e.operands) : a.functions ⊆ e.functions := by
  intro f hf
  rw [functions_eq e]
  exact List.mem_append_right _ (List.mem_flatMap.2 ⟨a, h, hf⟩)

theorem Dialect.has_functions :
    d.Has e.functions ↔
      (∀ c ∈ e.callee?, c.1 ∈ d.functions) ∧ ∀ a ∈ e.operands, d.Has a.functions := by
  rw [Has, Expr.functions_eq, List.forall_mem_append]
  refine and_congr (by simp) ?_
  simp only [List.mem_flatMap, Has]
  constructor
  · exact fun h a ha f hf => h f ⟨a, ha, hf⟩
  · rintro h f ⟨a, ha, hf⟩
    exact h a ha f hf

theorem Dialect.has_extendedWindowTies (fs : List ScalarFn) : extendedWindowTies.Has fs :=
  fun f _ => mem_functions f

theorem Dialect.not_lacks {fs : List ScalarFn} (h : d.Has fs) (cause : CompileCause) :
    ¬ d.Lacks fs cause := by
  rintro ⟨f, hf, hno, -⟩
  exact hno (h f hf)

end Functions

namespace Sql.Scalar

mutual
/-- The scalar that an expression is lowered to wherever it is lowered. A ranking has none, and is
taken as null. -/
def of : Expr → Scalar
  | .column name => column name
  | .literal l => ofLiteral l
  | .ranking _ => null
  | .compare op l r => compare op (of l).wrap (of r).wrap
  | .arith op l r =>
      arith op (of l).wrap
        (if op = .div then nullIf (of r).wrap (integer 0) else (of r).wrap)
  | .not e => not (of e).wrap
  | .junction op a b rest =>
      (ofAll rest).foldl (fun l r => junction op l r.wrap)
        (junction op (of a).wrap (of b).wrap)
  | .isNull e negated => if negated then not (isNull (of e).wrap) else isNull (of e).wrap
  | .unary f e => call (.unary f) [of e]
  | .round e => call .round [of e]
  | .roundTo e p => call .round [of e, of p]
  | .coalesce e rest => call .coalesce (of e :: ofAll rest)
def ofAll : List Expr → List Scalar
  | [] => []
  | e :: es => of e :: ofAll es
end

theorem ofAll_eq_map (es : List Expr) : ofAll es = es.map of := by
  induction es with
  | nil => rfl
  | cons e es ih => rw [ofAll, ih, List.map_cons]

/-- What keeps an expression from being lowered: a function that the dialect has not, or a
ranking. -/
def Bars (d : Dialect) (e : Expr) (cause : CompileCause) : Prop :=
  d.Lacks e.functions cause ∨ ∃ f, .ranking f ∈ e.nodes ∧ cause = .rankingOutsideExtend f

/-- The expression is lowered to its scalar, by a dialect that has its functions, unless something
keeps it from that. -/
def Lowers (d : Dialect) (e : Expr) : Prop :=
  Ends (Bars d e) (fun s => d.Has e.functions ∧ s = of e) (ofExpr d e)

section Lowers

variable {d : Dialect} {e a : Expr} {es : List Expr} {s : Scalar}

theorem Bars.of_operand {cause : CompileCause} (h : Bars d a cause) (ha : a ∈ e.operands) :
    Bars d e cause := by
  rcases h with ⟨f, hf, hno, hcause⟩ | ⟨f, hf, hcause⟩
  · exact .inl ⟨f, Expr.functions_subset ha hf, hno, hcause⟩
  · exact .inr ⟨f, Expr.nodes_subset ha hf, hcause⟩

theorem ends_ofExprs {E : CompileCause → Prop}
    (h : ∀ a ∈ es, Ends E (fun s => d.Has a.functions ∧ s = of a) (ofExpr d a)) :
    Ends E (fun ss => (∀ a ∈ es, d.Has a.functions) ∧ ss = ofAll es) (ofExprs d es) := by
  induction es with
  | nil => exact .pure ⟨by simp, rfl⟩
  | cons a es ih =>
      rw [List.forall_mem_cons] at h
      refine h.1.bind fun s hs => (ih h.2).bind fun ss hss => .pure ?_
      exact ⟨List.forall_mem_cons.2 ⟨hs.1, hss.1⟩, by rw [ofAll, hs.2, hss.2]⟩

/-- The check of a function that the expression calls. -/
theorem ends_checkFunction {f : ScalarFn} {args : List Expr} (h : e.callee? = some (f, args)) :
    Ends (Bars d e) (fun _ => ∀ c ∈ e.callee?, c.1 ∈ d.functions) (checkFunction d f) := by
  have hmem : f ∈ e.functions := by
    rw [Expr.functions_eq, h]
    exact List.mem_cons_self
  by_cases hf : f ∈ d.functions
  · rw [checkFunction, if_pos (List.contains_iff_mem.2 hf)]
    refine .pure fun c hc => ?_
    rw [h] at hc
    cases hc
    exact hf
  · rw [checkFunction, if_neg fun hc => hf (List.contains_iff_mem.1 hc)]
    exact .inl ⟨f, hmem, hf, rfl⟩

/-- What is left of an expression when its functions are checked and its operands lowered. -/
theorem Lowers.ends_pure (hcallee : ∀ c ∈ e.callee?, c.1 ∈ d.functions)
    (hoperands : ∀ a ∈ e.operands, d.Has a.functions) (hs : s = of e) :
    Ends (Bars d e) (fun s => d.Has e.functions ∧ s = of e) (pure s) :=
  .pure ⟨Dialect.has_functions.2 ⟨hcallee, hoperands⟩, hs⟩

section Operands

variable (h : ∀ a ∈ e.operands, Lowers d a)

include h

theorem Lowers.bind_operand {f : Scalar → Except CompileCause Scalar} {Q : Scalar → Prop}
    (ha : a ∈ e.operands) (hf : d.Has a.functions → Ends (Bars d e) Q (f (of a))) :
    Ends (Bars d e) Q (ofExpr d a >>= f) := by
  refine ((h a ha).weaken fun _ hcause => hcause.of_operand ha).bind ?_
  rintro _ ⟨hhas, rfl⟩
  exact hf hhas

theorem Lowers.bind_operands {f : List Scalar → Except CompileCause Scalar} {Q : Scalar → Prop}
    (hes : es ⊆ e.operands)
    (hf : (∀ a ∈ es, d.Has a.functions) → Ends (Bars d e) Q (f (ofAll es))) :
    Ends (Bars d e) Q (ofExprs d es >>= f) := by
  refine (ends_ofExprs fun a ha => (h a (hes ha)).weaken fun _ hcause =>
    hcause.of_operand (hes ha)).bind ?_
  rintro _ ⟨hhas, rfl⟩
  exact hf hhas

/-- An expression whose operands are lowered in that way is lowered in that way. -/
theorem Lowers.of_operands : Lowers d e := by
  cases e with
  | column name => exact ends_pure (by simp [Expr.callee?]) (by simp [Expr.operands]) rfl
  | literal l => exact ends_pure (by simp [Expr.callee?]) (by simp [Expr.operands]) rfl
  | ranking f => exact .inr ⟨f, Expr.mem_nodes_self _, rfl⟩
  | compare op l r =>
      refine bind_operand h (by simp [Expr.operands]) fun hl =>
        bind_operand h (by simp [Expr.operands]) fun hr => ?_
      exact ends_pure (by simp [Expr.callee?]) (by simp [Expr.operands, hl, hr]) rfl
  | arith op l r =>
      -- the right operand is looked at first
      refine bind_operand h (by simp [Expr.operands]) fun hr =>
        bind_operand h (by simp [Expr.operands]) fun hl => ?_
      exact ends_pure (by simp [Expr.callee?]) (by simp [Expr.operands, hl, hr]) rfl
  | not a =>
      refine bind_operand h (by simp [Expr.operands]) fun ha => ?_
      exact ends_pure (by simp [Expr.callee?]) (by simp [Expr.operands, ha]) rfl
  | isNull a negated =>
      refine bind_operand h (by simp [Expr.operands]) fun ha => ?_
      exact ends_pure (by simp [Expr.callee?]) (by simp [Expr.operands, ha]) rfl
  | junction op a b rest =>
      refine bind_operand h (by simp [Expr.operands]) fun ha =>
        bind_operand h (by simp [Expr.operands]) fun hb =>
          bind_operands h (by simp [Expr.operands]) fun hrest => ?_
      exact ends_pure (by simp [Expr.callee?]) (by simpa [Expr.operands, ha, hb] using hrest) rfl
  | unary f a =>
      refine (ends_checkFunction rfl).bind fun _ hf =>
        bind_operand h (by simp [Expr.operands]) fun ha => ?_
      exact ends_pure hf (by simp [Expr.operands, ha]) rfl
  | round a =>
      refine (ends_checkFunction rfl).bind fun _ hf =>
        bind_operand h (by simp [Expr.operands]) fun ha => ?_
      exact ends_pure hf (by simp [Expr.operands, ha]) rfl
  | roundTo a p =>
      refine (ends_checkFunction rfl).bind fun _ hf =>
        bind_operand h (by simp [Expr.operands]) fun ha =>
          bind_operand h (by simp [Expr.operands]) fun hp => ?_
      exact ends_pure hf (by simp [Expr.operands, ha, hp]) rfl
  | coalesce a rest =>
      refine (ends_checkFunction rfl).bind fun _ hf =>
        bind_operand h (by simp [Expr.operands]) fun ha =>
          bind_operands h (by simp [Expr.operands]) fun hrest => ?_
      exact ends_pure hf (by simpa [Expr.operands, ha] using hrest) rfl

end Operands

theorem lowers (d : Dialect) (e : Expr) : Lowers d e := by
  induction e using Expr.induct_operands with
  | h e ih => exact .of_operands ih

theorem eq_of_ofExpr (h : ofExpr d e = .ok s) : s = of e := ((lowers d e).of_eq_ok h).2

/-- Without rankings only a function can be missing. -/
theorem ends_ofExpr (d : Dialect) (he : ∀ f, .ranking f ∉ e.nodes) :
    Ends (d.Lacks e.functions) (fun s => d.Has e.functions ∧ s = of e) (ofExpr d e) := by
  refine (lowers d e).weaken fun cause hcause => ?_
  rcases hcause with hlacks | ⟨f, hf, -⟩
  · exact hlacks
  · exact absurd hf (he f)

theorem ofExpr_eq (hd : d.Has e.functions) (he : ∀ f, .ranking f ∉ e.nodes) :
    ofExpr d e = .ok (of e) := by
  have hends := ends_ofExpr d he
  cases h : ofExpr d e with
  | error cause => exact absurd (hends.of_eq_error h) (Dialect.not_lacks hd cause)
  | ok s => rw [eq_of_ofExpr h]

theorem ofExpr_extendedWindowTies (he : ∀ f, .ranking f ∉ e.nodes) :
    ofExpr .extendedWindowTies e = .ok (of e) :=
  ofExpr_eq (Dialect.has_extendedWindowTies _) he

end Lowers

end Sql.Scalar

end Tabula
