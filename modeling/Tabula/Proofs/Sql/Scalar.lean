import Tabula.Expr.Eval
import Tabula.Proofs.Sql.Lowering
import Tabula.Sql.Meaning

/-!
Scalars of expressions. Wherever an expression has a value, the scalar that it is lowered to has the
same one: parentheses change nothing, a divisor that is taken as null where it is zero makes the
quotient null, and a chain of connectives joins what one connective over all operands joins.
-/

namespace Tabula

theorem Junction.join_cons_cons (op : Junction) (p q : Option Bool) (ts : List (Option Bool)) :
    op.join (p :: q :: ts) = op.join (op.join [p, q] :: ts) := by
  cases op <;> rcases p with _ | _ | _ <;> rcases q with _ | _ | _ <;> simp [join]

namespace Sql

theorem truthOf_ofTruth (t : Option Bool) : truthOf (.ofTruth t) = some t := by
  cases t <;> rfl

theorem truthOf_eq_some {what : String} {v : Value} {t : Option Bool} :
    v.truth what = .ok t ↔ truthOf v = some t := by
  cases v <;> simp [Value.truth, truthOf]

theorem arithmetic_of_arith {op : ArithOp} {a b v : Value} (hop : op ≠ .div)
    (h : Value.arith op a b = .ok v) : arithmetic op a b = some v := by
  rw [arithmetic, if_neg fun hdiv => hop hdiv.1, h]
  rfl

theorem arith_null_left (op : ArithOp) (b : Value) : Value.arith op .null b = .ok .null := rfl

theorem arithmetic_null_right (op : ArithOp) (a : Value) :
    arithmetic op a .null = some .null := by
  have hzero : Value.null.isZero = false := rfl
  have harith : Value.arith op a .null = .ok .null := by
    rw [Value.arith, if_pos (by simp [Value.isNull])]
  rw [arithmetic, hzero, if_neg (by simp), harith]
  rfl

theorem nullIfSame_zero {b : Value} (h : b.kind = .number) :
    nullIfSame b (.int 0) = if b.isZero then .null else b := by
  have hnull : (b.isNull || (Value.int 0).isNull) = false := by
    cases b <;> simp_all [Value.kind, Value.isNull]
  have hkind : b.kind = (Value.int 0).kind := h
  have hcompare : Value.comparison .eq b (.int 0) = .ok (.bool b.isZero) := by
    rw [Value.comparison, hnull, if_neg (by simp), if_pos hkind]
    rfl
  rw [nullIfSame, hcompare]
  cases b.isZero <;> rfl

/-- The quotient by a divisor that is taken as null where it is zero. -/
theorem arithmetic_nullIfSame {a b v : Value} (h : Value.arith .div a b = .ok v) :
    arithmetic .div a (nullIfSame b (.int 0)) = some v := by
  cases ha : a.isNull with
  | true =>
      rw [Value.isNull_eq_true] at ha
      subst ha
      rw [arithmetic, if_neg (by simp [Value.isNull]), arith_null_left]
      exact congrArg Except.toOption h
  | false =>
      cases hb : b.isNull with
      | true =>
          rw [Value.isNull_eq_true] at hb
          subst hb
          have hnull : nullIfSame .null (.int 0) = .null := rfl
          rw [Value.arith, if_pos (by simp [Value.isNull])] at h
          rw [hnull, arithmetic_null_right, ← Except.ok.inj h]
      | false =>
          -- a quotient by zero is null, and so is one by the null that its divisor becomes
          unfold Value.arith at h
          rw [ha, hb, if_neg (by simp)] at h
          split at h
          · rename_i hkinds
            rw [nullIfSame_zero hkinds.2]
            cases hzero : b.isZero with
            | true =>
                unfold Value.numberArith at h
                rw [if_pos ⟨rfl, hzero⟩] at h
                rw [if_pos rfl, arithmetic_null_right, ← Except.ok.inj h]
            | false =>
                have harith : Value.arith .div a b = .ok v := by
                  rw [Value.arith, ha, hb, if_neg (by simp), if_pos hkinds, h]
                rw [if_neg (by simp), arithmetic, hzero, if_neg (by simp), harith]
                rfl
          · cases h

namespace Scalar

variable {r : Row}

@[simp] theorem value_wrap (e : Scalar) : e.wrap.value r = e.value r := by
  cases e <;> rfl

/-- The chain of connectives over more operands joins their truths to what it has so far. -/
theorem value_foldl (op : Junction) {others : List Scalar} {vs : List Value}
    {ts : List (Option Bool)} (hvs : others.map (value r) = vs.map some)
    (hts : vs.mapM (Value.truth op.symbol) = .ok ts) {e : Scalar} {t : Option Bool}
    (he : e.value r = some (.ofTruth t)) :
    (others.foldl (fun l r => .junction op l r.wrap) e).value r =
      some (.ofTruth (op.join (t :: ts))) := by
  induction others generalizing vs ts e t with
  | nil =>
      rw [List.map_nil, eq_comm, List.map_eq_nil_iff] at hvs
      subst hvs
      cases hts
      have hone : op.join [t] = t := by cases op <;> rcases t with _ | _ | _ <;> rfl
      rw [List.foldl_nil, he, List.reverse_nil, hone]
  | cons e' others ih =>
      cases vs with
      | nil => cases hvs
      | cons v vs =>
          rw [List.map_cons, List.map_cons, List.cons.injEq] at hvs
          obtain ⟨q, qs, hq, hqs, rfl⟩ := mapM_cons_eq_ok.1 hts
          rw [List.foldl_cons, Junction.join_cons_cons]
          refine ih hvs.2 hqs ?_
          rw [value, he, value_wrap, hvs.1]
          simp [truthOf_ofTruth, truthOf_eq_some.1 hq, connect_eq_join]

/-- Wherever the expression has a value in the row, its scalar has it too. -/
def Keeps (r : Row) (e : Expr) : Prop := ∀ v, e.eval r = .ok v → (of e).value r = some v

/-- The operands of a list, one by one. -/
theorem values_of_keeps {es : List Expr} {vs : List Value} (hes : ∀ e ∈ es, Keeps r e)
    (hvs : Expr.evalAll r es = .ok vs) : (ofAll es).map (value r) = vs.map some := by
  rw [Expr.evalAll_eq_mapM] at hvs
  induction es generalizing vs with
  | nil =>
      cases hvs
      rfl
  | cons e es ih =>
      rw [List.forall_mem_cons] at hes
      obtain ⟨v, rest, hv, hrest, rfl⟩ := mapM_cons_eq_ok.1 hvs
      rw [ofAll, List.map_cons, List.map_cons, hes.1 v hv, ih hes.2 hrest]

theorem value_call (f : ScalarFn) {ss : List Scalar} (vs : List Value)
    (h : ss.map (value r) = vs.map some) : (call f ss).value r = apply f vs := by
  have hvalues : values r ss = some vs := by
    induction ss generalizing vs with
    | nil =>
        rw [List.map_nil, eq_comm, List.map_eq_nil_iff] at h
        rw [h]
        rfl
    | cons s ss ih =>
        cases vs with
        | nil => cases h
        | cons v vs =>
            rw [List.map_cons, List.map_cons, List.cons.injEq] at h
            rw [values, h.1, ih vs h.2]
            rfl
  rw [value, hvalues]
  rfl

/-! ### One lemma for each form of expression -/

attribute [local simp] of value

variable {e e' : Expr} {rest : List Expr}

theorem keeps_column (name : String) : Keeps r (.column name) := by
  intro v hv
  rw [Expr.eval] at hv
  split at hv
  · cases hv
    assumption
  · cases hv

theorem keeps_literal (l : Literal) : Keeps r (.literal l) := by
  intro v hv
  cases hv
  cases l <;> rfl

theorem keeps_compare (op : CompareOp) (he : Keeps r e) (he' : Keeps r e') :
    Keeps r (.compare op e e') := by
  intro v hv
  obtain ⟨x, hx, hv⟩ := bind_eq_ok.1 hv
  obtain ⟨y, hy, hv⟩ := bind_eq_ok.1 hv
  rw [of, value, value_wrap, value_wrap, he x hx, he' y hy]
  exact congrArg Except.toOption (mapError_eq_ok.1 hv)

theorem keeps_arith (op : ArithOp) (he : Keeps r e) (he' : Keeps r e') :
    Keeps r (.arith op e e') := by
  intro v hv
  obtain ⟨x, hx, hv⟩ := bind_eq_ok.1 hv
  obtain ⟨y, hy, hv⟩ := bind_eq_ok.1 hv
  rw [mapError_eq_ok] at hv
  by_cases hop : op = .div
  · subst hop
    rw [of, if_pos rfl, value, value, value_wrap, value_wrap, he x hx, he' y hy]
    exact arithmetic_nullIfSame hv
  · rw [of, if_neg hop, value, value_wrap, value_wrap, he x hx, he' y hy]
    exact arithmetic_of_arith hop hv

theorem keeps_not (he : Keeps r e) : Keeps r (.not e) := by
  intro v hv
  obtain ⟨x, hx, hv⟩ := bind_eq_ok.1 hv
  obtain ⟨t, ht, hv⟩ := bind_eq_ok.1 (mapError_eq_ok.1 hv)
  cases hv
  simp [he x hx, truthOf_eq_some.1 ht]

theorem keeps_junction (op : Junction) (he : Keeps r e) (he' : Keeps r e')
    (hrest : ∀ o ∈ rest, Keeps r o) : Keeps r (.junction op e e' rest) := by
  intro v hv
  obtain ⟨x, hx, hv⟩ := bind_eq_ok.1 hv
  obtain ⟨y, hy, hv⟩ := bind_eq_ok.1 hv
  obtain ⟨zs, hzs, hv⟩ := bind_eq_ok.1 hv
  obtain ⟨ts, hts, hv⟩ := bind_eq_ok.1 (mapError_eq_ok.1 hv)
  cases hv
  obtain ⟨p, qs, hp, hqs, rfl⟩ := mapM_cons_eq_ok.1 hts
  obtain ⟨q, us, hq, hus, rfl⟩ := mapM_cons_eq_ok.1 hqs
  rw [of, Junction.join_cons_cons]
  refine value_foldl op (values_of_keeps hrest hzs) hus ?_
  simp [he x hx, he' y hy, truthOf_eq_some.1 hp, truthOf_eq_some.1 hq, connect_eq_join]

theorem keeps_isNull (negated : Bool) (he : Keeps r e) : Keeps r (.isNull e negated) := by
  intro v hv
  obtain ⟨x, hx, hv⟩ := bind_eq_ok.1 hv
  cases hv
  have htest : (isNull (of e).wrap).value r = some (.bool x.isNull) := by
    simp [he x hx]
  cases negated with
  | false => rw [of, if_neg (by simp), htest, Value.nullTest, Bool.bne_false]
  | true =>
      rw [of, if_pos rfl, value, htest, Value.nullTest, Bool.bne_true]
      rfl

theorem keeps_unary (f : UnaryFn) (he : Keeps r e) : Keeps r (.unary f e) := by
  intro v hv
  obtain ⟨x, hx, hv⟩ := bind_eq_ok.1 hv
  rw [of, value_call _ [x] (by simp [he x hx])]
  exact congrArg Except.toOption (mapError_eq_ok.1 hv)

theorem keeps_round (he : Keeps r e) : Keeps r (.round e) := by
  intro v hv
  obtain ⟨x, hx, hv⟩ := bind_eq_ok.1 hv
  rw [of, value_call _ [x] (by simp [he x hx])]
  exact congrArg Except.toOption (mapError_eq_ok.1 hv)

theorem keeps_roundTo (he : Keeps r e) (he' : Keeps r e') : Keeps r (.roundTo e e') := by
  intro v hv
  obtain ⟨x, hx, hv⟩ := bind_eq_ok.1 hv
  obtain ⟨y, hy, hv⟩ := bind_eq_ok.1 hv
  rw [of, value_call _ [x, y] (by simp [he x hx, he' y hy])]
  exact congrArg Except.toOption (mapError_eq_ok.1 hv)

theorem keeps_coalesce (he : Keeps r e) (hrest : ∀ o ∈ rest, Keeps r o) :
    Keeps r (.coalesce e rest) := by
  intro v hv
  obtain ⟨x, hx, hv⟩ := bind_eq_ok.1 hv
  obtain ⟨ys, hys, hv⟩ := bind_eq_ok.1 hv
  cases hv
  have hall : (of e :: ofAll rest).map (value r) = (x :: ys).map some := by
    rw [List.map_cons, List.map_cons, he x hx, values_of_keeps hrest hys]
  rw [of, value_call _ (x :: ys) hall]
  rfl

theorem keeps (e : Expr) : Keeps r e := by
  induction e with
  | column name => exact keeps_column name
  | literal l => exact keeps_literal l
  | ranking f =>
      -- a ranking has a value in a column only, never in a row
      intro v hv
      cases hv
  | compare op _ _ ihl ihr => exact keeps_compare op ihl ihr
  | arith op _ _ ihl ihr => exact keeps_arith op ihl ihr
  | not _ ih => exact keeps_not ih
  | junction op _ _ _ iha ihb ihrest => exact keeps_junction op iha ihb ihrest
  | isNull _ negated ih => exact keeps_isNull negated ih
  | unary f _ ih => exact keeps_unary f ih
  | round _ ih => exact keeps_round ih
  | roundTo _ _ ihe ihp => exact keeps_roundTo ihe ihp
  | coalesce _ _ iha ihrest => exact keeps_coalesce iha ihrest

/-- The scalar of an expression has its value. -/
theorem value_ofExpr {d : Dialect} {e : Expr} {s : Scalar} (hs : ofExpr d e = .ok s) {v : Value}
    (hv : e.eval r = .ok v) : s.value r = some v := by
  rw [eq_of_ofExpr hs]
  exact keeps e v hv

end Scalar

end Sql

end Tabula
