import Mathlib.Data.List.Forall2
import Tabula.Expr.Eval
import Tabula.Proofs.Expr.Nodes
import Tabula.Proofs.Result

/-!
Evaluation gains from information. A null is a value that is not known, and a row says at least as
much as another if it differs from it only where that one is null. An expression that nowhere asks
whether something is null has, in the row that says less, the value that it has in the other, or
null: what is decided without the missing values stays as it is when they become known.
-/

namespace Tabula

/-! ### What a computation gives from less -/

/-- Wherever the second computation succeeds the first does, and the results are related. -/
def Precedes {ε ε' α β : Type} (R : α → β → Prop) (x : Except ε α) (y : Except ε' β) : Prop :=
  ∀ b, y = .ok b → ∃ a, x = .ok a ∧ R a b

namespace Precedes

variable {ε ε' φ φ' α β γ δ : Type} {R : α → β → Prop} {S : γ → δ → Prop}

theorem pure {a : α} {b : β} (h : R a b) :
    Precedes R (Pure.pure a : Except ε α) (Pure.pure b : Except ε' β) := by
  intro c hc
  cases hc
  exact ⟨a, rfl, h⟩

theorem error {x : Except ε α} {f : ε'} : Precedes R x (.error f : Except ε' β) := by
  intro c hc
  cases hc

theorem bind {x : Except ε α} {y : Except ε' β} {f : α → Except ε γ} {g : β → Except ε' δ}
    (hxy : Precedes R x y) (hfg : ∀ a b, R a b → Precedes S (f a) (g b)) :
    Precedes S (x >>= f) (y >>= g) := by
  intro d hd
  obtain ⟨b, hb, hg⟩ := bind_eq_ok.1 hd
  obtain ⟨a, ha, hab⟩ := hxy b hb
  obtain ⟨c, hc, hcd⟩ := hfg a b hab d hg
  exact ⟨c, bind_eq_ok.2 ⟨a, ha, hc⟩, hcd⟩

theorem mapError {x : Except ε α} {y : Except ε' β} {f : ε → φ} {g : ε' → φ'}
    (h : Precedes R x y) : Precedes R (x.mapError f) (y.mapError g) := by
  intro b hb
  obtain ⟨a, ha, hab⟩ := h b (mapError_eq_ok.1 hb)
  exact ⟨a, mapError_eq_ok.2 ha, hab⟩

theorem mapM {f : γ → Except ε α} {g : δ → Except ε' β} {cs : List γ} {ds : List δ}
    (h : List.Forall₂ (fun c d => Precedes R (f c) (g d)) cs ds) :
    Precedes (List.Forall₂ R) (cs.mapM f) (ds.mapM g) := by
  induction h with
  | nil => exact pure .nil
  | cons hcd _ ih =>
      rw [List.mapM_cons, List.mapM_cons]
      exact hcd.bind fun a b hab => ih.bind fun as bs hall => pure (.cons hab hall)

end Precedes

/-! ### Values of which less is known -/

namespace Value

/-- Nothing is known of the first value, or it is the second. -/
def Below (v w : Value) : Prop := v = null ∨ v = w

theorem Below.refl (v : Value) : v.Below v := .inr rfl

variable {v v' w w' : Value} {ε : Type}

/-- An operation that null goes through keeps what is decided. -/
theorem Below.precedes {f : Value → Except ε Value} (hnull : f null = .ok null)
    (h : v.Below v') : Precedes Below (f v) (f v') := by
  intro out hout
  rcases h with rfl | rfl
  · exact ⟨null, hnull, .inl rfl⟩
  · exact ⟨out, hout, .refl out⟩

theorem Below.precedes₂ {f : Value → Value → Except ε Value} (hleft : ∀ w, f null w = .ok null)
    (hright : ∀ v, f v null = .ok null) (hv : v.Below v') (hw : w.Below w') :
    Precedes Below (f v w) (f v' w') := by
  intro out hout
  rcases hv with rfl | rfl
  · exact ⟨null, hleft w, .inl rfl⟩
  · exact hw.precedes (hright v) out hout

theorem comparison_null_right (op : CompareOp) (v : Value) : comparison op v null = .ok null := by
  simp [comparison, isNull]

theorem arith_null_right (op : ArithOp) (v : Value) : arith op v null = .ok null := by
  simp [arith, isNull]

theorem unary_null (f : UnaryFn) : unary f null = .ok null := by
  cases f <;> rfl

theorem roundTo_null_right (v : Value) : roundTo v null = .ok null := by
  simp [roundTo, isNull]

/-! ### Truth values -/

/-- The first is unknown, or it is the second. -/
def BelowTruth (t u : Option Bool) : Prop := t = none ∨ t = u

theorem BelowTruth.ofTruth {t u : Option Bool} (h : BelowTruth t u) :
    (ofTruth t).Below (ofTruth u) := by
  rcases h with rfl | rfl
  · exact .inl rfl
  · exact .refl _

theorem Below.truth (what : String) (h : v.Below v') :
    Precedes BelowTruth (v.truth what) (v'.truth what) := by
  intro t ht
  rcases h with rfl | rfl
  · exact ⟨none, rfl, .inl rfl⟩
  · exact ⟨t, ht, .inr rfl⟩

end Value

open Value (Below BelowTruth)

section Junction

variable {ts us : List (Option Bool)}

theorem mem_of_forall₂_belowTruth (h : List.Forall₂ BelowTruth ts us) {b : Bool}
    (hb : some b ∈ ts) : some b ∈ us := by
  induction h with
  | nil => cases hb
  | cons hhead _ ih =>
      rcases List.mem_cons.1 hb with rfl | hb
      · obtain rfl := hhead.resolve_left (by simp)
        exact List.mem_cons_self
      · exact List.mem_cons_of_mem _ (ih hb)

theorem eq_of_forall₂_belowTruth (h : List.Forall₂ BelowTruth ts us) (hknown : none ∉ ts) :
    ts = us := by
  induction h with
  | nil => rfl
  | cons hhead _ ih =>
      rw [List.mem_cons, not_or] at hknown
      rw [hhead.resolve_left (Ne.symm hknown.1), ih hknown.2]

/-- What some operands decide, or leave unknown, the others do not undo. -/
theorem Junction.belowTruth_join (op : Junction) (h : List.Forall₂ BelowTruth ts us) :
    BelowTruth (op.join ts) (op.join us) := by
  simp only [join, List.contains_iff_mem]
  by_cases hdecided : some (decide (op = .or)) ∈ ts
  · rw [if_pos hdecided, if_pos (mem_of_forall₂_belowTruth h hdecided)]
    exact .inr rfl
  · rw [if_neg hdecided]
    by_cases hunknown : none ∈ ts
    · rw [if_pos hunknown]
      exact .inl rfl
    · rw [if_neg hunknown, ← eq_of_forall₂_belowTruth h hunknown, if_neg hdecided,
        if_neg hunknown]
      exact .inr rfl

theorem Value.precedes_junction (op : Junction) {vs ws : List Value}
    (h : List.Forall₂ Below vs ws) :
    Precedes Below (Value.junction op vs) (Value.junction op ws) := by
  have htruths := Precedes.mapM (h.imp fun v w hvw => Below.truth op.symbol hvw)
  exact htruths.bind fun ts us htu => .pure (op.belowTruth_join htu).ofTruth

end Junction

/-! ### Rows and expressions -/

/-- The second row differs from the first only under names where the first has null. -/
def Row.Below (r s : Row) : Prop :=
  List.Forall₂ (fun c d : String × Value => c.1 = d.1 ∧ c.2.Below d.2) r.cells s.cells

theorem Row.Below.get? {r s : Row} (h : r.Below s) {name : String} {w : Value}
    (hw : s.get? name = some w) : ∃ v, r.get? name = some v ∧ v.Below w := by
  obtain ⟨cells⟩ := r
  obtain ⟨cells'⟩ := s
  unfold Row.Below at h
  simp only [Row.get?] at h hw ⊢
  induction h with
  | nil => cases hw
  | @cons c d cs ds hcd _ ih =>
      obtain ⟨n, v⟩ := c
      obtain ⟨m, u⟩ := d
      obtain ⟨rfl, hvu⟩ := hcd
      rw [List.lookup_cons] at hw ⊢
      cases hname : name == n with
      | true =>
          simp only [hname, Option.some.injEq] at hw
          exact ⟨v, rfl, hw ▸ hvu⟩
      | false =>
          simp only [hname] at hw
          exact ih hw

namespace Expr

/-- Whether the form can give a value that depends on something being null. -/
def seesNull : Expr → Bool
  | isNull .. | coalesce .. => true
  | _ => false

/-- Nowhere in the expression is it seen whether something is null. -/
def Blind (e : Expr) : Prop := ∀ n ∈ e.nodes, n.seesNull = false

instance (e : Expr) : Decidable e.Blind :=
  inferInstanceAs (Decidable (∀ n ∈ e.nodes, n.seesNull = false))

theorem Blind.operand {e a : Expr} (h : e.Blind) (ha : a ∈ e.operands) : a.Blind :=
  fun n hn => h n (nodes_subset ha hn)

variable {r s : Row}

theorem precedes_evalAll {es : List Expr} (h : ∀ e ∈ es, Precedes Below (e.eval r) (e.eval s)) :
    Precedes (List.Forall₂ Below) (evalAll r es) (evalAll s es) := by
  rw [evalAll_eq_mapM, evalAll_eq_mapM]
  exact .mapM (List.forall₂_same.2 h)

theorem precedes_eval (hrow : r.Below s) {e : Expr} (he : e.Blind) :
    Precedes Below (e.eval r) (e.eval s) := by
  induction e with
  | column name =>
      intro w hw
      rw [eval] at hw ⊢
      cases hs : s.get? name with
      | none => simp [hs] at hw
      | some u =>
          obtain ⟨v, hv, hvu⟩ := hrow.get? hs
          rw [hs] at hw
          cases hw
          rw [hv]
          exact ⟨v, rfl, hvu⟩
  | literal l =>
      rw [eval, eval]
      exact .pure (.refl l.value)
  | ranking f =>
      rw [eval, eval]
      exact .error
  | compare op a b iha ihb =>
      rw [eval, eval]
      refine (iha (he.operand (by simp [operands]))).bind fun v v' hv => ?_
      refine (ihb (he.operand (by simp [operands]))).bind fun w w' hw => .mapError ?_
      exact hv.precedes₂ (fun _ => rfl) (Value.comparison_null_right op) hw
  | arith op a b iha ihb =>
      rw [eval, eval]
      refine (iha (he.operand (by simp [operands]))).bind fun v v' hv => ?_
      refine (ihb (he.operand (by simp [operands]))).bind fun w w' hw => .mapError ?_
      exact hv.precedes₂ (fun _ => rfl) (Value.arith_null_right op) hw
  | not a ih =>
      rw [eval, eval]
      exact (ih (he.operand (by simp [operands]))).bind fun v v' hv => .mapError (hv.precedes rfl)
  | junction op a b rest iha ihb ihrest =>
      rw [eval, eval]
      refine (iha (he.operand (by simp [operands]))).bind fun v v' hv => ?_
      refine (ihb (he.operand (by simp [operands]))).bind fun w w' hw => ?_
      have hall := precedes_evalAll fun c hc => ihrest c hc (he.operand (by simp [operands, hc]))
      exact hall.bind fun vs ws hvs =>
        .mapError (Value.precedes_junction op (.cons hv (.cons hw hvs)))
  | isNull a negated => cases he _ (mem_nodes_self _)
  | unary f a ih =>
      rw [eval, eval]
      exact (ih (he.operand (by simp [operands]))).bind fun v v' hv =>
        .mapError (hv.precedes (Value.unary_null f))
  | round a ih =>
      rw [eval, eval]
      exact (ih (he.operand (by simp [operands]))).bind fun v v' hv => .mapError (hv.precedes rfl)
  | roundTo a p iha ihp =>
      rw [eval, eval]
      refine (iha (he.operand (by simp [operands]))).bind fun v v' hv => ?_
      refine (ihp (he.operand (by simp [operands]))).bind fun w w' hw => .mapError ?_
      exact hv.precedes₂ (fun _ => rfl) Value.roundTo_null_right hw
  | coalesce a rest => cases he _ (mem_nodes_self _)

/-- If an expression without tests for null has a value in a row, it has one in every row that says
less: null, or the same value. So the two values are the same wherever the row that says less
decides at all. -/
theorem eval_of_below (hrow : r.Below s) {e : Expr} (he : e.Blind) {w : Value}
    (hw : e.eval s = .ok w) : ∃ v, e.eval r = .ok v ∧ (v = .null ∨ v = w) :=
  precedes_eval hrow he w hw

/-- A row in which it is known only that a player is active, and the same row with all values. -/
def halfKnown : Row := ⟨[("team", .null), ("active", .bool true), ("late", .null)]⟩

def wholeKnown : Row := ⟨[("team", .str "a"), ("active", .bool true), ("late", .bool true)]⟩

/-- Whether a player is active, or is not late and in the second team. -/
def mayPlay : Expr :=
  .junction .or (.column "active")
    (.junction .and (.not (.column "late")) (.compare .eq (.column "team") (.literal (.str "b")))
      []) []

theorem eval_of_below_mayPlay :
    halfKnown.Below wholeKnown ∧ mayPlay.Blind ∧ mayPlay.eval wholeKnown = .ok (.bool true) ∧
      ∃ v, mayPlay.eval halfKnown = .ok v ∧ (v = .null ∨ v = .bool true) := by
  have hrow : halfKnown.Below wholeKnown :=
    .cons ⟨rfl, .inl rfl⟩ (.cons ⟨rfl, .inr rfl⟩ (.cons ⟨rfl, .inl rfl⟩ .nil))
  have hblind : mayPlay.Blind := by decide
  have hvalue : mayPlay.eval wholeKnown = .ok (.bool true) := rfl
  exact ⟨hrow, hblind, hvalue, eval_of_below hrow hblind hvalue⟩

end Expr

end Tabula
