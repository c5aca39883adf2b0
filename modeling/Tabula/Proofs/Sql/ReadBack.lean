import Tabula.Proofs.Expr.Telling
import Tabula.Proofs.Sql.Lowering
import Tabula.Proofs.Text.Delimited
import Tabula.Sql.Print

/-!
Scalars read back. The text of a scalar tells the expression that it was lowered from, with every
connective over more than two operands as a chain of connectives over two.
-/

namespace Tabula

mutual
/-- The expression with every connective as a chain of connectives over two operands. -/
def Expr.leftNested : Expr → Expr
  | .column name => .column name
  | .literal l => .literal l
  | .ranking f => .ranking f
  | .compare op l r => .compare op l.leftNested r.leftNested
  | .arith op l r => .arith op l.leftNested r.leftNested
  | .not e => .not e.leftNested
  | .isNull e negated => .isNull e.leftNested negated
  | .unary f e => .unary f e.leftNested
  | .round e => .round e.leftNested
  | .roundTo e p => .roundTo e.leftNested p.leftNested
  | .coalesce a rest => .coalesce a.leftNested (Expr.leftNestedAll rest)
  | .junction op a b rest =>
      (Expr.leftNestedAll rest).foldl (fun l r => .junction op l r [])
        (.junction op a.leftNested b.leftNested [])
def Expr.leftNestedAll : List Expr → List Expr
  | [] => []
  | e :: es => e.leftNested :: Expr.leftNestedAll es
end

theorem Expr.leftNestedAll_eq_map (es : List Expr) :
    Expr.leftNestedAll es = es.map Expr.leftNested := by
  induction es with
  | nil => rfl
  | cons e es ih => rw [leftNestedAll, ih, List.map_cons]

namespace Sql

open Text (Doc)

/-- Expressions whose scalars say all there is: without rankings, divisions and doubles, and without
integers that are too long to be read. -/
structure IsInvertible (e : Expr) : Prop where
  windowFree : ∀ f, .ranking f ∉ e.nodes
  undivided : ∀ l r, .arith .div l r ∉ e.nodes
  exact : ∀ x finite, .literal (.float x finite) ∉ e.nodes
  short : ∀ n, .literal (.int n) ∈ e.nodes →
    Number.digitCount n.natAbs ≤ Number.maxIntegerDigits

theorem IsInvertible.of_subset {e a : Expr} (h : IsInvertible e) (hsub : a.nodes ⊆ e.nodes) :
    IsInvertible a :=
  ⟨fun f hf => h.windowFree f (hsub hf), fun l r hd => h.undivided l r (hsub hd),
    fun x finite hx => h.exact x finite (hsub hx), fun n hn => h.short n (hsub hn)⟩

/-! ### Text on one line -/

@[simp] theorem flat_append (a b : Doc) : (a ++ b).flat = a.flat ++ b.flat := by
  show (Doc.beside a b).flat = _
  rw [Doc.flat]

@[simp] theorem flat_word (s : String) : (Doc.word s).flat = s := by rw [Doc.flat]

@[simp] theorem flat_held (s : String) : (Doc.held s).flat = s := by rw [Doc.flat]

@[simp] theorem flat_block (d : Doc) : d.block.flat = d.flat := by
  have hcut : Doc.cut.flat = "" := by rw [Doc.flat]
  have hindented : (Doc.indented d).flat = d.flat := by rw [Doc.flat]
  simp [Doc.block, hcut, hindented]

theorem flats_eq_map (ds : List Doc) : Doc.flats ds = ds.map Doc.flat := by
  induction ds with
  | nil => rfl
  | cons d ds ih => rw [Doc.flats, ih, List.map_cons]

/-- The characters of a scalar on one line. -/
def Scalar.chars (s : Scalar) : List Char := (s.doc true).flat.toList

theorem chars_paren (s : Scalar) : (Scalar.paren s).chars = '(' :: (s.chars ++ [')']) := by
  simp [Scalar.chars, Scalar.doc]

/-- The scalar is written so that it tells the expression, alone and as an operand. -/
structure Scalar.Restores (s : Scalar) (e : Expr) : Prop where
  alone : Tells Whole s.chars e
  operand : Tells Operand s.wrap.chars e

namespace Scalar.Restores

variable {s t : Scalar} {e l r : Expr}

theorem of_operand (h : Tells Operand s.chars e) (hwrap : s.wrap = s) : s.Restores e :=
  ⟨h.whole, by rwa [hwrap]⟩

theorem of_whole (h : Tells Whole s.chars e) (hwrap : s.wrap = .paren s) : s.Restores e := by
  refine ⟨h, ?_⟩
  rw [hwrap, chars_paren]
  exact h.paren

theorem column (name : String) : (Scalar.column name).Restores (.column name) := by
  refine of_operand ?_ rfl
  have hchars : (Scalar.column name).chars = '"' :: (doubled '"' name.toList ++ ['"']) := by
    simp [chars, doc, nameDoc, quotedName, doubled]
  rw [hchars]
  exact .quotedColumn name

theorem literal {x : Literal} (hexact : ∀ y finite, x ≠ .float y finite)
    (hshort : ∀ n, x = .int n → Number.digitCount n.natAbs ≤ Number.maxIntegerDigits) :
    (Scalar.ofLiteral x).Restores (.literal x) := by
  cases x with
  | null => exact of_operand (by simpa [chars, ofLiteral, doc] using Tells.null) rfl
  | bool b => exact of_operand (by simpa [chars, ofLiteral, doc, boolWord] using Tells.bool b) rfl
  | int n => exact of_operand (by simpa [chars, ofLiteral, doc] using Tells.int (hshort n rfl)) rfl
  | float y finite => exact absurd rfl (hexact y finite)
  | str x =>
      refine of_operand ?_ rfl
      have hchars : (Scalar.string x).chars = '\'' :: (doubled '\'' x.toList ++ ['\'']) := by
        simp [chars, doc, quoteString, doubled]
      rw [ofLiteral, hchars]
      exact .string x

theorem compare (hs : s.Restores l) (ht : t.Restores r) (op : CompareOp) :
    (Scalar.compare op s.wrap t.wrap).Restores (.compare op l r) := by
  refine of_whole ?_ rfl
  have hchars : (Scalar.compare op s.wrap t.wrap).chars =
      s.wrap.chars ++ (' ' :: ((compareSymbol op).toList ++ [' ']) ++ t.wrap.chars) := by
    simp [chars, doc]
  rw [hchars]
  refine hs.operand.compare ht.operand ?_
  rcases op with _ | _ | o
  · exact .inl rfl
  · exact .inr ⟨rfl, rfl⟩
  · exact .inl rfl

theorem arith (hs : s.Restores l) (ht : t.Restores r) (op : ArithOp) :
    (Scalar.arith op s.wrap t.wrap).Restores (.arith op l r) := by
  refine of_whole ?_ rfl
  have hchars : (Scalar.arith op s.wrap t.wrap).chars =
      s.wrap.chars ++ (' ' :: (op.symbol.toList ++ [' ']) ++ t.wrap.chars) := by
    simp [chars, doc]
  rw [hchars]
  exact hs.operand.arith ht.operand op

theorem not (h : s.Restores e) : (Scalar.not s.wrap).Restores (.not e) := by
  refine of_whole ?_ rfl
  have hchars : (Scalar.not s.wrap).chars = "NOT".toList ++ ' ' :: s.wrap.chars := by
    simp [chars, doc]
  rw [hchars]
  exact h.operand.not

/-- A test for a null, negated by a NOT before it. -/
theorem isNull (h : s.Restores e) (negated : Bool) :
    (if negated then Scalar.not (.isNull s.wrap) else .isNull s.wrap).Restores
      (.isNull e negated) := by
  have hchars : (Scalar.isNull s.wrap).chars = s.wrap.chars ++ Tells.nullText false := by
    simp [chars, doc, Tells.nullText]
  cases negated with
  | false =>
      refine of_whole ?_ rfl
      rw [if_neg Bool.false_ne_true, hchars]
      exact h.operand.isNull false
  | true =>
      refine of_whole ?_ rfl
      have hnot : (Scalar.not (.isNull s.wrap)).chars =
          "NOT".toList ++ ' ' :: (Scalar.isNull s.wrap).chars := by
        simp [chars, doc]
      rw [if_pos rfl, hnot, hchars]
      exact h.operand.notNull

/-! Connectives over many operands are one chain of links. -/

theorem links_wrap (s : Scalar) : (s.wrap.doc true).links = [s.wrap.doc true] := by
  have happend (a b : Doc) : (a ++ b).links = [a ++ b] := rfl
  cases s <;> simp [wrap, doc, nameDoc, callDoc, happend] <;> rfl

theorem doc_foldl (op : Junction) (others : List Scalar) {s : Scalar} {links : List Doc}
    (h : s.doc true = .chain links) :
    (others.foldl (fun l r => .junction op l r.wrap) s).doc true =
      .chain (links ++ others.map fun r => .word (op.symbol ++ " ") ++ r.wrap.doc true) := by
  induction others generalizing s links with
  | nil => rw [List.foldl_nil, h, List.map_nil, List.append_nil]
  | cons r others ih =>
      have hnext : (Scalar.junction op s r.wrap).doc true =
          .chain (links ++ [.word (op.symbol ++ " ") ++ r.wrap.doc true]) := by
        rw [doc, h]
        rfl
      rw [List.foldl_cons, ih hnext]
      simp

theorem chars_junction (op : Junction) (s t : Scalar) (others : List Scalar) :
    (others.foldl (fun l r => .junction op l r.wrap) (Scalar.junction op s.wrap t.wrap)).chars =
      s.wrap.chars ++
        (t :: others).flatMap fun r => ' ' :: (op.symbol.toList ++ [' ']) ++ r.wrap.chars := by
  have hfirst : (Scalar.junction op s.wrap t.wrap).doc true =
      .chain [s.wrap.doc true, .word (op.symbol ++ " ") ++ t.wrap.doc true] := by
    rw [doc, links_wrap]
    rfl
  rw [chars, doc_foldl op others hfirst, Doc.flat, flats_eq_map]
  simp [intercalate_cons, chars, List.flatMap_map]

theorem wrap_foldl (op : Junction) (others : List Scalar) (a b : Scalar) :
    (others.foldl (fun l r => Scalar.junction op l r.wrap) (.junction op a b)).wrap =
      .paren (others.foldl (fun l r => .junction op l r.wrap) (.junction op a b)) := by
  induction others generalizing a b with
  | nil => rfl
  | cons r others ih => exact ih (.junction op a b) r.wrap

theorem junction (op : Junction) (hs : s.Restores l) (ht : t.Restores r)
    {items : List (Scalar × Expr)} (hitems : ∀ i ∈ items, i.1.Restores i.2) :
    ((items.map Prod.fst).foldl (fun l r => .junction op l r.wrap)
      (Scalar.junction op s.wrap t.wrap)).Restores
      ((items.map Prod.snd).foldl (fun l r => .junction op l r []) (.junction op l r [])) := by
  refine of_whole ?_ (wrap_foldl op _ _ _)
  have hall : ∀ i ∈ (t, r) :: items, i.1.Restores i.2 := List.forall_mem_cons.2 ⟨ht, hitems⟩
  have htold := hs.operand.junction op
    (((t, r) :: items).map fun i => (i.1.wrap.chars, i.2)) fun i hi => by
      obtain ⟨j, hj, rfl⟩ := List.mem_map.1 hi
      exact (hall j hj).operand
  rw [chars_junction]
  simpa [List.flatMap_map, List.foldl_map] using htold

/-! Calls. -/

theorem docs_eq_map (args : List Scalar) : docs true args = args.map (doc true) := by
  induction args with
  | nil => rfl
  | cons s args ih => rw [docs, ih, List.map_cons]

theorem chars_call (f : ScalarFn) (s : Scalar) (others : List Scalar) :
    (Scalar.call f (s :: others)).chars = (functionName f.name).toList ++
      '(' :: ((s.chars ++ others.flatMap fun r => [',', ' '] ++ r.chars) ++ [')']) := by
  have hfitted (items : List Doc) :
      (Doc.fitted "," items).flat = ("," ++ " ").intercalate (items.map Doc.flat) := by
    rw [Doc.flat, flats_eq_map]
  simp [chars, doc, callDoc, docs_eq_map, hfitted, intercalate_cons, List.flatMap_map]

theorem isNameOf_functionName (f : ScalarFn) : IsNameOf (functionName f.name) f := by
  have hnames : ∀ f ∈ ScalarFn.all, isOneWord (functionName f.name) = true ∧
      Text.upper (functionName f.name) = Text.upper f.name := by decide +kernel
  exact ⟨(hnames f f.mem_all).1, (hnames f f.mem_all).2⟩

theorem call {f : ScalarFn} (h : s.Restores e) (items : List (Scalar × Expr))
    (hitems : ∀ i ∈ items, i.1.Restores i.2)
    (hcount : f.admitted.admits (items.length + 1) = true) {result : Expr}
    (hcall : Expr.call? f (e :: items.map Prod.snd) = some result) :
    (Scalar.call f (s :: items.map Prod.fst)).Restores result := by
  refine of_operand ?_ rfl
  have hall : ∀ i ∈ items.map fun i => (i.1.chars, i.2), Tells Whole i.1 i.2 := fun i hi => by
    obtain ⟨j, hj, rfl⟩ := List.mem_map.1 hi
    exact (hitems j hj).alone
  have hresult : Expr.call? f (e :: (items.map fun i => (i.1.chars, i.2)).map Prod.snd) =
      some result := by simpa [Function.comp_def] using hcall
  have htold := Tells.call (isNameOf_functionName f) h.alone _ hall (by simpa using hcount) hresult
  rw [chars_call]
  simpa [List.flatMap_map] using htold

end Scalar.Restores

/-! ### All expressions -/

/-- Operands whose scalars tell what they are, each with the expression that its scalar tells. -/
theorem exists_items {es : List Expr} (h : ∀ e ∈ es, (Scalar.of e).Restores e.leftNested) :
    ∃ items : List (Scalar × Expr), items.map Prod.fst = Scalar.ofAll es ∧
      items.map Prod.snd = Expr.leftNestedAll es ∧ ∀ i ∈ items, i.1.Restores i.2 := by
  refine ⟨es.map fun e => (Scalar.of e, e.leftNested), ?_, ?_, List.forall_mem_map.2 h⟩
  · simp [Scalar.ofAll_eq_map]
  · simp [Expr.leftNestedAll_eq_map]

/-- The text of the scalar of an expression without rankings, divisions and doubles tells the
expression again. -/
theorem restores_of (e : Expr) (h : IsInvertible e) : (Scalar.of e).Restores e.leftNested := by
  have hsub {e a : Expr} (h : IsInvertible e) (ha : a ∈ e.operands) : IsInvertible a :=
    h.of_subset (Expr.nodes_subset ha)
  induction e with
  | column name => exact .column name
  | literal l =>
      refine .literal (fun x finite heq => h.exact x finite ?_) fun n heq => h.short n ?_
      · exact heq ▸ Expr.mem_nodes_self _
      · exact heq ▸ Expr.mem_nodes_self _
  | ranking f => exact absurd (Expr.mem_nodes_self _) (h.windowFree f)
  | compare op l r ihl ihr =>
      have hl := ihl (hsub h (by simp [Expr.operands]))
      exact hl.compare (ihr (hsub h (by simp [Expr.operands]))) op
  | arith op l r ihl ihr =>
      have hop : op ≠ .div := by
        rintro rfl
        exact h.undivided l r (Expr.mem_nodes_self _)
      have hl := ihl (hsub h (by simp [Expr.operands]))
      rw [Scalar.of, if_neg hop]
      exact hl.arith (ihr (hsub h (by simp [Expr.operands]))) op
  | not a ih => exact (ih (hsub h (by simp [Expr.operands]))).not
  | isNull a negated ih => exact (ih (hsub h (by simp [Expr.operands]))).isNull negated
  | junction op a b rest iha ihb ihrest =>
      have ha := iha (hsub h (by simp [Expr.operands]))
      have hb := ihb (hsub h (by simp [Expr.operands]))
      obtain ⟨items, hfst, hsnd, hall⟩ := exists_items fun e he =>
        ihrest e he (hsub h (by simp [Expr.operands, he]))
      rw [Scalar.of, Expr.leftNested, ← hfst, ← hsnd]
      exact ha.junction op hb hall
  | unary f a ih =>
      have ha := ih (hsub h (by simp [Expr.operands]))
      exact ha.call (f := .unary f) [] (by simp) rfl rfl
  | round a ih =>
      have ha := ih (hsub h (by simp [Expr.operands]))
      exact ha.call (f := .round) [] (by simp) rfl rfl
  | roundTo a p iha ihp =>
      have ha := iha (hsub h (by simp [Expr.operands]))
      have hp := ihp (hsub h (by simp [Expr.operands]))
      exact ha.call (f := .round) [(Scalar.of p, p.leftNested)] (by simpa using hp) rfl rfl
  | coalesce a rest iha ihrest =>
      have ha := iha (hsub h (by simp [Expr.operands]))
      obtain ⟨items, hfst, hsnd, hall⟩ := exists_items fun e he =>
        ihrest e he (hsub h (by simp [Expr.operands, he]))
      have hcount : ScalarFn.coalesce.admitted.admits (items.length + 1) = true := by
        simp [ScalarFn.admitted, Arity.admits]
      rw [Scalar.of, Expr.leftNested, ← hfst, ← hsnd]
      exact ha.call items hall hcount rfl

/-- An expression without rankings, divisions and doubles has a scalar, whose text tells the
expression again. -/
theorem exists_scalar (e : Expr) (h : IsInvertible e) :
    ∃ s, Scalar.ofExpr .extendedWindowTies e = .ok s ∧ s.Restores e.leftNested :=
  ⟨_, Scalar.ofExpr_extendedWindowTies h.windowFree, restores_of e h⟩

theorem trimEnd_of_endsVisibly {text : String} (h : EndsVisibly text.toList) :
    Text.trimEnd text = text := by
  obtain ⟨c, hlast, hc⟩ := h
  have hdrop : text.toList.reverse.dropWhile Text.isBlank = text.toList.reverse := by
    cases hreverse : text.toList.reverse with
    | nil => rfl
    | cons d cs =>
        rw [← List.head?_reverse, hreverse, List.head?_cons, Option.some.injEq] at hlast
        rw [List.dropWhile_cons_of_neg (by simp [hlast, hc])]
  rw [Text.trimEnd, hdrop, List.reverse_reverse, String.ofList_toList]

end Sql

/-- An expression without rankings, divisions and doubles is compiled, whatever its columns are
called, to a text that is parsed as the expression with its connectives over two operands. -/
theorem Expr.parse_compile (e : Expr) (h : Sql.IsInvertible e) (position : Option Int) :
    ∃ text, e.compile ⟨.extendedWindowTies, true, false⟩ position = .ok text ∧
      ∀ position', Expr.parse text position' = .ok e.leftNested := by
  obtain ⟨s, hs, hrestores⟩ := Sql.exists_scalar e h
  have htext : s.text ⟨.extendedWindowTies, true, false⟩ = (s.doc true).flat :=
    Sql.trimEnd_of_endsVisibly hrestores.alone.visible
  refine ⟨(s.doc true).flat, ?_, hrestores.alone.parse⟩
  rw [Expr.compile, hs, ← htext]

/-- A column that needs quoting, one called like a keyword, and a connective over three. -/
theorem Expr.parse_compile_three :
    Sql.IsInvertible (.junction .and (.compare .eq (.column "say \"x\"") (.literal (.int (-3))))
      (.isNull (.column "select") true) [.not (.column "a b")]) ∧
    ∃ text, (Expr.junction .and (.compare .eq (.column "say \"x\"") (.literal (.int (-3))))
        (.isNull (.column "select") true) [.not (.column "a b")]).compile
        ⟨.extendedWindowTies, true, false⟩ none = .ok text ∧
      ∀ position', Expr.parse text position' = .ok
        (.junction .and (.junction .and
          (.compare .eq (.column "say \"x\"") (.literal (.int (-3))))
          (.isNull (.column "select") true) []) (.not (.column "a b")) []) := by
  have h : Sql.IsInvertible
      (.junction .and (.compare .eq (.column "say \"x\"") (.literal (.int (-3))))
        (.isNull (.column "select") true) [.not (.column "a b")]) :=
    ⟨by simp [Expr.nodes, Expr.nodesOf], by simp [Expr.nodes, Expr.nodesOf],
      by simp [Expr.nodes, Expr.nodesOf], by simp [Expr.nodes, Expr.nodesOf]; decide⟩
  exact ⟨h, Expr.parse_compile _ h none⟩

end Tabula
