import Tabula.Expr

/-!
The nodes of an expression: the expression, its operands, their operands, and so on. What holds of
all nodes of an expression holds of all nodes of its operands.
-/

namespace Tabula.Expr

mutual
/-- The expression and all that it is made of. -/
def nodes : Expr → List Expr
  | e@(column _) | e@(literal _) | e@(ranking _) => [e]
  | e@(compare _ l r) | e@(arith _ l r) => e :: (l.nodes ++ r.nodes)
  | e@(not a) | e@(isNull a _) | e@(unary _ a) | e@(round a) => e :: a.nodes
  | e@(roundTo a p) => e :: (a.nodes ++ p.nodes)
  | e@(junction _ a b rest) => e :: (a.nodes ++ b.nodes ++ nodesOf rest)
  | e@(coalesce a rest) => e :: (a.nodes ++ nodesOf rest)
def nodesOf : List Expr → List Expr
  | [] => []
  | e :: es => e.nodes ++ nodesOf es
end

variable {e : Expr} {es : List Expr}

theorem nodesOf_eq_flatMap (es : List Expr) : nodesOf es = es.flatMap nodes := by
  induction es with
  | nil => rfl
  | cons e es ih => simp [nodesOf, ih]

@[simp] theorem mem_nodes_self (e : Expr) : e ∈ e.nodes := by
  cases e <;> simp [nodes]

theorem nodes_subset_nodesOf (h : e ∈ es) : e.nodes ⊆ nodesOf es := by
  rw [nodesOf_eq_flatMap]
  exact fun n hn => List.mem_flatMap.2 ⟨e, h, hn⟩

/-- The expressions that an expression is directly made of. -/
def operands : Expr → List Expr
  | column _ | literal _ | ranking _ => []
  | compare _ l r | arith _ l r => [l, r]
  | not a | isNull a _ | unary _ a | round a => [a]
  | roundTo a p => [a, p]
  | junction _ a b rest => a :: b :: rest
  | coalesce a rest => a :: rest

theorem nodes_eq (e : Expr) : e.nodes = e :: nodesOf e.operands := by
  cases e <;> simp [nodes, operands, nodesOf]

/-- What nodes have, of the expression itself and then of its operands. -/
theorem filterMap_nodes {α : Type} (g : Expr → Option α) (e : Expr) :
    e.nodes.filterMap g = (g e).toList ++ e.operands.flatMap fun a => a.nodes.filterMap g := by
  have hoperands : (nodesOf e.operands).filterMap g =
      e.operands.flatMap fun a => a.nodes.filterMap g := by
    rw [nodesOf_eq_flatMap, List.filterMap_flatMap]
  rw [nodes_eq, List.filterMap_cons, hoperands]
  cases g e <;> rfl

theorem nodes_subset {a : Expr} (h : a ∈ e.operands) : a.nodes ⊆ e.nodes := by
  rw [nodes_eq e]
  exact fun n hn => List.mem_cons_of_mem e (nodes_subset_nodesOf h hn)

theorem columns_subset {a : Expr} (h : a ∈ e.operands) : a.columns ⊆ e.columns := by
  have hcolumns : e.operands.flatMap columns ⊆ e.columns := by
    cases e <;> simp [operands, columns, columnsOf_eq_flatMap]
  exact fun c hc => hcolumns (List.mem_flatMap.2 ⟨a, h, hc⟩)

/-- Induction over expressions in which all operands are alike. -/
theorem induct_operands {P : Expr → Prop} (h : ∀ e : Expr, (∀ a ∈ e.operands, P a) → P e)
    (e : Expr) : P e := by
  induction e with
  | column | literal | ranking => exact h _ (by simp [operands])
  | not _ ih | isNull _ _ ih | unary _ _ ih | round _ ih => exact h _ (by simpa [operands] using ih)
  | compare _ _ _ ihl ihr | arith _ _ _ ihl ihr | roundTo _ _ ihl ihr =>
      exact h _ (by simpa [operands] using ⟨ihl, ihr⟩)
  | junction _ _ _ _ iha ihb ihrest => exact h _ (by simpa [operands] using ⟨iha, ihb, ihrest⟩)
  | coalesce _ _ iha ihrest => exact h _ (by simpa [operands] using ⟨iha, ihrest⟩)

end Tabula.Expr
