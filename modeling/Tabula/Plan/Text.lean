import Tabula.Plan

/-!
Plans as text and as a diagram: one line and one diagram node for the table and for each operator,
in order, with the columns that come out.
-/

namespace Tabula

/-- What is shown of one node. -/
structure NodeView where
  position : Nat
  kind : String
  label : String
  columns : List String

/-- The table and the operators of a plan, in order. -/
def Plan.nodes (p : Plan) : List NodeView :=
  ⟨0, "Table", p.table.text, p.table.columns⟩ ::
    p.steps.map fun s => ⟨s.position, s.operator.kind, s.operator.text, s.output⟩

namespace NodeView

def line (n : NodeView) : String :=
  toString n.position ++ ": " ++ n.label ++ " -> columns=" ++ nameList n.columns

def id (n : NodeView) : String := "node_" ++ toString n.position

end NodeView

def Plan.render (p : Plan) : String := "\n".intercalate (p.nodes.map NodeView.line)

/-- The arrows of the diagram: from every node to the one after it. -/
def Plan.edges (p : Plan) : List (String × String) :=
  let ids := p.nodes.map NodeView.id
  ids.zip (ids.drop 1)

end Tabula
