import Tabula.Plan.Builder
import Tabula.Plan.Text
import Tabula.Proofs.Expr.Nodes
import Tabula.Proofs.Plan.Shape

/-!
Validity of plans. Plans come from tables and from each other, by builders or operator by operator,
in calls of which some fail. What the checks ask of one operator is what the columns before it must
have for the checks of the next one, so every plan that any calls have made is valid: its nodes are
numbered in order, each has columns to be read by the next, and nothing is missing or out of place.
-/

namespace Tabula

/-- Columns that can come out of a node: some, each once, none without a name. -/
structure IsHeading (columns : List String) : Prop where
  nonempty : columns ≠ []
  nodup : columns.Nodup
  named : ∀ c ∈ columns, c ≠ ""

/-- The columns before it that the operator reads or names. -/
def Operator.mentions : Operator → List String
  | dropColumns dropped => dropped
  | o => o.reads

/-- Rankings stand only where a window is given, as the whole value that is computed, and no window
stands without one. -/
def Operator.RanksByWindow : Operator → Prop
  | extend _ value window =>
      (∀ f, .ranking f ∈ value.nodes → value = .ranking f ∧ window.isSome) ∧
        (window.isSome → ∃ f, value = .ranking f)
  | selectRows condition => ∀ f, .ranking f ∉ condition.nodes
  | _ => True

/-- What holds of an operator that may follow some columns. -/
structure Operator.Valid (columns : List String) (o : Operator) : Prop where
  mentions : ∀ c ∈ o.mentions, c ∈ columns
  heading : IsHeading (o.output columns)
  ranks : o.RanksByWindow
  ordered : o ≠ .orderBy []
  kept : ∀ temporary, o ≠ .materialize "" temporary

/-- A plan in which nothing is missing or out of place. -/
structure Plan.Valid (p : Plan) : Prop where
  /-- Nodes are numbered from the table on. -/
  position : ∀ (k : Nat) (n : NodeView), p.nodes[k]? = some n → n.position = k
  heading : ∀ n ∈ p.nodes, IsHeading n.columns
  /-- Operator `k` stands on node `k` and names only columns that come out there. -/
  mentions : ∀ (k : Nat) (n : NodeView) (o : Operator), p.nodes[k]? = some n →
    p.operators[k]? = some o → ∀ c ∈ o.mentions, c ∈ n.columns
  ranks : ∀ o ∈ p.operators, o.RanksByWindow
  ordered : .orderBy [] ∉ p.operators
  /-- The operator that keeps the result is the last one. -/
  last : ∀ (k : Nat) name temporary, p.operators[k]? = some (.materialize name temporary) →
    k + 1 = p.operators.length
  /-- The kept result can be read as a table. -/
  kept : ∀ name temporary, .materialize name temporary ∈ p.operators →
    p.asTable? = some (.ok ⟨name, p.columns, temporary⟩)

/-! ### Lists of columns -/

section Headings

variable {columns names : List String} {position : Option Int}

/-- A checked list of columns is a heading unless it is empty. -/
theorem isHeading_of_uniqueColumns {values : List Value}
    (h : uniqueColumns values position = .ok names) (hne : names ≠ []) : IsHeading names :=
  ⟨hne, nodup_of_uniqueColumns h, (uniqueFrom_eq_ok.1 h).2.1⟩

theorem uniqueFrom_strings {seen : List String} (hnamed : ∀ c ∈ columns, c ≠ "")
    (hnodup : columns.Nodup) (hnew : ∀ c ∈ columns, c ∉ seen) :
    uniqueFrom position seen (columns.map .str) = .ok columns :=
  uniqueFrom_eq_ok.2 ⟨rfl, hnamed, hnodup, hnew⟩

/-- A heading can be declared as the columns of a table. -/
theorem IsHeading.make_eq_ok (h : IsHeading columns) {name : String} (hname : name ≠ "")
    (temporary : Bool) :
    TableRef.make name (columns.map .str) temporary = .ok ⟨name, columns, temporary⟩ := by
  have hunique : uniqueColumns (columns.map .str) (some 0) = .ok columns :=
    uniqueFrom_strings h.named h.nodup (by simp)
  unfold TableRef.make
  rw [if_neg hname, hunique]
  simp [bind, Except.bind, h.nonempty, pure, Except.pure]

theorem isHeading_of_make {name : String} {values : List Value} {temporary : Bool}
    {ref : TableRef} (h : TableRef.make name values temporary = .ok ref) :
    IsHeading ref.columns := by
  unfold TableRef.make at h
  split at h
  · cases h
  · obtain ⟨names, hnames, h⟩ := bind_eq_ok.1 h
    dsimp only at h
    split at h
    · cases h
    · rename_i hempty
      cases h
      exact isHeading_of_uniqueColumns hnames (by simpa using hempty)

theorem IsHeading.append_new (h : IsHeading columns) {name : String} (hname : name ≠ "")
    (hnew : name ∉ columns) : IsHeading (columns ++ [name]) where
  nonempty := by simp
  nodup := by
    refine List.nodup_append.2 ⟨h.nodup, List.nodup_singleton name, ?_⟩
    intro c hc d hd heq
    exact hnew (List.mem_singleton.1 hd ▸ heq ▸ hc)
  named := by
    refine List.forall_mem_append.2 ⟨h.named, ?_⟩
    simpa using hname

end Headings

/-! ### One operator -/

theorem Expr.hasRanking_eq_false_iff {e : Expr} :
    e.hasRanking = false ↔ ∀ f, .ranking f ∉ e.nodes := by
  have hall {es : List Expr}
      (ih : ∀ e ∈ es, e.hasRanking = false ↔ ∀ f, Expr.ranking f ∉ e.nodes) :
      anyRanking es = false ↔ ∀ f, Expr.ranking f ∉ nodesOf es := by
    rw [anyRanking_eq_any, nodesOf_eq_flatMap, List.any_eq_false]
    simp only [List.mem_flatMap, not_exists, not_and, Bool.not_eq_true]
    constructor
    · exact fun h f e he => (ih e he).1 (h e he) f
    · exact fun h e he => (ih e he).2 fun f => h f e he
  induction e with
  | column name => simp [hasRanking, nodes]
  | literal l => simp [hasRanking, nodes]
  | ranking f => simp [hasRanking, nodes]
  | compare op l r ihl ihr => simp [hasRanking, nodes, ihl, ihr, forall_and]
  | arith op l r ihl ihr => simp [hasRanking, nodes, ihl, ihr, forall_and]
  | not a ih => simp [hasRanking, nodes, ih]
  | junction op a b rest iha ihb ihrest =>
      simp [hasRanking, nodes, iha, ihb, hall ihrest, forall_and, and_assoc]
  | isNull a negated ih => simp [hasRanking, nodes, ih]
  | unary f a ih => simp [hasRanking, nodes, ih]
  | round a ih => simp [hasRanking, nodes, ih]
  | roundTo a p iha ihp => simp [hasRanking, nodes, iha, ihp, forall_and]
  | coalesce a rest iha ihrest => simp [hasRanking, nodes, iha, hall ihrest, forall_and]

theorem ranksByWindow_of_checkWindow {name : String} {value : Expr} {window : Option Window}
    {u : Unit} (h : checkWindow value window = .ok u) :
    (Operator.extend name value window).RanksByWindow := by
  cases window with
  | none =>
      have hno := Expr.hasRanking_eq_false_iff.1 (hasRanking_of_checkWindow h)
      exact ⟨fun f hf => absurd hf (hno f), by simp⟩
  | some w =>
      obtain ⟨f, rfl⟩ := exists_ranking_of_checkWindow h
      refine ⟨fun g hg => ?_, fun _ => ⟨f, rfl⟩⟩
      have hsame : g = f := by simpa [Expr.nodes] using hg
      exact ⟨by rw [hsame], rfl⟩

section Checks

variable {columns : List String} {position : Option Int} {o : Operator}

/-- An operator that passes its check over a heading is valid there, and its own columns are a
heading again. -/
theorem valid_of_check (hcolumns : IsHeading columns) {d : Draft}
    (h : d.check columns position = .ok o) : o.Valid columns := by
  cases d with
  | extend name value window =>
      obtain ⟨hname, hwindow, hreads, rfl⟩ := check_extend_eq_ok.1 h
      refine ⟨hreads, ?_, ranksByWindow_of_checkWindow hwindow, by simp, by simp⟩
      rw [Operator.output]
      split
      · exact hcolumns
      · rename_i hnew
        exact hcolumns.append_new hname fun hmem => hnew (List.contains_iff_mem.2 hmem)
  | selectRows condition =>
      obtain ⟨⟨hranking, hreads⟩, rfl⟩ := check_selectRows_eq_ok.1 h
      exact ⟨hreads, hcolumns, Expr.hasRanking_eq_false_iff.1 hranking, by simp, by simp⟩
  | orderBy terms =>
      obtain ⟨hterms, hreads, rfl⟩ := check_orderBy_eq_ok.1 h
      refine ⟨List.forall_mem_map.2 hreads, hcolumns, trivial, ?_, by simp⟩
      rintro ⟨⟩
      exact hterms rfl
  | selectColumns selected =>
      obtain ⟨names, hnames, hne, hreads, rfl⟩ := check_selectColumns_eq_ok.1 h
      exact ⟨hreads, isHeading_of_uniqueColumns hnames hne, trivial, by simp, by simp⟩
  | dropColumns dropped =>
      obtain ⟨names, _, hreads, hleft, rfl⟩ := check_dropColumns_eq_ok.1 h
      refine ⟨hreads, ⟨hleft, hcolumns.nodup.filter _, ?_⟩, trivial, by simp, by simp⟩
      exact fun c hc => hcolumns.named c (List.mem_of_mem_filter hc)
  | materialize table temporary =>
      obtain ⟨htable, rfl⟩ := check_materialize_eq_ok.1 h
      refine ⟨by simp [Operator.mentions, Operator.reads], hcolumns, trivial, by simp, ?_⟩
      intro temporary' heq
      cases heq
      exact htable rfl

end Checks

/-! ### One addition -/

theorem stepsFrom_append {position : Nat} {columns : List String} {os os' : List Operator} :
    stepsFrom position columns (os ++ os') = stepsFrom position columns os ++
      stepsFrom (position + os.length) (Plan.columnsAfter columns os) os' := by
  induction os generalizing position columns with
  | nil => rfl
  | cons o os ih =>
      rw [List.cons_append, stepsFrom, ih, stepsFrom, List.cons_append, List.length_cons,
        Nat.add_assoc, Nat.add_comm 1]
      rfl

theorem length_stepsFrom {position : Nat} {columns : List String} {os : List Operator} :
    (stepsFrom position columns os).length = os.length := by
  induction os generalizing position columns with
  | nil => rfl
  | cons o os ih => rw [stepsFrom, List.length_cons, ih, List.length_cons]

namespace Plan

/-- The view of an operator after a plan. -/
def viewAfter (p : Plan) (o : Operator) : NodeView :=
  ⟨p.next, o.kind, o.text, o.output p.columns⟩

theorem nodes_append (p : Plan) (o : Operator) :
    (Plan.mk p.table (p.operators ++ [o])).nodes = p.nodes ++ [p.viewAfter o] := by
  simp only [nodes, steps, stepsFrom_append, stepsFrom, List.map_append, List.map_cons,
    List.map_nil, List.cons_append]
  rw [viewAfter, next, Nat.add_comm 1]
  rfl

theorem length_nodes (p : Plan) : p.nodes.length = p.operators.length + 1 := by
  rw [nodes, List.length_cons, List.length_map, steps, length_stepsFrom]

theorem columnsAfter_append (columns : List String) (os os' : List Operator) :
    columnsAfter columns (os ++ os') = columnsAfter (columnsAfter columns os) os' :=
  List.foldl_append ..

theorem columns_append (p : Plan) (o : Operator) :
    (Plan.mk p.table (p.operators ++ [o])).columns = o.output p.columns := by
  simp [columns, columnsAfter]

/-- The columns of a plan are those of its last node. -/
theorem exists_last_node (p : Plan) :
    ∃ n, p.nodes[p.operators.length]? = some n ∧ n.columns = p.columns := by
  obtain ⟨table, operators⟩ := p
  rcases List.eq_nil_or_concat operators with rfl | ⟨os, o, rfl⟩
  · exact ⟨_, rfl, rfl⟩
  · have hlength := length_nodes ⟨table, os⟩
    refine ⟨Plan.viewAfter ⟨table, os⟩ o, ?_, ?_⟩
    · rw [List.concat_eq_append, nodes_append ⟨table, os⟩ o, List.length_append,
        List.length_singleton, ← hlength, List.getElem?_concat_length]
    · rw [List.concat_eq_append, columns_append ⟨table, os⟩ o, viewAfter]

theorem getElem?_concat_eq_some {α : Type} {as : List α} {a b : α} {k : Nat} :
    (as ++ [a])[k]? = some b ↔ as[k]? = some b ∨ k = as.length ∧ b = a := by
  rw [List.getElem?_append]
  split
  · rename_i hlt
    simp [Nat.ne_of_lt hlt]
  · rename_i hge
    have hout : as[k]? = none := List.getElem?_eq_none (Nat.le_of_not_lt hge)
    rw [hout, List.getElem?_singleton]
    have hzero : k - as.length = 0 ↔ k = as.length := by omega
    simp [hzero, eq_comm]

/-- A plan may go on exactly if it does not end by keeping its result. -/
theorem Valid.not_mem_of_open {p : Plan} (hp : p.Valid) (hopen : p.terminal? = none)
    (name : String) (temporary : Bool) : .materialize name temporary ∉ p.operators := by
  intro hmem
  obtain ⟨k, hk⟩ := List.mem_iff_getElem?.1 hmem
  have hlast : p.operators.getLast? = some (.materialize name temporary) := by
    rw [List.getLast?_eq_getElem?, ← hp.last k name temporary hk, Nat.add_sub_cancel, hk]
  rw [terminal?, hlast] at hopen
  cases hopen

theorem add_eq_ok_iff {p q : Plan} {d : Draft} :
    p.add d = .ok q ↔ p.terminal? = none ∧
      ∃ o, d.check p.columns (some p.next) = .ok o ∧ q = ⟨p.table, p.operators ++ [o]⟩ := by
  constructor
  · intro h
    unfold add at h
    dsimp only at h
    split at h
    · cases h
    · rename_i hopen
      obtain ⟨o, ho, h⟩ := bind_eq_ok.1 h
      cases h
      refine ⟨?_, o, ho, rfl⟩
      cases hterminal : p.terminal? with
      | none => rfl
      | some t => exact absurd hterminal (hopen t)
  · rintro ⟨hopen, o, ho, rfl⟩
    exact add_of_check hopen ho

/-- A valid plan stays valid when a checked operator is added to it. -/
theorem Valid.add {p q : Plan} (hp : p.Valid) {d : Draft} (h : p.add d = .ok q) : q.Valid := by
  obtain ⟨hopen, o, hcheck, rfl⟩ := add_eq_ok_iff.1 h
  obtain ⟨n, hn, hcolumns⟩ := p.exists_last_node
  have hheading : IsHeading p.columns := hcolumns ▸ hp.heading n (List.mem_of_getElem? hn)
  have ho := valid_of_check hheading hcheck
  have hlength := p.length_nodes
  constructor
  case position =>
    intro k m hm
    rw [nodes_append, getElem?_concat_eq_some] at hm
    rcases hm with hm | ⟨rfl, rfl⟩
    · exact hp.position k m hm
    · exact hlength.symm
  case heading =>
    rw [nodes_append, List.forall_mem_append]
    exact ⟨hp.heading, by simpa [viewAfter] using ho.heading⟩
  case mentions =>
    intro k m a hm ha
    rw [nodes_append] at hm
    rcases getElem?_concat_eq_some.1 ha with ha | ⟨rfl, rfl⟩
    · rcases getElem?_concat_eq_some.1 hm with hm | ⟨rfl, _⟩
      · exact hp.mentions k m a hm ha
      · have hlt := (List.getElem?_eq_some_iff.1 ha).1
        omega
    · -- the new operator stands on the last node of the plan
      rcases getElem?_concat_eq_some.1 hm with hm | ⟨hk, _⟩
      · rw [hn, Option.some.injEq] at hm
        rw [← hm, hcolumns]
        exact ho.mentions
      · omega
  case ranks =>
    rw [List.forall_mem_append]
    exact ⟨hp.ranks, by simpa using ho.ranks⟩
  case ordered =>
    rw [List.mem_append, not_or]
    exact ⟨hp.ordered, by simpa using ho.ordered.symm⟩
  case last =>
    intro k name temporary hk
    rcases getElem?_concat_eq_some.1 hk with hk | ⟨rfl, _⟩
    · exact absurd (List.mem_of_getElem? hk) (hp.not_mem_of_open hopen name temporary)
    · rw [List.length_append, List.length_singleton]
  case kept =>
    intro name temporary hmem
    rcases List.mem_append.1 hmem with hmem | hmem
    · exact absurd hmem (hp.not_mem_of_open hopen name temporary)
    · obtain rfl := List.mem_singleton.1 hmem
      have hname : name ≠ "" := fun heq => ho.kept temporary (by rw [heq])
      rw [asTable?, columns_append, List.getLast?_concat]
      exact congrArg some (hheading.make_eq_ok hname temporary)

theorem valid_ofTable {ref : TableRef} (h : IsHeading ref.columns) : (ofTable ref).Valid where
  position k n hn := by
    have hk : k < 1 := (List.getElem?_eq_some_iff.1 hn).1
    obtain rfl : k = 0 := by omega
    cases hn
    rfl
  heading := by simpa [nodes, steps, ofTable, stepsFrom] using h
  mentions _ _ _ _ ho := by simp [ofTable] at ho
  ranks := by simp [ofTable]
  ordered := by simp [ofTable]
  last _ _ _ ho := by simp [ofTable] at ho
  kept _ _ ho := by simp [ofTable] at ho

/-- Every plan that is made is valid. -/
theorem Made.valid {p : Plan} (h : p.Made) : p.Valid := by
  induction h with
  | table h => exact valid_ofTable (isHeading_of_make h)
  | add _ h ih => exact ih.add h

end Plan

/-! ### Any calls -/

/-- How an operator is added to a plan: by a builder, or as it is. -/
inductive Addition
  | extend (name : String) (source : ExprSource) (request : WindowRequest)
  | selectRows (source : ExprSource)
  | orderBy (columns : Names) (reverse : Reversal)
  | selectColumns (columns : List Value)
  | dropColumns (columns : List Value)
  | materialize (table : String) (temporary : Bool)
  | node (d : Draft)

def Addition.to (p : Plan) : Addition → Result Plan
  | extend name source request => p.extend name source request
  | selectRows source => p.selectRows source
  | orderBy columns reverse => p.orderBy columns reverse
  | selectColumns columns => p.selectColumns columns
  | dropColumns columns => p.dropColumns columns
  | materialize table temporary => p.materialize table temporary
  | node d => p.add d

/-- A call that may make a plan; the plans made before are known by their places. -/
inductive PlanCall
  | describe (name : String) (columns : List Value) (temporary : Bool)
  /-- A plan over the kept result of another. -/
  | readKept (place : Nat)
  | add (place : Nat) (a : Addition)

/-- The plan that a call makes, if it does. -/
def PlanCall.plan? (made : List Plan) : PlanCall → Option Plan
  | describe name columns temporary => (Plan.describe name columns temporary).toOption
  | readKept place => do
      let p ← made[place]?
      let ref ← p.asTable?
      return .ofTable (← ref.toOption)
  | add place a => do
      let p ← made[place]?
      (a.to p).toOption

/-- The plans after a call; one that fails leaves them as they are. -/
def PlanCall.apply (made : List Plan) (c : PlanCall) : List Plan := made ++ (c.plan? made).toList

/-- The plans that calls make, one after the other. -/
def plansOf (calls : List PlanCall) : List Plan := calls.foldl PlanCall.apply []

theorem Addition.made {p q : Plan} (hp : p.Made) {a : Addition} (h : a.to p = .ok q) : q.Made := by
  cases a with
  | extend name source request =>
      obtain ⟨value, _, h⟩ := bind_eq_ok.1 h
      obtain ⟨window, _, h⟩ := bind_eq_ok.1 h
      exact hp.add h
  | selectRows source =>
      obtain ⟨condition, _, h⟩ := bind_eq_ok.1 h
      exact hp.add h
  | orderBy columns reverse =>
      obtain ⟨terms, _, h⟩ := bind_eq_ok.1 h
      exact hp.add h
  | selectColumns columns => exact hp.add h
  | dropColumns columns => exact hp.add h
  | materialize table temporary => exact hp.add h
  | node d => exact hp.add h

theorem Plan.asTable?_eq_some {p : Plan} {r : Result TableRef} (h : p.asTable? = some r) :
    ∃ name temporary, r = TableRef.make name (p.columns.map .str) temporary := by
  unfold Plan.asTable? at h
  split at h
  · rename_i name temporary _
    exact ⟨name, temporary, (Option.some.inj h).symm⟩
  · cases h

theorem PlanCall.made {made : List Plan} (hmade : ∀ p ∈ made, p.Made) {c : PlanCall} {q : Plan}
    (h : c.plan? made = some q) : q.Made := by
  cases c with
  | describe name columns temporary =>
      obtain ⟨ref, hmake, hq⟩ := bind_eq_ok.1 (toOption_eq_some.1 h)
      cases hq
      exact .table hmake
  | readKept place =>
      obtain ⟨p, _, h⟩ := Option.bind_eq_some_iff.1 h
      obtain ⟨r, hr, h⟩ := Option.bind_eq_some_iff.1 h
      obtain ⟨ref, href, hq⟩ := Option.bind_eq_some_iff.1 h
      obtain ⟨name, temporary, rfl⟩ := Plan.asTable?_eq_some hr
      cases hq
      exact .table (toOption_eq_some.1 href)
  | add place a =>
      obtain ⟨p, hp, h⟩ := Option.bind_eq_some_iff.1 h
      exact Addition.made (hmade p (List.mem_of_getElem? hp)) (toOption_eq_some.1 h)

theorem PlanCall.made_apply {made : List Plan} (hmade : ∀ p ∈ made, p.Made) (c : PlanCall) :
    ∀ p ∈ c.apply made, p.Made := by
  refine List.forall_mem_append.2 ⟨hmade, fun p hp => ?_⟩
  exact c.made hmade (Option.mem_toList.1 hp)

theorem made_of_mem_plansOf (calls : List PlanCall) : ∀ p ∈ plansOf calls, p.Made := by
  suffices ∀ made : List Plan, (∀ p ∈ made, p.Made) →
      ∀ p ∈ calls.foldl PlanCall.apply made, p.Made by
    exact this [] (by simp)
  induction calls with
  | nil => exact fun made hmade => hmade
  | cons c calls ih => exact fun made hmade => ih _ (c.made_apply hmade)

/-- Whatever plans are asked for, in calls that succeed or fail, all plans that come into being are
valid. -/
theorem valid_of_mem_plansOf (calls : List PlanCall) : ∀ p ∈ plansOf calls, p.Valid :=
  fun p hp => (made_of_mem_plansOf calls p hp).valid

/-- Calls of which some fail: a column is missing, and nothing follows a kept result. -/
def placingCalls : List PlanCall :=
  [.describe "scores" [.str "team", .str "points"] false,
    .add 0 (.selectRows (.expr (.isNull (.column "place") true))),
    .add 0 (.extend "place" (.expr (.ranking .denseRank))
      ⟨.one "team", .one "points", .all true, none⟩),
    .add 1 (.node (.materialize "placings" false)),
    .add 2 (.dropColumns [.str "team"]),
    .readKept 2]

/-- The plan of places, with its result kept, comes into being in spite of the calls that fail. -/
theorem valid_plansOf_placingCalls :
    (plansOf placingCalls).length = 4 ∧
      ∃ p ∈ plansOf placingCalls, p.columns = ["team", "points", "place"] ∧
        p.operators.length = 2 ∧ p.Valid := by
  have hkept : (plansOf placingCalls)[2]?.map (fun p => (p.columns, p.operators.length)) =
      some (["team", "points", "place"], 2) := by decide +kernel
  obtain ⟨p, hp, hseen⟩ := Option.map_eq_some_iff.1 hkept
  obtain ⟨hcolumns, hoperators⟩ := Prod.mk.inj hseen
  have hmem := List.mem_of_getElem? hp
  exact ⟨by decide +kernel, p, hmem, hcolumns, hoperators, valid_of_mem_plansOf placingCalls p hmem⟩

end Tabula
