import Tabula.Proofs.Plan.Run
import Tabula.Proofs.Plan.Shape
import Tabula.Proofs.Row.Window

/-!
Safety of runs. In a plan that was made by adding operators, every row that an operator is given has
the columns that come out before it, with values that plans compute with. So no operator misses a
column, every ranking has its window, and a run that fails does so for a cause that lies in the
values met at one operator, or because the table or one of its rows lacks what is declared.
-/

namespace Tabula

/-- The cause lies in the table or in a row of it. -/
def EvalCause.OfSource : EvalCause → Prop
  | lacksColumns .. | rowLacksColumn .. => True
  | _ => False

namespace Failure

/-- The failure of the node at a place, for a cause that lies in the values. -/
def OfValues (position : Nat) (e : Failure) : Prop :=
  ∃ cause : EvalCause, cause.OfValues ∧ e = .eval cause (some position)

/-- The failure of a scan. -/
def OfSource (e : Failure) : Prop := ∃ cause : EvalCause, cause.OfSource ∧ e = .eval cause (some 0)

end Failure

theorem EvalFault.OfValues.at {fault : EvalFault} (h : fault.OfValues) (position : Nat) :
    (fault.at (some position)).OfValues position := by
  cases fault with
  | cause c => exact ⟨c, h, rfl⟩
  | noOrder clash => exact absurd h id

namespace Row

variable {r : Row} {columns : List String}

theorem Over.ends_extend (h : r.Over columns) {value : Expr} (hv : value.Scalar columns)
    (name : String) (position : Nat) :
    Ends (Failure.OfValues position)
      (Row.Over (if columns.contains name then columns else columns ++ [name]))
      (r.extend name value position) := by
  have heval := Expr.ends_eval h.supported (h.columns_eq.symm ▸ hv)
  rw [extend]
  cases hvalue : value.eval r with
  | ok v => exact h.set name (heval.of_eq_ok hvalue)
  | error fault => exact (heval.of_eq_error hvalue).at position

theorem Over.ends_satisfies (h : r.Over columns) {condition : Expr} (hc : condition.Scalar columns)
    (position : Nat) :
    Ends (Failure.OfValues position) (fun _ => True) (r.satisfies condition position) :=
  (Expr.ends_holds h.supported (h.columns_eq.symm ▸ hc)).mapError fun _ hf => hf.at position

theorem Over.cut_eq (h : r.Over columns) {names : List String} (hsub : ∀ c ∈ names, c ∈ columns) :
    r.cut names = .ok (r.fill names) := by
  rw [cut, project_eq_fill (h.columns_eq.symm ▸ hsub)]
  rfl

end Row

section Lists

variable {rows : List Row} {columns : List String}

theorem SortFault.IsClash.at {fault : SortFault} (h : fault.IsClash) (position : Nat) :
    (fault.at (some position)).OfValues position := by
  cases fault with
  | clash column c => exact ⟨.cannotOrder column c, trivial, rfl⟩
  | noColumn name => exact absurd h id

theorem ends_sortRows (hrows : ∀ r ∈ rows, r.Over columns) {terms : List OrderTerm}
    (hterms : ∀ t ∈ terms, t.column ∈ columns) (position : Nat) :
    Ends (Failure.OfValues position) (·.Perm rows)
      ((sortRows terms rows).mapError (·.at (some position))) :=
  (ends_sortItems fun t ht r hr => (hrows r hr).has (hterms t ht)).mapError
    fun _ hf => hf.at position

theorem RankedWindow.ends_rankGroup {w : RankedWindow} {members : List (Row × Nat)}
    (hrows : ∀ m ∈ members, m.1.Over columns)
    (hcolumns : ∀ c ∈ w.window.columns, c ∈ columns) :
    Ends (Failure.OfValues w.position)
      (fun out => ∀ m ∈ out,
        m.1.Over (if columns.contains w.name then columns else columns ++ [w.name]))
      (w.rankGroup members) := by
  have hsort : Ends SortFault.IsClash (·.Perm members)
      (sortItems Prod.fst w.window.orderBy members) :=
    ends_sortItems fun t ht m hm =>
      (hrows m hm).has (hcolumns t.column (List.mem_append_right _ (List.mem_map_of_mem ht)))
  refine (hsort.mapError fun _ hf => hf.at w.position).bind fun sorted hperm => .pure ?_
  rw [List.forall_mem_map]
  intro m hm
  have hmem : m.1 ∈ members := hperm.subset (List.of_mem_zip hm).1
  exact (hrows m.1 hmem).set w.name (Value.supported_int _)

/-- A ranking fails only where the rows of a partition cannot be ordered. -/
theorem RankedWindow.ends_rows {w : RankedWindow} (hrows : ∀ r ∈ rows, r.Over columns)
    (hcolumns : ∀ c ∈ w.window.columns, c ∈ columns) (order : RowOrder) :
    Ends (Failure.OfValues w.position)
      (fun out => ∀ r ∈ out,
        r.Over (if columns.contains w.name then columns else columns ++ [w.name]))
      (w.rows order rows) := by
  have hkeys : ∀ r ∈ rows, ∀ c ∈ w.window.partitionBy, r.Has Value.Supported c :=
    fun r hr c hc => (hrows r hr).has (hcolumns c (List.mem_append_left _ hc))
  have hgroups : Ends (Failure.OfValues w.position)
      (fun gs => ∀ g ∈ gs, ∀ m ∈ g,
        m.1.Over (if columns.contains w.name then columns else columns ++ [w.name]))
      ((w.groups rows).mapM w.rankGroup) := by
    refine ends_mapM fun g hg => w.ends_rankGroup (fun m hm => ?_) hcolumns
    obtain ⟨k, hk⟩ := exists_of_mem_groupsOf _ g hg m hm
    obtain ⟨m', hm', heq⟩ := List.mem_map.1 hk
    cases heq
    exact hrows m.1 (mem_of_mem_zipIdx hm')
  rw [rows_def hkeys]
  refine hgroups.bind fun gs hgs => ?_
  have hranked : ∀ m ∈ gs.flatten,
      m.1.Over (if columns.contains w.name then columns else columns ++ [w.name]) := by
    intro m hm
    obtain ⟨g, hg, hmg⟩ := List.mem_flatten.1 hm
    exact hgs g hg m hmg
  cases order with
  | partition => exact .pure (List.forall_mem_map.2 hranked)
  | input =>
      refine .pure (List.forall_mem_map.2 fun m hm => hranked m ?_)
      exact (List.mergeSort_perm _ _).subset hm

end Lists

/-! ### Steps and runs -/

namespace Flow

/-- All rows have `Q`, and the failure that ends them, if one does, is among `E`. -/
def Safe (E : Failure → Prop) (Q : Row → Prop) : Flow → Prop
  | done => True
  | failed e => E e
  | row r rest => Q r ∧ rest.Safe E Q

variable {E : Failure → Prop} {Q R : Row → Prop} {w : Flow}

theorem Safe.ends (h : w.Safe E Q) : Ends E (fun rows => ∀ r ∈ rows, Q r) w.toResult := by
  induction w with
  | done => exact .pure (by simp)
  | failed e => exact h
  | row r rest ih =>
      have hrest := ih h.2
      rw [toResult]
      cases hrows : rest.toResult with
      | error e => exact hrest.of_eq_error hrows
      | ok rows => exact List.forall_mem_cons.2 ⟨h.1, hrest.of_eq_ok hrows⟩

theorem safe_ofList {rows : List Row} (h : ∀ r ∈ rows, Q r) : (ofList rows).Safe E Q := by
  induction rows with
  | nil => exact trivial
  | cons r rest ih =>
      rw [List.forall_mem_cons] at h
      exact ⟨h.1, ih h.2⟩

theorem Safe.map (h : w.Safe E Q) {f : Row → Result Row} (hf : ∀ r, Q r → Ends E R (f r)) :
    (w.map f).Safe E R := by
  induction w with
  | done => exact trivial
  | failed e => exact h
  | row r rest ih =>
      have hr := hf r h.1
      rw [Flow.map]
      cases hrow : f r with
      | error e => exact hr.of_eq_error hrow
      | ok r' => exact ⟨hr.of_eq_ok hrow, ih h.2⟩

theorem Safe.filter (h : w.Safe E Q) {keep : Row → Result Bool}
    (hk : ∀ r, Q r → Ends E (fun _ => True) (keep r)) : (w.filter keep).Safe E Q := by
  induction w with
  | done => exact trivial
  | failed e => exact h
  | row r rest ih =>
      have hr := hk r h.1
      rw [Flow.filter]
      rcases hkeep : keep r with e | _ | _
      · exact hr.of_eq_error hkeep
      · exact ih h.2
      · exact ⟨h.1, ih h.2⟩

theorem Safe.whole (h : w.Safe E Q) {f : List Row → Result (List Row)}
    (hf : ∀ rows, (∀ r ∈ rows, Q r) → Ends E (fun out => ∀ r ∈ out, R r) (f rows)) :
    (w.whole f).Safe E R := by
  have hout := h.ends.bind hf
  rw [Flow.whole]
  cases hresult : w.toResult >>= f with
  | error e => exact hout.of_eq_error hresult
  | ok out => exact safe_ofList (hout.of_eq_ok hresult)

/-- Every step keeps rows in shape. -/
theorem Safe.step {columns : List String} (h : w.Safe E (Row.Over columns)) {o : Operator}
    (ho : o.Fits columns) (order : RowOrder) {position : Nat}
    (hE : ∀ e : Failure, e.OfValues position → E e) :
    (w.step order ⟨position, o, columns, o.output columns⟩).Safe E
      (Row.Over (o.output columns)) := by
  rcases o with ⟨name, value, _ | window⟩ | condition | terms | selected | dropped | _
  · exact h.map fun r hr => (hr.ends_extend ho name position).weaken hE
  · -- the window of a ranking was checked with it
    obtain ⟨⟨f, rfl⟩, hcolumns⟩ := ho
    refine h.whole fun rows hrows => ?_
    exact (RankedWindow.ends_rows (w := ⟨name, f, window, position⟩) hrows hcolumns order).weaken hE
  · exact h.filter fun r hr => (hr.ends_satisfies ho position).weaken hE
  · refine h.whole fun rows hrows => ((ends_sortRows hrows ho position).weaken hE).mono ?_
    exact fun out hperm r hr => hrows r (hperm.subset hr)
  · refine h.map fun r hr => ?_
    rw [Operator.output, hr.cut_eq ho.2]
    exact hr.fill ho.2
  · refine h.map fun r hr => ?_
    have hsub : ∀ c ∈ (Operator.dropColumns dropped).output columns, c ∈ columns :=
      fun c hc => List.mem_of_mem_filter hc
    rw [hr.cut_eq hsub]
    exact hr.fill hsub
  · exact h

theorem Safe.steps {columns : List String} (h : w.Safe E (Row.Over columns)) {os : List Operator}
    (hos : FitChain columns os) (order : RowOrder) {position : Nat}
    (hE : ∀ s ∈ stepsFrom position columns os, ∀ e : Failure, e.OfValues s.position → E e) :
    ((stepsFrom position columns os).foldl (Flow.step order) w).Safe E
      (Row.Over (Plan.columnsAfter columns os)) := by
  induction os generalizing w position columns with
  | nil => exact h
  | cons o os ih =>
      rw [stepsFrom, List.forall_mem_cons] at hE
      exact ih (h.step hos.1 order hE.1) hos.2 hE.2

/-- A scan fails by nothing but the source, and its rows are those of the table cut to the declared
columns. -/
theorem safe_cuts (ref : TableRef) {t : Table} (hE : ∀ e : Failure, e.OfSource → E e)
    (hQ : ∀ r ∈ t.rows, ∀ cut, r.project ref.columns = .ok cut → Q cut) :
    (ref.flow t).Safe E Q := by
  have hrows (rows : List Row) (read : Nat)
      (hQ : ∀ r ∈ rows, ∀ cut, r.project ref.columns = .ok cut → Q cut) :
      (Cursor.scanFlow ref read rows).Safe E Q := by
    induction rows generalizing read with
    | nil => exact trivial
    | cons r rest ih =>
        rw [List.forall_mem_cons] at hQ
        rw [Cursor.scanFlow]
        cases hcut : r.project ref.columns with
        | error name => exact hE _ ⟨.rowLacksColumn read ref.name name, trivial, rfl⟩
        | ok cut => exact ⟨hQ.1 cut hcut, ih (read + 1) hQ.2⟩
  rw [TableRef.flow]
  split
  · exact hrows t.rows 0 hQ
  · exact hE _ ⟨.lacksColumns ref.name _, trivial, rfl⟩

theorem safe_scan (ref : TableRef) {t : Table} (hE : ∀ e : Failure, e.OfSource → E e)
    (ht : ∀ r ∈ t.rows, ∀ cell ∈ r.cells, cell.2.Supported) :
    (ref.flow t).Safe E (Row.Over ref.columns) :=
  safe_cuts ref hE fun r hr _ hcut => Row.over_of_project (ht r hr) hcut

end Flow

/-- What a step gives has the shape that its operator announces. -/
theorem PlanStep.over_rows {columns : List String} {o : Operator} (ho : o.Fits columns)
    {rows : List Row} (hrows : ∀ r ∈ rows, r.Over columns) {position : Nat} {order : RowOrder}
    {out : List Row}
    (h : PlanStep.rows ⟨position, o, columns, o.output columns⟩ order rows = .ok out) :
    ∀ r ∈ out, r.Over (o.output columns) := by
  have hsafe : ((Flow.ofList rows).step order ⟨position, o, columns, o.output columns⟩).Safe
      (fun _ => True) (Row.Over (o.output columns)) :=
    (Flow.safe_ofList hrows).step ho order fun _ _ => trivial
  refine hsafe.ends.of_eq_ok (Flow.toResult_step_eq_ok.2 ⟨rows, ?_, h⟩)
  exact Flow.toResult_ofList rows

/-- A scan succeeds if the table has the declared columns and every row does. -/
theorem TableRef.rows_eq_ok {ref : TableRef} {t : Table} {out : List Row} :
    ref.rows t = .ok out ↔
      (∀ c ∈ ref.columns, c ∈ t.columns) ∧ t.rows.mapM (·.project ref.columns) = .ok out := by
  rw [← filter_not_contains_eq_nil, ← sortedNames_eq_nil, TableRef.rows]
  cases hmissing : sortedNames (ref.columns.filter fun c => !t.columns.contains c) with
  | cons name rest => simp
  | nil =>
      simp only [true_and]
      exact mapM_zipIdx_eq_ok (f := fun r : Row => r.project ref.columns)
        (g := fun i name => Failure.eval (.rowLacksColumn i ref.name name) (some 0))

/-- The values in the rows are values that plans compute with. -/
def Table.Supported (t : Table) : Prop := ∀ r ∈ t.rows, ∀ cell ∈ r.cells, cell.2.Supported

instance (t : Table) : Decidable t.Supported :=
  inferInstanceAs (Decidable (∀ r ∈ t.rows, ∀ cell ∈ r.cells, cell.2.Supported))

theorem TableRef.over_rows {ref : TableRef} {t : Table} (ht : t.Supported) {out : List Row}
    (h : ref.rows t = .ok out) : ∀ r ∈ out, r.Over ref.columns := by
  have hsafe := Flow.safe_scan (E := fun _ => True) ref (fun _ _ => trivial) ht
  exact hsafe.ends.of_eq_ok (by rw [TableRef.toResult_flow, h])

/-- The ways in which a run of the plan can fail. -/
def Plan.Fails (p : Plan) (e : Failure) : Prop :=
  e.OfSource ∨ ∃ s ∈ p.steps, e.OfValues s.position

theorem Plan.Made.ends_flow {p : Plan} (hp : p.Made) {t : Table} (ht : t.Supported)
    (order : RowOrder) :
    Ends p.Fails (fun rows => ∀ r ∈ rows, r.Over p.columns) (p.flow t order).toResult := by
  have hscan : (p.table.flow t).Safe p.Fails (Row.Over p.table.columns) :=
    Flow.safe_scan p.table (fun _ he => .inl he) ht
  exact (hscan.steps hp.fitChain order fun s hs e he => .inr ⟨s, hs, he⟩).ends

/-! ### Values that reach windows and orderings -/

/-- The columns of the window of a ranking. -/
def Operator.windowColumns : Operator → List String
  | extend _ _ (some w) => w.columns
  | _ => []

/-- The columns that rows are told apart or ordered by. -/
def Operator.orderedColumns : Operator → List String
  | extend _ _ (some w) => w.columns
  | orderBy terms => terms.map OrderTerm.column
  | _ => []

/-- Whether no value in the columns that `keys` gives for a step is a double that is no number when
the steps go through rows, up to the first step that fails. -/
def noNaNFrom (keys : Operator → List String) (order : RowOrder) :
    List PlanStep → List Row → Bool
  | [], _ => true
  | s :: rest, rows =>
      (rows.all fun r => (keys s.operator).all fun c => !(r.getD c).isNaN) &&
        match s.rows order rows with
        | .ok out => noNaNFrom keys order rest out
        | .error _ => true

/-- Whether no such value reaches the columns of a step in a run over a table. -/
def Plan.noNaN (p : Plan) (keys : Operator → List String) (t : Table) (order : RowOrder) : Bool :=
  match p.table.rows t with
  | .ok rows => noNaNFrom keys order p.steps rows
  | .error _ => true

theorem noNaNFrom_cons {keys : Operator → List String} {order : RowOrder} {s : PlanStep}
    {rest : List PlanStep} {rows : List Row} (h : noNaNFrom keys order (s :: rest) rows = true) :
    (∀ r ∈ rows, ∀ c ∈ keys s.operator, (r.getD c).isNaN = false) ∧
      ∀ out, s.rows order rows = .ok out → noNaNFrom keys order rest out = true := by
  rw [noNaNFrom, Bool.and_eq_true] at h
  constructor
  · simpa using h.1
  · intro out hout
    rw [hout] at h
    exact h.2

theorem Row.Over.plain {r : Row} {columns : List String} (h : r.Over columns) {c : String}
    (hc : c ∈ columns) (hn : (r.getD c).isNaN = false) : r.Has Value.Plain c :=
  (h.has hc).plain hn

/-! ### A plan over the table of scores -/

def scoreTable : Table := ⟨["team", "points"], RankedWindow.scores⟩

/-- The rows that have points, with their places in their teams. -/
def placings : Plan :=
  ⟨⟨"scores", ["team", "points"], false⟩,
    [.selectRows (.isNull (.column "points") true),
      .extend "place" (.ranking .denseRank) (some ⟨["team"], [⟨"points", true⟩]⟩)]⟩

theorem made_scores : (Plan.ofTable placings.table).Made := by
  have htable : TableRef.make "scores" [.str "team", .str "points"] false =
      .ok placings.table := rfl
  exact .table htable

theorem made_presentScores : (Plan.mk placings.table (placings.operators.take 1)).Made := by
  have hselection : (Plan.ofTable placings.table).add
      (.selectRows (.isNull (.column "points") true)) =
        .ok ⟨placings.table, placings.operators.take 1⟩ :=
    Plan.add_of_check rfl (check_selectRows_eq_ok.2 ⟨⟨rfl, by decide⟩, rfl⟩)
  exact made_scores.add hselection

theorem made_placings : placings.Made := by
  have hranking : (Plan.mk placings.table (placings.operators.take 1)).add
      (.extend "place" (.ranking .denseRank) (some ⟨["team"], [⟨"points", true⟩]⟩)) =
        .ok placings :=
    Plan.add_of_check rfl (check_extend_eq_ok.2 ⟨by decide, rfl, by decide, rfl⟩)
  exact made_presentScores.add hranking

theorem exists_rows_placings : ∃ rows, placings.rows scoreTable .input = .ok rows :=
  exists_of_isOk (by decide +kernel)

end Tabula
