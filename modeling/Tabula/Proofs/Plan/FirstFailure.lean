import Mathlib.Data.List.ReduceOption
import Tabula.Proofs.Plan.Validity
import Tabula.Proofs.Plan.Safety

/-!
Which failure a run ends with. Rankings and orderings read all rows before they give any, so they
cut a plan into segments, and rows pass through a segment one by one. A run fails in the first
segment or at the first ranking or ordering that fails, each segment before the one that it feeds;
within a segment it is the first row that fails, and of that row the first step, a row that was
dropped being out of reach for the steps behind. The scan stands before the first segment.
-/

namespace Tabula

/-! ### Segments -/

/-- Whether the operator reads all rows before it gives any. -/
def Operator.isBlocking : Operator → Bool
  | extend _ _ (some _) | orderBy _ => true
  | _ => false

/-- What a step that does not block makes of a row, if it does not drop it. -/
def PlanStep.pass (s : PlanStep) (r : Row) : Result (Option Row) :=
  match s.operator with
  | .extend name value none => (r.extend name value s.position).map some
  | .selectRows condition =>
      (r.satisfies condition s.position).map fun kept => if kept then some r else none
  | .selectColumns _ | .dropColumns _ => (r.cut s.output).map some
  | .extend _ _ (some _) | .orderBy _ | .materialize .. => .ok (some r)

/-- What steps make of a row, each of what the one before it gives, as long as it is not dropped. -/
def passAll : List PlanStep → Row → Result (Option Row)
  | [], r => .ok (some r)
  | s :: rest, r => do
      match ← s.pass r with
      | some r' => passAll rest r'
      | none => return none

/-- A row fails at a step, having come through the steps before it. -/
inductive FailsAt : List PlanStep → Row → PlanStep → Failure → Prop
  | here {s : PlanStep} {rest : List PlanStep} {r : Row} {e : Failure}
      (h : s.pass r = .error e) : FailsAt (s :: rest) r s e
  | later {s s' : PlanStep} {rest : List PlanStep} {r r' : Row} {e : Failure}
      (h : s.pass r = .ok (some r')) (hrest : FailsAt rest r' s' e) : FailsAt (s :: rest) r s' e

/-- A row that comes into a segment fails at a place: before the segment, which is at the scan, or
at a step of it. -/
inductive ItemFails (segment : List PlanStep) : Result Row → Nat → Failure → Prop
  | scan {e : Failure} : ItemFails segment (.error e) 0 e
  | step {r : Row} {s : PlanStep} {e : Failure} (h : FailsAt segment r s e) :
      ItemFails segment (.ok r) s.position e

/-- Steps that do not block, up to the next one that does or to the end. -/
structure IsSegment (segment rest : List PlanStep) : Prop where
  streams : ∀ s ∈ segment, s.operator.isBlocking = false
  ends : ∀ s ∈ rest.head?, s.operator.isBlocking = true

/-- The rows that come out of a segment, if no row fails in it. -/
def segmentRows (segment : List PlanStep) (items : List (Result Row)) : Result (List Row) := do
  return (← items.mapM fun item => do passAll segment (← item)).reduceOption

/-- Where steps fail on rows that come in, each row or the failure to read it, and by what. -/
inductive FailsFirst (order : RowOrder) :
    List PlanStep → List (Result Row) → Nat → Failure → Prop
  /-- The first row that fails in the segment, where it fails. -/
  | row {segment rest : List PlanStep} {before after : List (Result Row)} {item : Result Row}
      {position : Nat} {e : Failure} (hsegment : IsSegment segment rest)
      (hbefore : ∀ b ∈ before, ∃ out, (do passAll segment (← b)) = .ok out)
      (hitem : ItemFails segment item position e) :
      FailsFirst order (segment ++ rest) (before ++ item :: after) position e
  /-- No row fails in the segment, but the step that takes all its rows does. -/
  | block {segment rest : List PlanStep} {s : PlanStep} {items : List (Result Row)}
      {rows : List Row} {e : Failure} (hsegment : IsSegment segment (s :: rest))
      (hrows : segmentRows segment items = .ok rows) (hs : s.rows order rows = .error e) :
      FailsFirst order (segment ++ s :: rest) items s.position e
  /-- Neither fails, and what the step gives comes into the next segment. -/
  | later {segment rest : List PlanStep} {s : PlanStep} {items : List (Result Row)}
      {rows out : List Row} {position : Nat} {e : Failure}
      (hsegment : IsSegment segment (s :: rest))
      (hrows : segmentRows segment items = .ok rows) (hs : s.rows order rows = .ok out)
      (hrest : FailsFirst order rest (out.map .ok) position e) :
      FailsFirst order (segment ++ s :: rest) items position e

/-- The rows of a table as a scan reads them. -/
def TableRef.items (ref : TableRef) (t : Table) : List (Result Row) :=
  t.rows.zipIdx.map fun m => (m.1.project ref.columns).mapError fun name =>
    .eval (.rowLacksColumn m.2 ref.name name) (some 0)

/-- Where the run of a plan over a table fails, and by what. -/
inductive Plan.FailsFirst (p : Plan) (t : Table) (order : RowOrder) : Nat → Failure → Prop
  /-- A declared column is missing, which is found before any row is read. -/
  | table (h : ∃ c ∈ p.table.columns, c ∉ t.columns) :
      p.FailsFirst t order 0 (.eval (.lacksColumns p.table.name
        (sortedNames (p.table.columns.filter fun c => !t.columns.contains c))) (some 0))
  | rows {position : Nat} {e : Failure} (h : ∀ c ∈ p.table.columns, c ∈ t.columns)
      (hfails : Tabula.FailsFirst order p.steps (p.table.items t) position e) :
      p.FailsFirst t order position e

/-! ### Flows of segments -/

section Binding

variable {α β : Type}

end Binding

namespace Flow

/-- Items turned into rows one by one, as long as none fails. -/
def through {α : Type} (g : α → Result (Option Row)) : List α → Flow
  | [] => done
  | a :: rest =>
      match g a with
      | .ok (some r) => row r (through g rest)
      | .ok none => through g rest
      | .error e => failed e

variable {α : Type} {g : α → Result (Option Row)} {items : List α}

/-- The answers before a segment. -/
def ofItems (items : List (Result Row)) : Flow := through (·.map some) items

/-- A failure goes through all steps. -/
theorem steps_failed (order : RowOrder) (steps : List PlanStep) (e : Failure) :
    steps.foldl (step order) (failed e) = failed e := by
  induction steps with
  | nil => rfl
  | cons s rest ih =>
      obtain ⟨position, o, input, output⟩ := s
      rcases o with ⟨name, value, _ | window⟩ | condition | terms | selected | dropped | _ <;>
        exact ih

/-- A step that blocks makes its rows of all rows before it. -/
theorem step_of_blocking (order : RowOrder) {s : PlanStep} (hs : s.operator.isBlocking = true)
    (w : Flow) : w.step order s = w.whole (s.rows order) := by
  obtain ⟨position, o, input, output⟩ := s
  rcases o with ⟨name, value, _ | window⟩ | condition | terms | selected | dropped | _
  · cases hs
  · rfl
  · cases hs
  · rfl
  · cases hs
  · cases hs
  · cases hs

theorem whole_of_ok {w : Flow} {rows : List Row} (h : w.toResult = .ok rows)
    (f : List Row → Result (List Row)) : w.whole f = ofResult (f rows) := by
  rw [whole, h]
  rfl

end Flow

/-! ### The failure of steps -/

section Places

variable {columns : List String} {position : Nat} {os : List Operator}

/-- A row in shape comes out of a step in shape, or fails for a cause that lies in the values. -/
theorem PlanStep.ends_pass {o : Operator} (ho : o.Fits columns) (hstreams : o.isBlocking = false)
    {r : Row} (hr : r.Over columns) (position : Nat) :
    Ends (Failure.OfValues position) (fun out => ∀ r' ∈ out, r'.Over (o.output columns))
      (PlanStep.pass ⟨position, o, columns, o.output columns⟩ r) := by
  have hcut {names : List String} (hsub : ∀ c ∈ names, c ∈ columns) :
      Ends (Failure.OfValues position) (fun out => ∀ r' ∈ out, r'.Over names)
        ((r.cut names).map some) := by
    rw [hr.cut_eq hsub]
    intro r' hr'
    cases hr'
    exact hr.fill hsub
  rcases o with ⟨name, value, _ | window⟩ | condition | terms | selected | dropped | _
  · exact (hr.ends_extend ho name position).map (by simp [Operator.output])
  · cases hstreams
  · refine (hr.ends_satisfies ho position).map fun kept _ => ?_
    cases kept with
    | false => simp
    | true => simpa [Operator.output] using hr
  · cases hstreams
  · exact hcut ho.2
  · exact hcut fun c hc => List.mem_of_mem_filter hc
  · intro r' hr'
    cases hr'
    exact hr

/-- A step in shape that blocks gives rows in shape, or fails for a cause that lies in the
values. -/
theorem PlanStep.ends_rows {o : Operator} (ho : o.Fits columns) (hblocks : o.isBlocking = true)
    {rows : List Row} (hrows : ∀ r ∈ rows, r.Over columns) (order : RowOrder) (position : Nat) :
    Ends (Failure.OfValues position) (fun out => ∀ r ∈ out, r.Over (o.output columns))
      (PlanStep.rows ⟨position, o, columns, o.output columns⟩ order rows) := by
  have hsafe : ((Flow.ofList rows).step order ⟨position, o, columns, o.output columns⟩).Safe
      (Failure.OfValues position) (Row.Over (o.output columns)) :=
    (Flow.safe_ofList hrows).step ho order fun e he => he
  have hends := hsafe.ends
  rwa [Flow.step_of_blocking order hblocks, Flow.whole_of_ok (Flow.toResult_ofList rows),
    Flow.toResult_ofResult] at hends

theorem FailsAt.ofValues (hos : FitChain columns os)
    (hstreams : ∀ s ∈ stepsFrom position columns os, s.operator.isBlocking = false) {r : Row}
    (hr : r.Over columns) {s : PlanStep} {e : Failure}
    (h : FailsAt (stepsFrom position columns os) r s e) : e.OfValues s.position := by
  induction os generalizing position columns r with
  | nil => cases h
  | cons o os ih =>
      rw [stepsFrom, List.forall_mem_cons] at hstreams
      have hpass := PlanStep.ends_pass hos.1 hstreams.1 hr position
      cases h with
      | here h => exact hpass.of_eq_error h
      | later h hrest => exact ih hos.2 hstreams.2 (hpass.of_eq_ok h _ rfl) hrest

end Places

/-! ### Runs -/

theorem Cursor.scanFlow_eq_ofItems (ref : TableRef) (rows : List Row) (read : Nat) :
    scanFlow ref read rows =
      .ofItems ((rows.zipIdx read).map fun m => (m.1.project ref.columns).mapError fun name =>
        .eval (.rowLacksColumn m.2 ref.name name) (some 0)) := by
  induction rows generalizing read with
  | nil => rfl
  | cons r rest ih =>
      rw [scanFlow, ih, List.zipIdx_cons, List.map_cons]
      cases r.project ref.columns <;> rfl

namespace TableRef

variable {ref : TableRef} {t : Table}

theorem flow_of_columns (h : ∀ c ∈ ref.columns, c ∈ t.columns) :
    ref.flow t = .ofItems (ref.items t) := by
  rw [flow, sortedNames_eq_nil.2 (filter_not_contains_eq_nil.2 h)]
  exact Cursor.scanFlow_eq_ofItems ref t.rows 0

theorem flow_of_missing (h : ∃ c ∈ ref.columns, c ∉ t.columns) :
    ref.flow t = .failed (.eval (.lacksColumns ref.name
      (sortedNames (ref.columns.filter fun c => !t.columns.contains c))) (some 0)) := by
  rw [flow]
  split
  · rename_i hnil
    obtain ⟨c, hc, hmissing⟩ := h
    exact absurd (filter_not_contains_eq_nil.1 (sortedNames_eq_nil.1 hnil) c hc) hmissing
  · rfl

end TableRef

/-- A run over a table that lacks declared columns fails at the table, whatever the steps are. -/
theorem Plan.run_of_missing {p : Plan} {t : Table} (h : ∃ c ∈ p.table.columns, c ∉ t.columns)
    (order : RowOrder) : p.run (.table t) order =
      .error (.eval (.lacksColumns p.table.name
        (sortedNames (p.table.columns.filter fun c => !t.columns.contains c))) (some 0)) := by
  rw [run_eq_flow, flow, Source.toTable, TableRef.flow_of_missing h, Flow.steps_failed]
  rfl

end Tabula
