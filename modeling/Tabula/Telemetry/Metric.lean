import Tabula.Failure

/-!
What is counted, and the counts. A count appears with the first thing that is counted under it, even
if that is nothing; the counts of the two latencies and the note of the engine are always there.
-/

namespace Tabula

inductive Metric
  | compilations (dialect : Dialect) (succeeded : Bool)
  | interpretations (succeeded : Bool)
  | rowsProduced (remote : Bool)
  | statementsSent (succeeded : Bool)
  | errors (error : ErrorClass)
  | compileLatency
  | interpretLatency
  /-- The version is noted only where metrics are served. -/
  | engineInfo (version : Option String)
  deriving DecidableEq, Repr

namespace Metric

def sample : Metric → String
  | compilations .. => "plan_compilations_total"
  | interpretations _ => "plan_interpretations_total"
  | rowsProduced _ => "plan_rows_produced_total"
  | statementsSent _ => "plan_statements_sent_total"
  | errors _ => "plan_errors_total"
  | compileLatency => "plan_compile_latency_seconds_count"
  | interpretLatency => "plan_interpret_latency_seconds_count"
  | engineInfo _ => "plan_engine_info"

def statusText (succeeded : Bool) : String := if succeeded then "success" else "error"

/-- The labels in the order of their names. -/
def labels : Metric → List (String × String)
  | compilations d ok => [("dialect", d.name), ("status", statusText ok)]
  | interpretations ok => [("status", statusText ok)]
  | rowsProduced remote => [("backend", if remote then "remote" else "memory")]
  | statementsSent ok => [("status", statusText ok)]
  | errors e => [("error", e.name), ("stage", e.stage.name)]
  | compileLatency | interpretLatency => []
  | engineInfo none => []
  | engineInfo (some version) => [("version", version)]

def labelText (m : Metric) : String := ",".intercalate (m.labels.map fun l => l.1 ++ "=" ++ l.2)

end Metric

/-- Counts, each metric at most once. -/
structure Metrics where
  counts : List (Metric × Nat)

namespace Metrics

/-- Nothing has happened yet. -/
def start (version : Option String) : Metrics :=
  ⟨[(.compileLatency, 0), (.interpretLatency, 0), (.engineInfo version, 1)]⟩

def count (ms : Metrics) (m : Metric) : Nat := (ms.counts.lookup m).getD 0

def addTo (m : Metric) (n : Nat) : List (Metric × Nat) → List (Metric × Nat)
  | [] => [(m, n)]
  | (k, c) :: rest => if k = m then (k, c + n) :: rest else (k, c) :: addTo m n rest

def add (ms : Metrics) (m : Metric) (n : Nat) : Metrics := ⟨addTo m n ms.counts⟩

theorem lookup_addTo (m k : Metric) (n : Nat) (cs : List (Metric × Nat)) :
    ((addTo m n cs).lookup k).getD 0 = (cs.lookup k).getD 0 + if k = m then n else 0 := by
  have ne {a b : Metric} (h : ¬a = b) : (a == b) = false := beq_false_of_ne h
  induction cs with
  | nil => by_cases h : k = m <;> simp [addTo, List.lookup_cons, h, ne]
  | cons c rest ih =>
    obtain ⟨j, d⟩ := c
    by_cases hj : j = m
    · subst hj
      by_cases hk : k = j <;> simp [addTo, List.lookup_cons, hk, ne]
    · by_cases hk : k = j
      · subst hk
        simp [addTo, hj]
      · simp [addTo, hj, List.lookup_cons, ne hk, ih]

theorem count_add (ms : Metrics) (m k : Metric) (n : Nat) :
    (ms.add m n).count k = ms.count k + if k = m then n else 0 := lookup_addTo m k n ms.counts

/-- Sample, labels and count of everything counted, in order. -/
def samples (ms : Metrics) : List (String × String × Nat) :=
  let rows := ms.counts.map fun (m, n) => (m.sample, m.labelText, n)
  rows.mergeSort fun a b => decide (a.1 < b.1) || (a.1 == b.1 && decide (a.2.1 ≤ b.2.1))

end Metrics

end Tabula
