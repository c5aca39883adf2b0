import Tabula.Failure
import Tabula.Plan
import Tabula.Telemetry.Event
import Tabula.Telemetry.Metric

/-!
What can be observed of work while it is done: log events, spans of time with attributes, counts,
and the statements that were handed out. A failure leaves what was observed before it; the span in
which it happens is finished with the class of the failure.
-/

namespace Tabula

mutual
/-- Without what has an empty name. -/
def Datum.named : Datum → Datum
  | .list items => .list (itemsNamed items)
  | .group fields => .group (fieldsNamed fields)
  | d => d
def itemsNamed : List Datum → List Datum
  | [] => []
  | d :: ds => d.named :: itemsNamed ds
def fieldsNamed : List (String × Datum) → List (String × Datum)
  | [] => []
  | (name, d) :: fields =>
      if name = "" then fieldsNamed fields else (name, d.named) :: fieldsNamed fields
end

namespace Fields

/-- The most attributes that a span keeps. -/
def mostKept : Nat := 128

/-- Adds an attribute, the newest last. Nulls and what has no name are not kept, and the oldest one
makes room. -/
def keep (f : Fields) (name : String) (d : Datum) : Fields :=
  match name, d with
  | "", _ | _, .null => f
  | name, d =>
      let others := (f.without [name]).entries
      ⟨others.drop (others.length + 1 - mostKept) ++ [(name, d.named)]⟩

/-- What of the fields are attributes of a span. -/
def kept (f : Fields) : Fields := f.entries.foldl (fun k e => k.keep e.1 e.2) empty

end Fields

structure Span where
  name : String
  attributes : Fields
  /-- The class of the failure that ended the span. -/
  failed : Option String

structure Observations where
  /-- The fields that events get from where they are written. -/
  context : Fields
  events : List LogEvent
  /-- Spans that are still open, innermost first. -/
  running : List Span
  /-- Spans in the order in which they were finished. -/
  spans : List Span
  metrics : Metrics
  /-- The statements handed out. -/
  sent : List String

def Observations.start (version : Option String) : Observations :=
  ⟨.empty, [], [], [], .start version, []⟩

/-- The observations of what comes next: counts go on, everything else starts anew. -/
def Observations.next (o : Observations) : Observations :=
  ⟨.empty, [], [], [], o.metrics, []⟩

/-- Work that is observed, and may fail. -/
abbrev Observed (α : Type) := ExceptT Failure (StateM Observations) α

namespace Observed

variable {α : Type}

def ofResult (r : Result α) : Observed α := ExceptT.mk (pure r)

/-- The outcome of work, as an outcome and not as the end. -/
def outcome (work : Observed α) : Observed (Result α) := ExceptT.mk do return .ok (← work.run)

def observe (f : Observations → Observations) : Observed Unit := modify f

def log (level : LogLevel) (name : String) (fields : Fields) : Observed Unit :=
  observe fun o => { o with events := o.events ++ [⟨level, name, o.context.update fields⟩] }

def count (m : Metric) (n : Nat) : Observed Unit :=
  observe fun o => { o with metrics := o.metrics.add m n }

/-- Notes that a statement is handed out. -/
def handOut (statement : String) : Observed Unit :=
  observe fun o => { o with sent := o.sent ++ [statement] }

/-- Work in whose events the fields are found; afterwards the context is as it was. -/
def inContext (fields : Fields) (work : Observed α) : Observed α := ExceptT.mk do
  let before := (← get).context
  modify fun o => { o with context := o.context.update fields }
  let r ← work.run
  modify fun o => { o with context := before }
  return r

/-- Finishes the innermost span. -/
def finish (failed : Option String) (o : Observations) : Observations :=
  match o.running with
  | [] => o
  | s :: rest => { o with running := rest, spans := o.spans ++ [{ s with failed }] }

/-- Work in a span of its own. -/
def inSpan (name : String) (attributes : Fields) (work : Observed α) : Observed α := ExceptT.mk do
  modify fun o => { o with running := ⟨name, attributes.kept, none⟩ :: o.running }
  let r ← work.run
  modify (finish (match r with | .ok _ => none | .error e => some e.className))
  return r

/-- Gives the innermost span a further attribute. -/
def setAttribute (name : String) (d : Datum) : Observed Unit :=
  observe fun o =>
    match o.running with
    | [] => o
    | s :: rest => { o with running := { s with attributes := s.attributes.keep name d } :: rest }

end Observed

/-- What is said of a plan that is worked on. -/
def Plan.shape (p : Plan) : Fields :=
  ⟨[("table", .text p.table.name), ("nodes", .int p.operators.length),
    ("materialized", .bool p.isTerminated)]⟩

/-- What events say about the plan. -/
def Plan.context (p : Plan) (extra : Fields) : Fields := p.shape.update extra

/-- What spans say about the plan. -/
def Plan.attributes (p : Plan) (extra : Fields) : Fields :=
  ⟨(p.context extra).entries.map fun e => ("plan." ++ e.1, e.2)⟩

/-- Refuses fields under names that a call has given already. -/
def Fields.refuse (f : Fields) (call : String) (byNames : Bool) (taken : List String) :
    Result Unit :=
  match f.names.find? taken.contains with
  | some n => .error (.operand (.givenTwice call byNames n))
  | none => .ok ()

/-- What events say about the plan, with fields that are given by name. -/
def Plan.contextWith (p : Plan) (extra : Fields) : Result Fields := do
  extra.refuse "plan_log_context" false ["pipeline"]
  extra.refuse "structlog.contextvars.bound_contextvars" true p.shape.names
  return p.context extra

/-- What spans say about the plan, with fields that are given by name. -/
def Plan.attributesWith (p : Plan) (extra : Fields) : Result Fields := do
  extra.refuse "pipeline_attributes" false ["pipeline"]
  return p.attributes extra

end Tabula
