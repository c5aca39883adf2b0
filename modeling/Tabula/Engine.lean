import Tabula.Config
import Tabula.Plan.Run
import Tabula.Telemetry

/-!
The engine: plans are compiled, run over tables, or handed as statements to a database, as the
configuration says, and all of it is observed. An error of the plan is counted under its class and
logged once, where it arises, and then passed on; nothing is tried again.
-/

namespace Tabula

structure Engine where
  config : Config

namespace Engine

open Observed

/-- Counts and logs an error of a plan. -/
def report (event : String) (e : PlanError) : Observed Unit := do
  count (.errors e.cause.errorClass) 1
  log .warning event ⟨[("error", .text e.cause.errorClass.name),
    ("position", match e.position with | some p => .int p | none => .null),
    ("message", .text e.cause.message)]⟩

/-- Passes a failure on. If it is an error of the plan at the stage, it is counted under `metric`
and reported first. -/
def failAt {α : Type} (stage : Stage) (metric : Metric) (event : String) (f : Failure) :
    Observed α := do
  if let .plan e := f then
    if e.cause.errorClass.stage = stage then
      count metric 1
      report event e
  throw f

def compile (e : Engine) (p : Plan) : Observed String :=
  let dialect := e.config.style.dialect
  let extra : Fields := ⟨[("dialect", .text dialect.name)]⟩
  inContext (p.context extra) <| inSpan "plan.compile" (p.attributes extra) do
    match p.compile e.config.style with
    | .error f => failAt .compile (.compilations dialect false) "pipeline_compile_failed" f
    | .ok sql =>
        setAttribute "plan.sql_length" (.int sql.length)
        count .compileLatency 1
        count (.compilations dialect true) 1
        log .info "pipeline_compiled" ⟨[("sql_length", .int sql.length)]⟩
        return sql

def interpret (e : Engine) (p : Plan) (source : Source) : Observed Table :=
  let order : String × Datum := ("window_row_order", .text e.config.rowOrder.name)
  inContext (p.context .empty) <| inSpan "plan.interpret" (p.attributes ⟨[order]⟩) do
    match p.run source e.config.rowOrder with
    | .error f => failAt .eval (.interpretations false) "pipeline_interpret_failed" f
    | .ok t =>
        let rows := t.rows.length
        setAttribute "plan.rows" (.int rows)
        count .interpretLatency 1
        count (.interpretations true) 1
        count (.rowsProduced false) rows
        log .info "pipeline_interpreted" ⟨[("rows", .int rows), order]⟩
        return t

/-- Runs a plan over its table as `read` gives it. -/
def runFrom (e : Engine) (p : Plan) (read : TableRef → Result Table) : Observed Table := do
  e.interpret p (.table (← ofResult (read p.table)))

/-- Runs a plan over its table as a provider has it. -/
def run (e : Engine) (p : Plan) (tables : Provider) : Observed Table := e.runFrom p tables.read

/-- Compiles a plan and hands the statement to `send`. A plan that keeps its result returns no row,
whatever comes back. -/
def executeRemote (e : Engine) (p : Plan) (send : String → Result (List Row)) :
    Observed (List Row) := do
  let sql ← e.compile p
  inContext (p.context .empty) <| inSpan "plan.execute_remote" (p.attributes .empty) do
    handOut sql
    match send sql with
    | .error f =>
        count (.statementsSent false) 1
        log .error "statement_failed" .empty
        throw f
    | .ok rows =>
        count (.statementsSent true) 1
        let rows := if p.isTerminated then [] else rows
        setAttribute "plan.rows" (.int rows.length)
        count (.rowsProduced true) rows.length
        log .info "statement_sent" ⟨[("rows", .int rows.length)]⟩
        return rows

/-- Opens the database of the configuration. -/
def openBackend (e : Engine) : Talk Backend := Backend.connect e.config.database e.config.threads

end Engine

/-- The version that is noted where metrics are served. -/
def version : String := "0.1.0"

end Tabula
