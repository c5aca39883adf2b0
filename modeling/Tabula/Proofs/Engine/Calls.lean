import Tabula.Proofs.Engine.Account
import Tabula.Proofs.Plan.Stages

/-!
The accounts of an engine's calls. A run reads and then interprets, a remote execution compiles and
then sends; accordingly their accounts are put together from those of their parts. A history of
calls is accounted for call by call, since no call depends on what was observed before it.
-/

namespace Tabula

namespace Engine

open Observed

variable (e : Engine)

/-- What a failure of a plan adds to the counts: the failed attempt, and the error under its class.
Failures that are no errors of the plan at the stage are not counted. -/
def failureCounts (stage : Stage) (attempt : Metric) (f : Failure) : List (Metric × Nat) :=
  match f.errorClass? with
  | some k => if k.stage = stage then [(attempt, 1), (.errors k, 1)] else []
  | none => []

def compileAccount (p : Plan) : Account String :=
  let dialect := e.config.style.dialect
  match p.compile e.config.style with
  | .error f => ⟨.error f, failureCounts .compile (.compilations dialect false) f, []⟩
  | .ok sql => ⟨.ok sql, [(.compileLatency, 1), (.compilations dialect true, 1)], []⟩

def interpretAccount (p : Plan) (source : Source) : Account Table :=
  match p.run source e.config.rowOrder with
  | .error f => ⟨.error f, failureCounts .eval (.interpretations false) f, []⟩
  | .ok t => ⟨.ok t, [(.interpretLatency, 1), (.interpretations true, 1),
      (.rowsProduced false, t.rows.length)], []⟩

/-- The account of sending a plan's statement, by what comes back. -/
def sendAccount (p : Plan) (sql : String) : Result (List Row) → Account (List Row)
  | .error f => ⟨.error f, [(.statementsSent false, 1)], [sql]⟩
  | .ok rows =>
      let rows := if p.isTerminated then [] else rows
      ⟨.ok rows, [(.statementsSent true, 1), (.rowsProduced true, rows.length)], [sql]⟩

def runAccount (p : Plan) (read : TableRef → Result Table) : Account Table :=
  (Account.ofResult (read p.table)).bind fun t => e.interpretAccount p (.table t)

def remoteAccount (p : Plan) (send : String → Result (List Row)) : Account (List Row) :=
  (e.compileAccount p).bind fun sql => sendAccount p sql (send sql)

def account : EngineCall → Account EngineAnswer
  | .compile p => (e.compileAccount p).map .statement
  | .interpret p source => (e.interpretAccount p source).map .table
  | .run p read => (e.runAccount p read).map .table
  | .executeRemote p send => (e.remoteAccount p send).map .rows

/-! ### Calls -/

theorem gives_report (event : String) (x : PlanError) :
    Gives (report event x) ⟨.ok (), [(.errors x.cause.errorClass, 1)], []⟩ :=
  (Gives.count _ _).bind fun _ _ => .log ..

theorem gives_failAt {α : Type} (stage : Stage) (attempt : Metric) (event : String) (f : Failure) :
    Gives (failAt stage attempt event f : Observed α)
      ⟨.error f, failureCounts stage attempt f, []⟩ := by
  rcases f with x | _ | _ | _ | _ | _ | _ | _ | _
  case plan =>
    have hcounts : failureCounts stage attempt (.plan x) =
        if x.cause.errorClass.stage = stage then
          [(attempt, 1), (.errors x.cause.errorClass, 1)]
        else [] := rfl
    rw [failAt, hcounts]
    by_cases hstage : x.cause.errorClass.stage = stage
    · simp only [if_pos hstage]
      exact (Gives.count attempt 1).after <| (gives_report event x).after <| .throw _
    · simp only [if_neg hstage]
      exact .throw _
  all_goals exact .throw _

theorem gives_compile (p : Plan) : Gives (e.compile p) (e.compileAccount p) := by
  refine .inContext (.inSpan ?_ _ _) _
  rw [compileAccount]
  cases p.compile e.config.style with
  | error f => exact gives_failAt ..
  | ok sql =>
      refine (Gives.setAttribute ..).after <| (Gives.count ..).after <| (Gives.count ..).after ?_
      exact (Gives.log ..).after <| .pure sql

theorem gives_interpret (p : Plan) (source : Source) :
    Gives (e.interpret p source) (e.interpretAccount p source) := by
  refine .inContext (.inSpan ?_ _ _) _
  rw [interpretAccount]
  cases p.run source e.config.rowOrder with
  | error f => exact gives_failAt ..
  | ok t =>
      refine (Gives.setAttribute ..).after <| (Gives.count ..).after <| (Gives.count ..).after ?_
      exact (Gives.count ..).after <| (Gives.log ..).after <| .pure t

theorem gives_runFrom (p : Plan) (read : TableRef → Result Table) :
    Gives (e.runFrom p read) (e.runAccount p read) :=
  (Gives.ofResult _).bind fun t _ => e.gives_interpret p (.table t)

theorem gives_executeRemote (p : Plan) (send : String → Result (List Row)) :
    Gives (e.executeRemote p send) (e.remoteAccount p send) := by
  refine (e.gives_compile p).bind fun sql _ => .inContext (.inSpan ?_ _ _) _
  cases send sql with
  | error f =>
      refine (Gives.handOut sql).after <| (Gives.count ..).after ?_
      exact (Gives.log ..).after <| .throw f
  | ok rows =>
      refine (Gives.handOut sql).after <| (Gives.count ..).after <| (Gives.setAttribute ..).after ?_
      exact (Gives.count ..).after <| (Gives.log ..).after <| .pure _

theorem gives_perform (c : EngineCall) : Gives (e.perform c) (e.account c) := by
  cases c with
  | compile p => exact (e.gives_compile p).map _
  | interpret p source => exact (e.gives_interpret p source).map _
  | run p read => exact (e.gives_runFrom p read).map _
  | executeRemote p send => exact (e.gives_executeRemote p send).map _

theorem outcome_eq (c : EngineCall) : e.outcome c = (e.account c).result :=
  (e.gives_perform c).result _

theorem outcome_interpret (p : Plan) (source : Source) :
    e.outcome (.interpret p source) = (p.run source e.config.rowOrder).map .table := by
  rw [outcome_eq, account, Account.map, interpretAccount]
  cases p.run source e.config.rowOrder <;> rfl

theorem outcome_run (p : Plan) (read : TableRef → Result Table) : e.outcome (.run p read) =
    (read p.table).bind fun t => e.outcome (.interpret p (.table t)) := by
  rw [outcome_eq, account, Account.map, runAccount, Account.bind]
  cases read p.table with
  | error f => rfl
  | ok t => rw [Except.bind, outcome_eq]; rfl

/-- An engine where nothing is configured. -/
def plain : Engine where
  config :=
    { style := ⟨.reference, true, false⟩, rowOrder := .partition, database := Backend.inMemory,
      threads := 1, logLevel := .info, logFormat := .json, endpoint := none,
      service := "plan_engine", metricsPort := 8001 }

example : Config.load ⟨[]⟩ .empty = .ok plain.config := rfl

/-! ### Histories -/

theorem after_cons (c : EngineCall) (rest : List EngineCall) (o : Observations) :
    e.after (c :: rest) o = e.after rest (e.after [c] o) := rfl

theorem after_append (calls calls' : List EngineCall) (o : Observations) :
    e.after (calls ++ calls') o = e.after calls' (e.after calls o) := by
  induction calls generalizing o with
  | nil => rfl
  | cons c rest ih => rw [List.cons_append, after_cons, ih, after_cons e c rest]

theorem outcomes_performAll (calls : List EngineCall) (o : Observations) :
    ((e.performAll calls).run o).1 = calls.map e.outcome := by
  induction calls generalizing o with
  | nil => rfl
  | cons c rest ih =>
      have hcall : ((e.perform c).run.run o).1 = e.outcome c := by
        rw [(e.gives_perform c).result, outcome_eq]
      rw [List.map_cons, ← ih (e.after [c] o), ← hcall]
      rfl

theorem metrics_after (c : EngineCall) (o : Observations) :
    (e.after [c] o).metrics = o.metrics.addAll (e.account c).counts :=
  (e.gives_perform c).metrics o

theorem sent_after (c : EngineCall) (o : Observations) :
    (e.after [c] o).sent = o.sent ++ (e.account c).sent := (e.gives_perform c).sent o

end Engine

end Tabula
