import Tabula.Proofs.Engine.Calls
import Tabula.Proofs.Plan.FirstFailure

/-!
What the counts say about a history of calls. An engine counts the errors that it finds itself, and
every call leaves the counts in agreement with what was called, what was answered and what was
handed out.
-/

namespace Tabula

theorem Metrics.count_start {version : Option String} {m : Metric}
    (h : m ≠ .engineInfo version) : (start version).count m = 0 := by
  rw [start, count]
  by_cases hcompile : m = .compileLatency
  · rw [hcompile]
    rfl
  by_cases hinterpret : m = .interpretLatency
  · rw [hinterpret]
    rfl
  simp [List.lookup_cons, beq_false_of_ne, h, hcompile, hinterpret]

namespace EngineCall

def compiles : EngineCall → Bool
  | .compile _ | .executeRemote .. => true
  | _ => false

/-- Whether the call comes to interpreting: a run does if there is a table to read. -/
def interprets : EngineCall → Bool
  | .interpret .. => true
  | .run p read => (read p.table).isOk
  | _ => false

end EngineCall

/-- The rows of tables, which are those that were produced in memory. -/
def rowsOfTable : Result EngineAnswer → Nat
  | .ok (.table t) => t.rows.length
  | _ => 0

/-- The rows that came from a database. -/
def rowsFromDatabase : Result EngineAnswer → Nat
  | .ok (.rows rows) => rows.length
  | _ => 0

/-- The class of the error of the plan that something fails with. -/
def errorClassOf {α : Type} : Result α → Option ErrorClass
  | .error f => f.errorClass?
  | .ok _ => none

theorem errorClassOf_map {α β : Type} (f : α → β) (r : Result α) :
    errorClassOf (r.map f) = errorClassOf r := by
  cases r <;> rfl

/-- The account counts one error of a plan, of the class `found?`, which is one of the stage, or none
if there is no such class. -/
structure Account.CountsError {α : Type} (a : Account α) (stage : Stage)
    (found? : Option ErrorClass) : Prop where
  stage : ∀ k, found? = some k → k.stage = stage
  amount : ∀ k, Metrics.amount (.errors k) a.counts = if found? = some k then 1 else 0

namespace Account.CountsError

variable {α β : Type} {a : Account α} {stage : Stage} {found? : Option ErrorClass}

theorem noError (r : Result α) (sent : List String) :
    CountsError ⟨r, [], sent⟩ stage none where
  stage _ h := by cases h
  amount _ := rfl

theorem map (h : a.CountsError stage found?) (f : α → β) : (a.map f).CountsError stage found? :=
  ⟨h.stage, h.amount⟩

/-- What follows without an error adds none. -/
theorem bind (h : a.CountsError stage found?) {f : α → Account β}
    (hf : ∀ x k, Metrics.amount (.errors k) (f x).counts = 0) :
    (a.bind f).CountsError stage found? := by
  obtain ⟨result, counts, sent⟩ := a
  refine ⟨h.stage, fun k => ?_⟩
  cases result with
  | error failure => exact h.amount k
  | ok x => rw [Account.bind, Metrics.amount_append, hf, Nat.add_zero, ← h.amount k]

end Account.CountsError

namespace Engine

variable (e : Engine)

/-! ### Accounts of the parts -/

theorem compileAccount_cases (p : Plan) :
    (∃ sql, e.compileAccount p =
      ⟨.ok sql, [(.compileLatency, 1), (.compilations e.config.style.dialect true, 1)], []⟩) ∨
    ∃ f k, f.errorClass? = some k ∧ k.stage = .compile ∧ e.compileAccount p =
      ⟨.error f, [(.compilations e.config.style.dialect false, 1), (.errors k, 1)], []⟩ := by
  have hends := p.ends_compile e.config.style
  rw [compileAccount]
  cases hp : p.compile e.config.style with
  | ok sql => exact .inl ⟨sql, rfl⟩
  | error f =>
      obtain ⟨k, hk, hstage⟩ := hends.of_eq_error hp
      refine .inr ⟨f, k, hk, hstage, ?_⟩
      simp only [failureCounts, hk, if_pos hstage]

theorem interpretAccount_cases (p : Plan) (source : Source) :
    (∃ t, e.interpretAccount p source = ⟨.ok t, [(.interpretLatency, 1),
      (.interpretations true, 1), (.rowsProduced false, t.rows.length)], []⟩) ∨
    (∃ f k, f.errorClass? = some k ∧ k.stage = .eval ∧ e.interpretAccount p source =
      ⟨.error f, [(.interpretations false, 1), (.errors k, 1)], []⟩) ∨
    ∃ f, f.errorClass? = none ∧ e.interpretAccount p source = ⟨.error f, [], []⟩ := by
  have hends := p.evaluates_run source e.config.rowOrder
  rw [interpretAccount]
  cases hp : p.run source e.config.rowOrder with
  | ok t => exact .inl ⟨t, rfl⟩
  | error f =>
      cases hk : f.errorClass? with
      | none => exact .inr (.inr ⟨f, hk, by simp only [failureCounts, hk]⟩)
      | some k =>
          have hstage := hends.of_eq_error hp k hk
          exact .inr (.inl ⟨f, k, hk, hstage, by simp only [failureCounts, hk, if_pos hstage]⟩)

theorem result_compileAccount (p : Plan) :
    (e.compileAccount p).result = p.compile e.config.style := by
  rw [compileAccount]
  cases p.compile e.config.style <;> rfl

/-! ### Errors -/

/-- Whether a call ends in what it meets outside: its reader gives no table, or its sender fails. -/
def endsOutside : EngineCall → Bool
  | .run p read => !(read p.table).isOk
  | .executeRemote p send =>
      match p.compile e.config.style with
      | .ok sql => !(send sql).isOk
      | .error _ => false
  | _ => false

/-- The class of the error of the plan that the engine itself finds in a call. -/
def ownError? (c : EngineCall) : Option ErrorClass :=
  if e.endsOutside c then none else errorClassOf (e.outcome c)

theorem ownError_compile (p : Plan) :
    e.ownError? (.compile p) = errorClassOf (e.compileAccount p).result := by
  rw [ownError?, outcome_eq]
  exact errorClassOf_map ..

theorem ownError_interpret (p : Plan) (source : Source) :
    e.ownError? (.interpret p source) = errorClassOf (e.interpretAccount p source).result := by
  rw [ownError?, outcome_eq]
  exact errorClassOf_map ..

theorem ownError_run (p : Plan) (read : TableRef → Result Table) :
    e.ownError? (.run p read) = (read p.table).toOption.bind fun t =>
      errorClassOf (e.interpretAccount p (.table t)).result := by
  rw [ownError?, outcome_eq, account, Account.map, errorClassOf_map, endsOutside, runAccount]
  cases read p.table <;> rfl

/-- A remote execution finds what compiling finds: a sender fails outside. -/
theorem ownError_executeRemote (p : Plan) (send : String → Result (List Row)) :
    e.ownError? (.executeRemote p send) = errorClassOf (e.compileAccount p).result := by
  rw [ownError?, outcome_eq, account, Account.map, errorClassOf_map, endsOutside, remoteAccount,
    Account.bind, result_compileAccount]
  cases p.compile e.config.style with
  | error f => rfl
  | ok sql =>
      have hsend (r : Result (List Row)) :
          (if !r.isOk then none else errorClassOf (sendAccount p sql r).result) = none := by
        cases r <;> rfl
      exact hsend (send sql)

theorem countsError_compile (p : Plan) :
    (e.compileAccount p).CountsError .compile (errorClassOf (e.compileAccount p).result) := by
  obtain ⟨sql, h⟩ | ⟨f, k, hk, hstage, h⟩ := e.compileAccount_cases p
  · constructor <;> simp [h, Metrics.amount, errorClassOf]
  · constructor <;> simp [h, Metrics.amount, errorClassOf, hk, hstage, eq_comm]

theorem countsError_interpret (p : Plan) (source : Source) :
    (e.interpretAccount p source).CountsError .eval
      (errorClassOf (e.interpretAccount p source).result) := by
  obtain ⟨t, h⟩ | ⟨f, k, hk, hstage, h⟩ | ⟨f, hk, h⟩ := e.interpretAccount_cases p source
  · constructor <;> simp [h, Metrics.amount, errorClassOf]
  · constructor <;> simp [h, Metrics.amount, errorClassOf, hk, hstage, eq_comm]
  · constructor <;> simp [h, Metrics.amount, errorClassOf, hk]

theorem amount_errors_send (p : Plan) (sql : String) (outcome : Result (List Row))
    (k : ErrorClass) : Metrics.amount (.errors k) (sendAccount p sql outcome).counts = 0 := by
  cases outcome <;> simp [sendAccount, Metrics.amount]

/-- Every call counts what the engine itself finds in it. -/
theorem countsError_account (c : EngineCall) :
    ∃ stage, (stage = .compile ∨ stage = .eval) ∧
      (e.account c).CountsError stage (e.ownError? c) := by
  cases c with
  | compile p =>
      rw [ownError_compile]
      exact ⟨.compile, .inl rfl, (e.countsError_compile p).map _⟩
  | interpret p source =>
      rw [ownError_interpret]
      exact ⟨.eval, .inr rfl, (e.countsError_interpret p source).map _⟩
  | run p read =>
      rw [ownError_run, account, runAccount]
      refine ⟨.eval, .inr rfl, ?_⟩
      cases read p.table with
      | error f => exact .noError _ _
      | ok t => exact (e.countsError_interpret p (.table t)).map _
  | executeRemote p send =>
      rw [ownError_executeRemote]
      refine ⟨.compile, .inl rfl, .map (.bind (e.countsError_compile p) fun sql k => ?_) _⟩
      exact amount_errors_send p sql (send sql) k

/-- After any history, a call counts exactly the error of the plan that the engine itself finds in
it, once and under its class, and nothing where it finds none. Such an error is one of compiling or
of evaluating. -/
theorem errors_after (before : List EngineCall) (c : EngineCall) (o : Observations) :
    ((e.performAll (before ++ [c])).run o).1 = before.map e.outcome ++ [e.outcome c] ∧
    (∀ k, (e.after (before ++ [c]) o).metrics.count (.errors k) =
      (e.after before o).metrics.count (.errors k) + if e.ownError? c = some k then 1 else 0) ∧
    ∀ k, e.ownError? c = some k → k.stage = .compile ∨ k.stage = .eval := by
  obtain ⟨stage, hstage, hcounts⟩ := e.countsError_account c
  refine ⟨?_, fun k => ?_, fun k hk => hcounts.stage k hk ▸ hstage⟩
  · rw [outcomes_performAll, List.map_append, List.map_singleton]
  · rw [after_append, metrics_after, Metrics.count_addAll, hcounts.amount]

/-- An error of the plan that a provider finds is not counted. -/
theorem errors_unread :
    let tables : Provider := ⟨[("scores", ⟨["team"], []⟩)]⟩
    let c : EngineCall := .run placings tables.read
    errorClassOf (plain.outcome c) = some .missingColumn ∧
      ∀ k, (plain.after [c] (.start none)).metrics.count (.errors k) = 0 := by
  refine ⟨rfl, fun k => ?_⟩
  cases k <;> rfl

/-! ### Counts and calls -/

/-- The statement that a call hands out: what compiling its plan returns. -/
def handsOut? : EngineCall → Option String
  | .executeRemote p _ =>
      match e.outcome (.compile p) with
      | .ok (.statement text) => some text
      | _ => none
  | _ => none

/-- Counts and handed out statements that agree with calls and what they returned. -/
structure Reconciles (calls : List EngineCall) (answers : List (Result EngineAnswer))
    (count : Metric → Nat) (sent : List String) : Prop where
  /-- No call depends on those before it. -/
  returned : answers = calls.map e.outcome
  compilations : count (.compilations e.config.style.dialect true) +
    count (.compilations e.config.style.dialect false) = calls.countP EngineCall.compiles
  otherDialects : ∀ d ok, d ≠ e.config.style.dialect → count (.compilations d ok) = 0
  /-- Statements are handed out for the remote executions whose plans compile, in their order. -/
  handedOut : sent = calls.filterMap e.handsOut?
  remoteCalls : sent.length = calls.countP fun c => (e.handsOut? c).isSome
  statements : count (.statementsSent true) + count (.statementsSent false) = sent.length
  interpretations : count (.interpretations true) + count (.interpretations false) =
    calls.countP EngineCall.interprets
  memoryRows : count (.rowsProduced false) = (answers.map rowsOfTable).sum
  databaseRows : count (.rowsProduced true) = (answers.map rowsFromDatabase).sum
  compileLatency : count .compileLatency = count (.compilations e.config.style.dialect true)
  interpretLatency : count .interpretLatency = count (.interpretations true)

namespace Reconciles

variable {e} {calls calls' : List EngineCall} {answers answers' : List (Result EngineAnswer)}
  {count count' : Metric → Nat} {sent sent' : List String}

theorem start (version : Option String) :
    e.Reconciles [] [] (Observations.start version).metrics.count
      (Observations.start version).sent := by
  constructor <;> simp [Observations.start, Metrics.count_start]

theorem append (h : e.Reconciles calls answers count sent)
    (h' : e.Reconciles calls' answers' count' sent') :
    e.Reconciles (calls ++ calls') (answers ++ answers') (fun m => count m + count' m)
      (sent ++ sent') where
  returned := by rw [h.returned, h'.returned, List.map_append]
  compilations := by
    rw [List.countP_append, ← h.compilations, ← h'.compilations]
    omega
  otherDialects d ok hd := by rw [h.otherDialects d ok hd, h'.otherDialects d ok hd]
  handedOut := by rw [h.handedOut, h'.handedOut, List.filterMap_append]
  remoteCalls := by rw [List.length_append, List.countP_append, h.remoteCalls, h'.remoteCalls]
  statements := by
    rw [List.length_append, ← h.statements, ← h'.statements]
    omega
  interpretations := by
    rw [List.countP_append, ← h.interpretations, ← h'.interpretations]
    omega
  memoryRows := by rw [List.map_append, List.sum_append, h.memoryRows, h'.memoryRows]
  databaseRows := by rw [List.map_append, List.sum_append, h.databaseRows, h'.databaseRows]
  compileLatency := by rw [h.compileLatency, h'.compileLatency]
  interpretLatency := by rw [h.interpretLatency, h'.interpretLatency]

section Calls

attribute [local simp] outcome_eq Account.map Account.bind Except.map Metrics.amount rowsOfTable
  rowsFromDatabase

/-- A call of which nothing is observed but that a plan is interpreted, and which fails, if it
does, with an error of the plan. -/
theorem interpreted {c : EngineCall} {p : Plan} {source : Source} (hcompiles : c.compiles = false)
    (hinterprets : c.interprets = true) (hnone : e.handsOut? c = none)
    (haccount : e.account c = (e.interpretAccount p source).map .table)
    (hfails : ∀ f, e.outcome c = .error f → ∃ k, f.errorClass? = some k) :
    e.Reconciles [c] [e.outcome c] (Metrics.amount · (e.account c).counts) (e.account c).sent := by
  obtain ⟨t, hp⟩ | ⟨f, k, -, -, hp⟩ | ⟨f, hk, hp⟩ := e.interpretAccount_cases p source
  · constructor <;> simp [hcompiles, hinterprets, hnone, haccount, hp]
  · constructor <;> simp [hcompiles, hinterprets, hnone, haccount, hp]
  -- any other failure is counted nowhere, so the attempts would not add up
  · simp [haccount, hp, hk] at hfails

attribute [local simp] account EngineCall.compiles EngineCall.interprets handsOut?

theorem compile (p : Plan) :
    e.Reconciles [.compile p] [e.outcome (.compile p)]
      (Metrics.amount · (e.account (.compile p)).counts) (e.account (.compile p)).sent := by
  obtain ⟨sql, hp⟩ | ⟨f, k, -, -, hp⟩ := e.compileAccount_cases p
  · constructor <;> simp [hp]
  · constructor <;> simp [hp]

theorem unread {p : Plan} {read : TableRef → Result Table} {f : Failure}
    (h : read p.table = .error f) :
    e.Reconciles [.run p read] [e.outcome (.run p read)]
      (Metrics.amount · (e.account (.run p read)).counts) (e.account (.run p read)).sent := by
  constructor <;> simp [runAccount, Account.ofResult, h, Except.isOk, Except.toBool]

theorem executeRemote (p : Plan) (send : String → Result (List Row)) :
    e.Reconciles [.executeRemote p send] [e.outcome (.executeRemote p send)]
      (Metrics.amount · (e.account (.executeRemote p send)).counts)
      (e.account (.executeRemote p send)).sent := by
  obtain ⟨sql, hp⟩ | ⟨f, k, -, -, hp⟩ := e.compileAccount_cases p
  · cases hsend : send sql with
    | error f => constructor <;> simp [hp, hsend, remoteAccount, sendAccount]
    | ok rows => constructor <;> simp [hp, hsend, remoteAccount, sendAccount]
  · constructor <;> simp [hp, remoteAccount]

end Calls

/-- Every call leaves the counts in agreement. -/
theorem call (c : EngineCall)
    (h : c.interprets = true → ∀ f, e.outcome c = .error f → ∃ k, f.errorClass? = some k) :
    e.Reconciles [c] [e.outcome c] (Metrics.amount · (e.account c).counts) (e.account c).sent := by
  cases c with
  | compile p => exact compile p
  | interpret p source => exact interpreted rfl rfl rfl rfl (h rfl)
  | executeRemote p send => exact executeRemote p send
  | run p read =>
      cases hread : read p.table with
      | error f => exact unread hread
      | ok t =>
          have hinterprets : (EngineCall.run p read).interprets = true := by
            rw [EngineCall.interprets, hread]
            rfl
          have haccount : e.account (.run p read) =
              (e.interpretAccount p (.table t)).map .table := by
            rw [account, runAccount, hread]
            rfl
          exact interpreted rfl hinterprets rfl haccount (h hinterprets)

/-- Calls after a history that is in agreement keep it so. -/
theorem after {o : Observations} (h : e.Reconciles calls answers o.metrics.count o.sent)
    (hfails : ∀ c ∈ calls', c.interprets = true → ∀ f, e.outcome c = .error f →
      ∃ k, f.errorClass? = some k) :
    e.Reconciles (calls ++ calls') (answers ++ calls'.map e.outcome)
      (e.after calls' o).metrics.count (e.after calls' o).sent := by
  -- the agreement reached so far is carried along; each call adds its own account to it
  induction calls' generalizing calls answers o with
  | nil =>
      rw [List.append_nil, List.map_nil, List.append_nil]
      exact h
  | cons c rest ih =>
      rw [List.forall_mem_cons] at hfails
      have hstep : e.Reconciles (calls ++ [c]) (answers ++ [e.outcome c])
          (e.after [c] o).metrics.count (e.after [c] o).sent := by
        rw [metrics_after, sent_after, funext (Metrics.count_addAll _ _)]
        exact h.append (call c hfails.1)
      have hrest := ih hstep hfails.2
      rwa [List.append_assoc, List.append_assoc] at hrest

end Reconciles

/-- A plan that keeps its result returns no row. -/
theorem rows_of_isTerminated {p : Plan} {send : String → Result (List Row)} {rows : List Row}
    (hp : p.isTerminated = true) (h : e.outcome (.executeRemote p send) = .ok (.rows rows)) :
    rows = [] := by
  rw [outcome_eq, account, Account.map, remoteAccount, Account.bind] at h
  cases hsql : (e.compileAccount p).result with
  | error f =>
      rw [hsql] at h
      cases h
  | ok sql =>
      rw [hsql] at h
      cases hsend : send sql with
      | error f =>
          simp [hsend, sendAccount, Except.map] at h
      | ok found => simpa [hsend, sendAccount, hp, Except.map, eq_comm] using h

/-- After every history of calls in which interpreting fails with errors of the plan only, the
counts agree with the calls, with what they returned and with the statements handed out. -/
theorem reconciles (calls : List EngineCall) (version : Option String)
    (h : ∀ c ∈ calls, c.interprets = true → ∀ f, e.outcome c = .error f →
      ∃ k, f.errorClass? = some k ∧ k.stage = .eval) :
    e.Reconciles calls ((e.performAll calls).run (.start version)).1
      (e.after calls (.start version)).metrics.count (e.after calls (.start version)).sent ∧
    ∀ p send rows, p.isTerminated = true →
      e.outcome (.executeRemote p send) = .ok (.rows rows) → rows = [] := by
  have hfails : ∀ c ∈ calls, c.interprets = true → ∀ f, e.outcome c = .error f →
      ∃ k, f.errorClass? = some k := fun c hc hinterprets f hf =>
    (h c hc hinterprets f hf).imp fun _ hk => hk.1
  refine ⟨?_, fun p send rows => e.rows_of_isTerminated⟩
  rw [outcomes_performAll]
  exact (Reconciles.start version).after hfails

/-- Calls of all kinds, some of which fail: a table lacks a column, another cannot be read, the
reference dialect cannot number rows without gaps, a statement is refused. -/
def mixedCalls : List EngineCall :=
  let scores := Plan.ofTable placings.table
  [.interpret placings (.table scoreTable), .interpret placings (.table ⟨["team"], []⟩),
    .run placings fun _ => .error (.lookup (.table "scores")), .compile placings, .compile scores,
    .executeRemote placings fun _ => .ok [], .executeRemote scores fun _ => .ok RankedWindow.scores,
    .executeRemote scores fun _ => .error (.connection "closed")]

theorem reconciles_mixedCalls :
    let o := plain.after mixedCalls (.start none)
    (∀ c ∈ mixedCalls, c.interprets = true → ∀ f, plain.outcome c = .error f →
      ∃ k, f.errorClass? = some k ∧ k.stage = .eval) ∧
    plain.Reconciles mixedCalls ((plain.performAll mixedCalls).run (.start none)).1
      o.metrics.count o.sent ∧
    o.metrics.count (.compilations .reference true) +
      o.metrics.count (.compilations .reference false) = 5 ∧
    o.sent = List.replicate 2 "SELECT \"team\", \"points\" FROM \"scores\"" := by
  have hfails : ∀ c ∈ mixedCalls, c.interprets = true → ∀ f, plain.outcome c = .error f →
      ∃ k, f.errorClass? = some k ∧ k.stage = .eval := by
    simp only [mixedCalls, List.forall_mem_cons]
    refine ⟨fun _ f hf => ?_, fun _ f hf => ?_, nofun, nofun, nofun, nofun, nofun, nofun, nofun⟩
    · obtain ⟨rows, hrows⟩ : ∃ rows, placings.rows scoreTable .partition = .ok rows :=
        exists_of_isOk (by decide +kernel)
      have hrun : placings.run (.table scoreTable) .partition = .ok ⟨placings.columns, rows⟩ :=
        Plan.run_of_rows hrows
      rw [outcome_interpret] at hf
      cases (congrArg (Except.map _) hrun).symm.trans hf
    · rw [outcome_interpret, Plan.run_of_missing ⟨"points", by decide, by decide⟩] at hf
      cases hf
      exact ⟨.missingColumn, rfl, rfl⟩
  obtain ⟨h, _⟩ := plain.reconciles mixedCalls none hfails
  exact ⟨hfails, h, h.compilations, h.handedOut⟩

end Engine

end Tabula
