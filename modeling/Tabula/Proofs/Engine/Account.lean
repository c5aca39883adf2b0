import Mathlib.Algebra.Ring.Nat
import Tabula.Engine.History
import Tabula.Proofs.Result

/-!
Accounts of observed work. Of all that can be observed, an account keeps how the work ends, what it
counts and the statements that it hands out. None of this depends on what was observed before, so
the account of a whole is put together from the accounts of its parts; contexts, spans and the log
have no part in it.
-/

namespace Tabula

/-! ### Counting -/

namespace Metrics

/-- Adds all that was counted, one thing after the other. -/
def addAll (ms : Metrics) (counts : List (Metric × Nat)) : Metrics :=
  counts.foldl (fun ms c => ms.add c.1 c.2) ms

/-- How much is counted under a metric. -/
def amount (m : Metric) (counts : List (Metric × Nat)) : Nat :=
  (counts.map fun c => if m = c.1 then c.2 else 0).sum

theorem addAll_append (ms : Metrics) (counts counts' : List (Metric × Nat)) :
    ms.addAll (counts ++ counts') = (ms.addAll counts).addAll counts' := List.foldl_append

theorem amount_append (m : Metric) (counts counts' : List (Metric × Nat)) :
    amount m (counts ++ counts') = amount m counts + amount m counts' := by
  simp [amount]

theorem count_addAll (ms : Metrics) (counts : List (Metric × Nat)) (m : Metric) :
    (ms.addAll counts).count m = ms.count m + amount m counts := by
  induction counts generalizing ms with
  | nil => simp [addAll, amount]
  | cons c rest ih =>
      have hstep : (ms.addAll (c :: rest)).count m = ((ms.add c.1 c.2).addAll rest).count m := rfl
      rw [hstep, ih, count_add, amount, amount, List.map_cons, List.sum_cons, Nat.add_assoc]

end Metrics

/-! ### Accounts -/

/-- How work ends, what it counts, and what it hands out. -/
structure Account (α : Type) where
  result : Result α
  counts : List (Metric × Nat)
  sent : List String

namespace Account

variable {α β : Type}

def ofResult (r : Result α) : Account α := ⟨r, [], []⟩

def pure (a : α) : Account α := ofResult (.ok a)

def throw (f : Failure) : Account α := ofResult (.error f)

/-- What is done with a result follows it; a failure ends the work. -/
def bind (x : Account α) (f : α → Account β) : Account β :=
  match x.result with
  | .ok a => ⟨(f a).result, x.counts ++ (f a).counts, x.sent ++ (f a).sent⟩
  | .error e => ⟨.error e, x.counts, x.sent⟩

def map (f : α → β) (x : Account α) : Account β := ⟨x.result.map f, x.counts, x.sent⟩

theorem map_eq_bind (f : α → β) (x : Account α) : x.map f = x.bind fun a => pure (f a) := by
  obtain ⟨result, counts, sent⟩ := x
  cases result with
  | error e => rfl
  | ok a => simp only [map, bind, pure, ofResult, Except.map, List.append_nil]

end Account

namespace Observed

variable {α β : Type}

/-- The account is that of the work, whatever was observed before it. -/
structure Gives (work : Observed α) (a : Account α) : Prop where
  result : ∀ o, (work.run.run o).1 = a.result
  metrics : ∀ o, (work.run.run o).2.metrics = o.metrics.addAll a.counts
  sent : ∀ o, (work.run.run o).2.sent = o.sent ++ a.sent

namespace Gives

theorem ofResult (r : Result α) : Gives (Observed.ofResult r) (.ofResult r) :=
  ⟨fun _ => rfl, fun _ => rfl, fun _ => (List.append_nil _).symm⟩

theorem pure (a : α) : Gives (Pure.pure a) (.pure a) := ofResult (.ok a)

theorem throw (f : Failure) : Gives (throw f : Observed α) (.throw f) := ofResult (.error f)

/-- Observing what is no part of an account. -/
theorem observe {f : Observations → Observations} (hmetrics : ∀ o, (f o).metrics = o.metrics)
    (hsent : ∀ o, (f o).sent = o.sent) : Gives (Observed.observe f) (.pure ()) :=
  ⟨fun _ => rfl, hmetrics, fun o => (hsent o).trans (List.append_nil _).symm⟩

theorem log (level : LogLevel) (name : String) (fields : Fields) :
    Gives (Observed.log level name fields) (.pure ()) := observe (fun _ => rfl) fun _ => rfl

theorem setAttribute (name : String) (d : Datum) :
    Gives (Observed.setAttribute name d) (.pure ()) := by
  refine observe (fun o => ?_) fun o => ?_ <;> cases o.running <;> rfl

theorem count (m : Metric) (n : Nat) : Gives (Observed.count m n) ⟨.ok (), [(m, n)], []⟩ :=
  ⟨fun _ => rfl, fun _ => rfl, fun _ => (List.append_nil _).symm⟩

theorem handOut (statement : String) :
    Gives (Observed.handOut statement) ⟨.ok (), [], [statement]⟩ :=
  ⟨fun _ => rfl, fun _ => rfl, fun _ => rfl⟩

variable {work : Observed α} {a : Account α}

theorem bind (h : Gives work a) {f : α → Observed β} {g : α → Account β}
    (hf : ∀ x, a.result = .ok x → Gives (f x) (g x)) : Gives (work >>= f) (a.bind g) := by
  obtain ⟨result, counts, sent⟩ := a
  have hrun (o : Observations) : (work >>= f).run.run o =
      (ExceptT.bindCont f (work.run.run o).1 : StateM Observations _).run (work.run.run o).2 := rfl
  -- whether the first part fails does not depend on what was observed before it
  simp only [h.result] at hrun
  cases result with
  | error e =>
      refine ⟨fun o => ?_, fun o => ?_, fun o => ?_⟩ <;> rw [hrun]
      · rfl
      · exact h.metrics o
      · exact h.sent o
  | ok x =>
      have hx := hf x rfl
      refine ⟨fun o => ?_, fun o => ?_, fun o => ?_⟩ <;> rw [hrun]
      · exact hx.result _
      · exact (hx.metrics _).trans (by rw [h.metrics, Account.bind, Metrics.addAll_append])
      · exact (hx.sent _).trans (by rw [h.sent, Account.bind, List.append_assoc])

/-- What observes something first. -/
theorem after {first : Observed Unit} {counts counts' : List (Metric × Nat)}
    {sent sent' : List String} {r : Result α} (hfirst : Gives first ⟨.ok (), counts, sent⟩)
    (h : Gives work ⟨r, counts', sent'⟩) :
    Gives (do first; work) ⟨r, counts ++ counts', sent ++ sent'⟩ := hfirst.bind fun _ _ => h

theorem map (h : Gives work a) (f : α → β) : Gives (f <$> work) (a.map f) := by
  rw [← bind_pure_comp, Account.map_eq_bind]
  exact h.bind fun x _ => pure (f x)

theorem inContext (h : Gives work a) (fields : Fields) : Gives (Observed.inContext fields work) a :=
  ⟨fun _ => h.result _, fun _ => h.metrics _, fun _ => h.sent _⟩

theorem inSpan (h : Gives work a) (name : String) (attributes : Fields) :
    Gives (Observed.inSpan name attributes work) a := by
  have hfinish (failed : Option String) (o : Observations) :
      (finish failed o).metrics = o.metrics ∧ (finish failed o).sent = o.sent := by
    unfold finish
    cases o.running <;> exact ⟨rfl, rfl⟩
  refine ⟨fun _ => h.result _, fun _ => ?_, fun _ => ?_⟩
  · exact (hfinish _ _).1.trans (h.metrics _)
  · exact (hfinish _ _).2.trans (h.sent _)

end Gives

end Observed

end Tabula
