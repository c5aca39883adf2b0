import Tabula.Proofs.Table.Declaring
import Tabula.Provider.History

/-!
Calls of a provider that fail. A provider is changed only by calls that succeed, with one exception:
a table is registered before a reference to it is built, so one that cannot be declared stays
registered though the call fails. Without such tables, a history leaves what its succeeding calls
alone would leave, and they are answered as they are in it.
-/

namespace Tabula

namespace ProviderCall

/-- The call registers a table that cannot be declared under the name. -/
def Undeclared : ProviderCall → Prop
  | register name source _ => ∃ t, Provider.tableOf source = .ok t ∧ ¬ t.Declarable name
  | unregister _ | read _ => False

/-- What the call registers, if it does, was made. -/
def Made : ProviderCall → Prop
  | register _ source _ => source.Made
  | unregister _ | read _ => True

end ProviderCall

namespace Provider

variable {p : Provider}

theorem perform_register {source : Source} {t : Table} (htable : tableOf source = .ok t)
    (name : String) (temporary : Bool) :
    p.perform (.register name source temporary) =
      ((t.describe name temporary).map .declared, p.insert name t) := by
  rw [perform, register, htable]

theorem perform_of_fails {c : ProviderCall} (hc : c.Made) (hdeclared : ¬ c.Undeclared) {e : Failure}
    (h : (p.perform c).1 = .error e) : (p.perform c).2 = p := by
  cases c with
  | register name source temporary =>
      cases htable : tableOf source with
      | error e' => rw [perform, register, htable]
      | ok t =>
          -- what can be declared is declared, so the call does not fail
          have hdeclarable : t.Declarable name := by
            by_contra hnot
            exact hdeclared ⟨t, htable, hnot⟩
          rw [perform_register htable,
            (Source.Made.tableOf hc htable).describe_eq_ok hdeclarable] at h
          cases h
  | unregister name =>
      rw [perform] at h ⊢
      cases hremoved : p.unregister name with
      | error e' => rfl
      | ok p' =>
          rw [hremoved] at h
          cases h
  | read ref => rfl

theorem after_cons (c : ProviderCall) (rest : List ProviderCall) :
    p.after (c :: rest) = (p.perform c).2.after rest := rfl

/-- Calls that fail can be left out of a history. -/
theorem after_succeeding {calls : List ProviderCall}
    (hcalls : ∀ c ∈ calls, c.Made ∧ ¬ c.Undeclared) :
    p.after calls = p.after (p.succeeding calls) ∧
      (p.answers calls).filter (·.isOk) = p.answers (p.succeeding calls) := by
  induction calls generalizing p with
  | nil => exact ⟨rfl, rfl⟩
  | cons c rest ih =>
      rw [List.forall_mem_cons] at hcalls
      obtain ⟨hafter, hanswers⟩ := ih (p := (p.perform c).2) hcalls.2
      cases hcall : (p.perform c).1 with
      | ok answer =>
          have hkept : p.succeeding (c :: rest) = c :: (p.perform c).2.succeeding rest := by
            rw [succeeding, hcall]
            rfl
          have hok : (p.perform c).1.isOk = true := by rw [hcall]; rfl
          rw [hkept, answers, answers, List.filter_cons_of_pos hok, hanswers]
          exact ⟨hafter, rfl⟩
      | error e =>
          have hsame := perform_of_fails hcalls.1.1 hcalls.1.2 hcall
          have hleft : p.succeeding (c :: rest) = (p.perform c).2.succeeding rest := by
            rw [succeeding, hcall]
            rfl
          have hfails : ¬ (p.perform c).1.isOk = true := by
            rw [hcall]
            exact Bool.false_ne_true
          rw [hleft, after_cons, answers, List.filter_cons_of_neg hfails, hafter, hanswers, hsame]
          exact ⟨rfl, rfl⟩

/-- A call that fails leaves the provider as it was, and so all that can be read from it later, and a
history leaves and answers what it would without its failing calls, as long as no table is
registered that cannot be declared. Registering such a table fails, and the table is registered. -/
theorem failing_calls_keep (p : Provider) :
    (∀ (c : ProviderCall) (e : Failure), c.Made → ¬ c.Undeclared → (p.perform c).1 = .error e →
      (p.perform c).2 = p) ∧
    (∀ calls : List ProviderCall, (∀ c ∈ calls, c.Made ∧ ¬ c.Undeclared) →
      p.after calls = p.after (p.succeeding calls) ∧
        (p.answers calls).filter (·.isOk) = p.answers (p.succeeding calls)) ∧
    ∀ (name : String) (source : Source) (temporary : Bool) (t : Table),
      tableOf source = .ok t → ¬ t.Declarable name →
        ∃ e, p.perform (.register name source temporary) = (.error e, p.insert name t) := by
  refine ⟨fun c e hc hdeclared h => perform_of_fails hc hdeclared h,
    fun calls hcalls => after_succeeding hcalls, fun name source temporary t htable hnot => ?_⟩
  obtain ⟨e, he⟩ := Table.describe_eq_error hnot temporary
  exact ⟨e, by rw [perform_register htable, he]; rfl⟩

def clubTable : Table := ⟨["club"], [⟨[("club", .str "Owls")]⟩]⟩

def clubs : Provider := ⟨[("clubs", clubTable)]⟩

/-- Of three calls, the first two name a table that is not there. -/
theorem failing_calls_keep_clubs :
    let calls := [.unregister "teams", .read ⟨"teams", ["club"], false⟩, .unregister "clubs"]
    (clubs.perform (.unregister "teams")).2 = clubs ∧
      clubs.after calls = clubs.after (clubs.succeeding calls) ∧
      ∃ e, clubs.perform (.register "" (.table clubTable) false) =
        (.error e, clubs.insert "" clubTable) := by
  intro calls
  have hfails : (clubs.perform (.unregister "teams")).1 = .error (.lookup (.bare "teams")) := rfl
  have hcalls : ∀ c ∈ calls, c.Made ∧ ¬ c.Undeclared := by
    simp [calls, ProviderCall.Made, ProviderCall.Undeclared]
  refine ⟨(failing_calls_keep clubs).1 _ _ trivial id hfails,
    ((failing_calls_keep clubs).2.1 calls hcalls).1, ?_⟩
  exact (failing_calls_keep clubs).2.2 "" (.table clubTable) false clubTable rfl (by decide)

/-- A table without a name stays registered though the call fails; and so does one without columns,
in the place of the table that could be read before. -/
theorem register_undeclared_kept :
    let ref : TableRef := ⟨"clubs", ["club"], false⟩
    let unnamed := empty.perform (.register "" (.table clubTable) false)
    let bare := clubs.perform (.register "clubs" (.table ⟨[], []⟩) false)
    unnamed.1.isOk = false ∧ empty.contains "" = false ∧ unnamed.2.contains "" = true ∧
      bare.1.isOk = false ∧ (clubs.read ref).isOk = true ∧ (bare.2.read ref).isOk = false :=
  ⟨rfl, rfl, rfl, rfl, rfl, rfl⟩

end Provider

end Tabula
