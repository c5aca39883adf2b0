import Tabula.Proofs.Plan.Validity

/-!
What building ends with. The place of the new node goes down to every check that an operator makes
of its columns and to every part of an expression text, so what stops a builder is traced to the
node that it would have added, unless the arguments could not be meant for any plan.
-/

namespace Tabula

/-! ### Arguments that can never be meant -/

/-- The source is an expression, or the text of one. -/
def ExprSource.Reads (source : ExprSource) : Prop := ∃ e, source.read none = .ok e

/-- Building fails at the node, or the arguments are malformed. -/
def Failure.OfBuilding (position : Option Int) (malformed : Prop) (f : Failure) : Prop :=
  (∃ cause, f = .build cause position) ∨ malformed ∧ f.className ∈ ["ValueError", "TypeError"]

/-- A computation of building, which succeeds only with arguments that are not malformed. -/
def Builds {α : Type} (position : Option Int) (malformed : Prop) (x : Result α) : Prop :=
  Ends (Failure.OfBuilding position malformed) (fun _ => ¬ malformed) x

namespace Builds

variable {α β : Type} {position : Option Int} {m m' : Prop} {x : Result α}

theorem ok {a : α} (h : ¬ m) : Builds position m (.ok a : Result α) := h

theorem build (cause : BuildCause) :
    Builds position m (.error (.build cause position) : Result α) :=
  .inl ⟨cause, rfl⟩

theorem argument (fault : ArgumentFault) (h : m) :
    Builds position m (.error (.argument fault) : Result α) := .inr ⟨h, by simp [Failure.className]⟩

theorem operand (fault : OperandFault) (h : m) :
    Builds position m (.error (.operand fault) : Result α) := .inr ⟨h, by simp [Failure.className]⟩

/-- Steps one after the other are malformed if one of them is. -/
theorem bind (m' : Prop) {f : α → Result β} (hx : Builds position m x) (hf : ∀ a, Builds position m' (f a)) :
    Builds position (m ∨ m') (x >>= f) := by
  refine Ends.bind (hx.weaken fun e he => ?_) fun a ha => ((hf a).weaken fun e he => ?_).mono ?_
  · exact he.imp_right fun h => ⟨.inl h.1, h.2⟩
  · exact he.imp_right fun h => ⟨.inr h.1, h.2⟩
  · rintro b hb (h | h)
    · exact ha h
    · exact hb h

/-- What is malformed said in another way. -/
theorem congr (hx : Builds position m x) (h : m ↔ m') : Builds position m' x := by
  rw [← propext h]
  exact hx

end Builds

/-- A computation that fails if and only if its arguments are malformed. -/
def Judges {α : Type} (malformed : Prop) (x : Result α) : Prop :=
  Ends (fun f => malformed ∧ f.className ∈ ["ValueError", "TypeError"]) (fun _ => ¬ malformed) x

namespace Judges

variable {α : Type} {m : Prop} {x : Result α}

theorem ok {a : α} (h : ¬ m) : Judges m (.ok a : Result α) := h

theorem argument (fault : ArgumentFault) (h : m) : Judges m (.error (.argument fault) : Result α) :=
  ⟨h, by simp [Failure.className]⟩

end Judges

/-! ### Checks -/

section Checks

variable {position : Option Int}

end Checks

/-! ### Builders -/

section Builders

variable {position : Option Int}

end Builders

namespace Plan

end Plan

namespace Addition

variable {p q : Plan} {a : Addition}

end Addition

end Tabula
