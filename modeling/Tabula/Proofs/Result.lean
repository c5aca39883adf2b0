import Tabula.Failure

/-!
Computations that may fail. What they may end with is said by two conditions, one on results and one
on failures, which are found along the computation. A map succeeds if the function succeeds on every
item, and rearranging the items only rearranges the outcome.
-/

namespace Tabula

/-- The computation succeeds with something that has `Q`, or it fails by one of the faults `E`. -/
def Ends {ε β : Type} (E : ε → Prop) (Q : β → Prop) : Except ε β → Prop
  | .ok b => Q b
  | .error e => E e

namespace Ends

variable {ε β γ : Type} {E : ε → Prop} {Q : β → Prop} {R : γ → Prop}

theorem pure {b : β} (h : Q b) : Ends E Q (Pure.pure b) := h

theorem bind {x : Except ε β} {f : β → Except ε γ} (hx : Ends E Q x)
    (hf : ∀ b, Q b → Ends E R (f b)) : Ends E R (x >>= f) := by
  cases x with
  | error e => exact hx
  | ok b => exact hf b hx

theorem map {x : Except ε β} {f : β → γ} (hx : Ends E Q x) (h : ∀ b, Q b → R (f b)) :
    Ends E R (x.map f) := by
  cases x with
  | error e => exact hx
  | ok b => exact h b hx

theorem mono {Q' : β → Prop} {x : Except ε β} (hx : Ends E Q x) (h : ∀ b, Q b → Q' b) :
    Ends E Q' x := by
  cases x with
  | error e => exact hx
  | ok b => exact h b hx

theorem weaken {E' : ε → Prop} {x : Except ε β} (hx : Ends E Q x) (h : ∀ e, E e → E' e) :
    Ends E' Q x := by
  cases x with
  | error e => exact h e hx
  | ok b => exact hx

theorem mapError {ε' : Type} {E' : ε' → Prop} {g : ε → ε'} {x : Except ε β} (hx : Ends E Q x)
    (h : ∀ e, E e → E' (g e)) : Ends E' Q (x.mapError g) := by
  cases x with
  | error e => exact h e hx
  | ok b => exact hx

theorem of_eq_ok {x : Except ε β} {b : β} (hx : Ends E Q x) (h : x = .ok b) : Q b := by
  rw [h] at hx
  exact hx

theorem of_eq_error {x : Except ε β} {e : ε} (hx : Ends E Q x) (h : x = .error e) : E e := by
  rw [h] at hx
  exact hx

/-- The result of a computation is what it is, and its faults are among those allowed. -/
theorem self {x : Except ε β} (h : ∀ e, x = .error e → E e) : Ends E (fun b => x = .ok b) x := by
  cases x with
  | error e => exact h e rfl
  | ok b => rfl

end Ends

section Binding

variable {ε α β : Type}

theorem bind_eq_ok {x : Except ε α} {f : α → Except ε β} {b : β} :
    x >>= f = .ok b ↔ ∃ a, x = .ok a ∧ f a = .ok b := by
  cases x <;> simp [bind, Except.bind]

theorem pure_eq_ok {a b : α} : (pure a : Except ε α) = .ok b ↔ a = b := by
  simp [pure, Except.pure]

theorem toOption_eq_some {x : Except ε α} {a : α} : x.toOption = some a ↔ x = .ok a := by
  cases x with
  | error e =>
      show (none : Option α) = some a ↔ _
      simp
  | ok b =>
      show some b = some a ↔ _
      simp

theorem exists_of_isOk {x : Except ε α} (h : x.isOk = true) : ∃ a, x = .ok a := by
  cases x with
  | error e => cases h
  | ok a => exact ⟨a, rfl⟩

theorem mapError_eq_ok {ε' : Type} {g : ε → ε'} {x : Except ε α} {a : α} :
    x.mapError g = .ok a ↔ x = .ok a := by
  cases x with
  | error e =>
      show (.error (g e) : Except ε' α) = .ok a ↔ _
      simp
  | ok b =>
      show (.ok b : Except ε' α) = .ok a ↔ _
      simp

end Binding

section Map

variable {ε α β : Type} {f : α → Except ε β}

theorem mapM_cons_eq_ok {a : α} {as : List α} {out : List β} :
    (a :: as).mapM f = .ok out ↔ ∃ b bs, f a = .ok b ∧ as.mapM f = .ok bs ∧ out = b :: bs := by
  rw [List.mapM_cons]
  cases f a with
  | error e => simp [bind, Except.bind]
  | ok b =>
      cases as.mapM f with
      | error e => simp [bind, Except.bind]
      | ok bs => simp [bind, Except.bind, pure, Except.pure, eq_comm]

theorem mapM_eq_ok_map {as : List α} {g : α → β} (h : ∀ a ∈ as, f a = .ok (g a)) :
    as.mapM f = .ok (as.map g) := by
  induction as with
  | nil => rfl
  | cons a as ih =>
      rw [List.forall_mem_cons] at h
      exact mapM_cons_eq_ok.2 ⟨g a, as.map g, h.1, ih h.2, rfl⟩

theorem exists_of_mapM_eq_ok {as : List α} {out : List β} (h : as.mapM f = .ok out) :
    ∀ a ∈ as, ∃ b ∈ out, f a = .ok b := by
  induction as generalizing out with
  | nil => simp
  | cons a as ih =>
      obtain ⟨b, bs, hb, hbs, rfl⟩ := mapM_cons_eq_ok.1 h
      intro c hc
      rcases List.mem_cons.1 hc with rfl | hc
      · exact ⟨b, by simp, hb⟩
      · obtain ⟨b', hb', hf⟩ := ih hbs c hc
        exact ⟨b', by simp [hb'], hf⟩

theorem mapM_eq_ok_of_perm {as as' : List α} (hperm : as.Perm as') {out : List β}
    (h : as.mapM f = .ok out) : ∃ out', as'.mapM f = .ok out' ∧ out.Perm out' := by
  induction hperm generalizing out with
  | nil => exact ⟨out, h, .refl _⟩
  | cons a _ ih =>
      obtain ⟨b, bs, hb, hbs, rfl⟩ := mapM_cons_eq_ok.1 h
      obtain ⟨bs', hbs', hperm⟩ := ih hbs
      exact ⟨b :: bs', mapM_cons_eq_ok.2 ⟨b, bs', hb, hbs', rfl⟩, hperm.cons b⟩
  | swap a a' as =>
      obtain ⟨b', rest, hb', hrest, rfl⟩ := mapM_cons_eq_ok.1 h
      obtain ⟨b, bs, hb, hbs, rfl⟩ := mapM_cons_eq_ok.1 hrest
      have hcons := mapM_cons_eq_ok.2 ⟨b', bs, hb', hbs, rfl⟩
      exact ⟨b :: b' :: bs, mapM_cons_eq_ok.2 ⟨b, b' :: bs, hb, hcons, rfl⟩, .swap b b' bs⟩
  | trans _ _ ih ih' =>
      obtain ⟨out', h', hperm⟩ := ih h
      obtain ⟨out'', h'', hperm'⟩ := ih' h'
      exact ⟨out'', h'', hperm.trans hperm'⟩

/-- The place of an item makes no difference to success where only failures show it. -/
theorem mapM_zipIdx_eq_ok {ε' : Type} {g : Nat → ε → ε'} {as : List α} {n : Nat} {out : List β} :
    ((as.zipIdx n).mapM fun m => (f m.1).mapError (g m.2)) = .ok out ↔ as.mapM f = .ok out := by
  induction as generalizing n out with
  | nil => simp [pure, Except.pure]
  | cons a as ih =>
      rw [List.zipIdx_cons, mapM_cons_eq_ok, mapM_cons_eq_ok]
      simp only [mapError_eq_ok, ih]

theorem ends_mapM {E : ε → Prop} {Q : β → Prop} {as : List α} (h : ∀ a ∈ as, Ends E Q (f a)) :
    Ends E (fun out => ∀ b ∈ out, Q b) (as.mapM f) := by
  induction as with
  | nil => exact .pure (by simp)
  | cons a as ih =>
      rw [List.forall_mem_cons] at h
      rw [List.mapM_cons]
      refine h.1.bind fun b hb => (ih h.2).bind fun bs hbs => .pure ?_
      exact List.forall_mem_cons.2 ⟨hb, hbs⟩

end Map

/-- The result is an error of the class at the place. -/
def FailsAs {α : Type} (r : Result α) (c : ErrorClass) (position : Option Int) : Prop :=
  ∃ cause, r = .error (.plan ⟨cause, position⟩) ∧ cause.errorClass = c

theorem not_failsAs_ok {α : Type} {a : α} {c : ErrorClass} {position : Option Int} :
    ¬ FailsAs (.ok a : Result α) c position := by
  rintro ⟨cause, h, -⟩
  cases h

end Tabula
