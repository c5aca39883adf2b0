import Mathlib.Data.List.Perm.Basic
import Mathlib.Data.List.Sort
import Tabula.Proofs.Number.Places
import Tabula.Proofs.Plan.Safety
import Tabula.Table

/-!
Tables that hold the same rows. Equality of values is symmetric and transitive, and fails of a value
and itself only where there is no number; taking away equal rows one after another, as the
comparison in any order does, then finds a rearrangement whenever there is one.
-/

namespace Tabula

/-! ### Names in order -/

section Names

theorem eraseRepsBy_loop_eq {α : Type} (r : α → α → Bool) (a : α) (as acc : List α) :
    List.eraseRepsBy.loop r a as acc = acc.reverse ++ List.eraseRepsBy.loop r a as [] := by
  induction as generalizing a acc with
  | nil => simp [List.eraseRepsBy.loop]
  | cons b as ih =>
      rw [List.eraseRepsBy.loop, List.eraseRepsBy.loop]
      split
      · exact ih a acc
      · rw [ih b (a :: acc), ih b [a]]
        simp

theorem eraseReps_cons_cons (a b : String) (as : List String) :
    (a :: b :: as).eraseReps =
      if a = b then (a :: as).eraseReps else a :: (b :: as).eraseReps := by
  rw [List.eraseReps, List.eraseRepsBy, List.eraseRepsBy.loop]
  by_cases h : a = b
  · simp [h, List.eraseReps, List.eraseRepsBy]
  · simp [h, List.eraseReps, List.eraseRepsBy, eraseRepsBy_loop_eq _ b as [a],
      beq_eq_false_iff_ne.2 h]

theorem mem_eraseReps {a : String} {as : List String} : a ∈ as.eraseReps ↔ a ∈ as := by
  induction as with
  | nil => simp [List.eraseReps, List.eraseRepsBy]
  | cons b as ih =>
      cases as with
      | nil => simp [List.eraseReps, List.eraseRepsBy, List.eraseRepsBy.loop]
      | cons c as =>
          rw [eraseReps_cons_cons]
          split
          · rename_i h
            subst h
            rw [ih]
            simp
          · rw [List.mem_cons, ih, List.mem_cons (a := a) (b := b)]

/-- What is in order is strictly in order once repetitions are gone. -/
theorem pairwise_eraseReps {as : List String} (h : as.Pairwise (· ≤ ·)) :
    as.eraseReps.Pairwise (· < ·) := by
  induction as with
  | nil => simp [List.eraseReps, List.eraseRepsBy]
  | cons a as ih =>
      cases as with
      | nil => simp [List.eraseReps, List.eraseRepsBy, List.eraseRepsBy.loop]
      | cons b as =>
          obtain ⟨hfirst, hrest⟩ := List.pairwise_cons.1 h
          rw [eraseReps_cons_cons]
          split
          · rename_i heq
            subst heq
            exact ih hrest
          · rename_i hne
            refine List.pairwise_cons.2 ⟨fun c hc => ?_, ih hrest⟩
            have hb : a < b := lt_of_le_of_ne (hfirst b List.mem_cons_self) hne
            rcases List.mem_cons.1 (mem_eraseReps.1 hc) with rfl | hc
            · exact hb
            · exact lt_of_lt_of_le hb ((List.pairwise_cons.1 hrest).1 c hc)

theorem mem_sortedNames {c : String} {names : List String} : c ∈ sortedNames names ↔ c ∈ names := by
  rw [sortedNames, mem_eraseReps, List.mem_mergeSort]

theorem sortedNames_eq_iff {names names' : List String} :
    sortedNames names = sortedNames names' ↔ ∀ c, c ∈ names ↔ c ∈ names' := by
  constructor
  · intro h c
    rw [← mem_sortedNames, h, mem_sortedNames]
  · intro h
    have hsorted (ns : List String) : (sortedNames ns).Pairwise (· < ·) :=
      pairwise_eraseReps (List.pairwise_mergeSort' (· ≤ ·) ns)
    refine (hsorted names).eq_of_mem_iff (hsorted names') fun c => ?_
    rw [mem_sortedNames, mem_sortedNames, h]

end Names

/-! ### Values that stand together -/

namespace Value

/-- Two values that stand at one place, or are both null. Nothing stands with what is no number. -/
structure StandsWith (v w : Value) : Prop where
  left : v.Plain
  right : w.Plain
  standing : v.standing? = w.standing?

theorem StandsWith.symm {v w : Value} (h : v.StandsWith w) : w.StandsWith v :=
  ⟨h.right, h.left, h.standing.symm⟩

theorem StandsWith.trans {u v w : Value} (h : u.StandsWith v) (h' : v.StandsWith w) :
    u.StandsWith w :=
  ⟨h.left, h'.right, h.standing.trans h'.standing⟩

theorem Plain.standsWith_self {v : Value} (h : v.Plain) : v.StandsWith v := ⟨h, h, rfl⟩

theorem place?_eq_none_iff {v : Value} (hv : v.isNumeric = true) :
    v.place? = none ↔ v.isNaN = true := by
  constructor
  · intro hnone
    by_contra hnan
    have hsupported : v.Supported := by
      rw [Supported]
      cases v <;> simp_all [kind, isNumeric]
    have hplain : v.Plain := ⟨hsupported, Bool.not_eq_true _ ▸ hnan⟩
    obtain ⟨p, hp⟩ := hplain.place? hv
    rw [hnone] at hp
    cases hp
  · intro hnan
    cases v with
    | float x => rw [place?, (Number.Parts.of_eq_nan_iff x).2 hnan]
    | _ => cases hnan

/-- What is no number is equal to nothing. -/
theorem not_same_of_isNaN {v w : Value} (h : v.isNaN = true ∨ w.isNaN = true) :
    v.same w = false := by
  have hnumeric {u : Value} (hu : u.isNaN = true) : u.isNumeric = true := by
    cases u <;> first | rfl | cases hu
  rcases h with h | h
  · rw [same_of_isNumeric (.inl (hnumeric h)), (place?_eq_none_iff (hnumeric h)).2 h]
  · rw [same_of_isNumeric (.inr (hnumeric h)), (place?_eq_none_iff (hnumeric h)).2 h]
    cases v.place? <;> rfl

theorem same_iff_standsWith {v w : Value} (hv : v.Supported) (hw : w.Supported) :
    v.same w = true ↔ v.StandsWith w := by
  by_cases hnan : v.isNaN = true ∨ w.isNaN = true
  · rw [not_same_of_isNaN hnan]
    refine iff_of_false nofun fun h => ?_
    rcases hnan with hnan | hnan
    · exact absurd h.left.notNaN (by simp [hnan])
    · exact absurd h.right.notNaN (by simp [hnan])
  · rw [not_or, Bool.not_eq_true, Bool.not_eq_true] at hnan
    rw [same_iff ⟨hv, hnan.1⟩ ⟨hw, hnan.2⟩]
    exact ⟨fun h => ⟨⟨hv, hnan.1⟩, ⟨hw, hnan.2⟩, h⟩, fun h => h.standing⟩

theorem sameItems_iff_forall₂ {vs ws : List Value} (hvs : ∀ v ∈ vs, v.Supported)
    (hws : ∀ w ∈ ws, w.Supported) : sameItems vs ws = true ↔ List.Forall₂ StandsWith vs ws := by
  induction vs generalizing ws with
  | nil => cases ws <;> simp [sameItems]
  | cons v vs ih =>
      cases ws with
      | nil => simp [sameItems]
      | cons w ws =>
          rw [List.forall_mem_cons] at hvs hws
          rw [sameItems, Bool.and_eq_true, same_iff_standsWith hvs.1 hws.1, ih hvs.2 hws.2,
            List.forall₂_cons]

end Value

/-! ### Rearrangements -/

section Partners

variable {α : Type} {R : α → α → Prop}

theorem forall₂_symm (hsymm : ∀ a b, R a b → R b a) {as bs : List α} (h : List.Forall₂ R as bs) :
    List.Forall₂ R bs as :=
  .flip (h.imp hsymm)

theorem forall₂_trans (htrans : ∀ a b c, R a b → R b c → R a c) {as bs cs : List α}
    (h : List.Forall₂ R as bs) (h' : List.Forall₂ R bs cs) : List.Forall₂ R as cs := by
  induction h generalizing cs with
  | nil => exact h'
  | cons hab _ ih =>
      cases h' with
      | cons hbc hrest => exact .cons (htrans _ _ _ hab hbc) (ih hrest)

/-- One of the partners may be exchanged for another that is related to it. -/
theorem forall₂_exchange (htrans : ∀ a b c, R a b → R b c → R a c) {as bs rest : List α} {b c : α}
    (hbc : R b c) (hperm : bs.Perm (b :: rest)) (h : List.Forall₂ R as bs) :
    ∃ cs, cs.Perm (c :: rest) ∧ List.Forall₂ R as cs := by
  obtain ⟨before, after, rfl⟩ := List.append_of_mem (hperm.mem_iff.2 List.mem_cons_self)
  have hbefore := List.forall₂_take_append as before (b :: after) h
  have hafter := List.forall₂_drop_append as before (b :: after) h
  obtain ⟨a, others, hab, hothers, hdrop⟩ := List.forall₂_cons_right_iff.1 hafter
  refine ⟨before ++ c :: after, ?_, ?_⟩
  · exact List.perm_middle.trans ((List.perm_middle.symm.trans hperm).cons_inv.cons c)
  · rw [← List.take_append_drop before.length as, hdrop]
    exact List.rel_append hbefore (.cons (htrans a b c hab hbc) hothers)

end Partners

namespace Table

/-! ### Rows in order and in any order -/

/-- Rows whose items stand together, one by one. -/
def ItemsStand : List Value → List Value → Prop := List.Forall₂ Value.StandsWith

theorem ItemsStand.symm (x y : List Value) (h : ItemsStand x y) : ItemsStand y x :=
  forall₂_symm (fun _ _ h => h.symm) h

theorem ItemsStand.trans (x y z : List Value) (h : ItemsStand x y) (h' : ItemsStand y z) :
    ItemsStand x z :=
  forall₂_trans (fun _ _ _ h h' => h.trans h') h h'

section Rows

variable {xs ys zs : List (List Value)}

theorem sameInOrder_iff (hxs : ∀ x ∈ xs, ∀ v ∈ x, v.Supported)
    (hys : ∀ y ∈ ys, ∀ v ∈ y, v.Supported) :
    sameInOrder xs ys = true ↔ List.Forall₂ ItemsStand xs ys := by
  induction xs generalizing ys with
  | nil => cases ys <;> simp [sameInOrder]
  | cons x xs ih =>
      cases ys with
      | nil => simp [sameInOrder]
      | cons y ys =>
          rw [List.forall_mem_cons] at hxs hys
          rw [sameInOrder, Bool.and_eq_true, Value.sameItems_iff_forall₂ hxs.1 hys.1,
            ih hxs.2 hys.2, List.forall₂_cons, ItemsStand]

/-- The comparison in any order finds a rearrangement that the comparison in order accepts. -/
theorem exists_perm_of_sameInAnyOrder (hxs : ∀ x ∈ xs, ∀ v ∈ x, v.Supported)
    (hys : ∀ y ∈ ys, ∀ v ∈ y, v.Supported) (h : sameInAnyOrder xs ys = true) :
    ∃ zs, zs.Perm ys ∧ List.Forall₂ ItemsStand xs zs := by
  induction xs generalizing ys with
  | nil =>
      rw [sameInAnyOrder, List.isEmpty_iff] at h
      exact ⟨[], by rw [h], .nil⟩
  | cons x xs ih =>
      rw [sameInAnyOrder, Bool.and_eq_true, List.any_eq_true] at h
      obtain ⟨⟨y', hy', hsame'⟩, hrest⟩ := h
      obtain ⟨y, before, after, -, hsame, rfl, herase⟩ := List.exists_of_eraseP hy' hsame'
      rw [herase] at hrest
      rw [List.forall_mem_cons] at hxs
      have hmiddle : (before ++ y :: after).Perm (y :: (before ++ after)) := List.perm_middle
      have hy := hys y (by simp)
      obtain ⟨zs, hperm, hzs⟩ := ih hxs.2 (fun z hz =>
        hys z (hmiddle.mem_iff.2 (List.mem_cons_of_mem y hz))) hrest
      have hxy : ItemsStand x y := (Value.sameItems_iff_forall₂ hxs.1 hy).1 hsame
      exact ⟨y :: zs, (hperm.cons y).trans hmiddle.symm, .cons hxy hzs⟩

/-- It finds one whenever there is one: the row that it takes away is as good as any other. -/
theorem sameInAnyOrder_of_perm (hxs : ∀ x ∈ xs, ∀ v ∈ x, v.Supported)
    (hys : ∀ y ∈ ys, ∀ v ∈ y, v.Supported) (hperm : zs.Perm ys)
    (h : List.Forall₂ ItemsStand xs zs) : sameInAnyOrder xs ys = true := by
  induction xs generalizing ys zs with
  | nil =>
      cases h
      simp [hperm.symm.eq_nil, sameInAnyOrder]
  | cons x xs ih =>
      obtain ⟨z, others, hxz, hrest, rfl⟩ := List.forall₂_cons_left_iff.1 h
      rw [List.forall_mem_cons] at hxs
      have hmem : z ∈ ys := hperm.mem_iff.1 List.mem_cons_self
      have hsame := (Value.sameItems_iff_forall₂ hxs.1 (hys z hmem)).2 hxz
      obtain ⟨y, before, after, -, hfirst, rfl, herase⟩ := List.exists_of_eraseP hmem hsame
      have hxy : ItemsStand x y :=
        (Value.sameItems_iff_forall₂ hxs.1 (hys y (by simp))).1 hfirst
      have hmiddle : (z :: others).Perm (y :: (before ++ after)) := hperm.trans List.perm_middle
      rw [sameInAnyOrder, Bool.and_eq_true, List.any_eq_true, herase]
      refine ⟨⟨z, hmem, hsame⟩, ?_⟩
      have hleft : ∀ w ∈ before ++ after, ∀ v ∈ w, v.Supported := fun w hw =>
        hys w (List.perm_middle.mem_iff.2 (List.mem_cons_of_mem y hw))
      by_cases hzy : z = y
      · subst hzy
        exact ih hxs.2 hleft hmiddle.cons_inv hrest
      · -- the row taken away is a partner further on, whose place the row found first can take
        obtain ⟨p, q, rfl⟩ := List.append_of_mem
          ((List.mem_cons.1 (hmiddle.mem_iff.2 List.mem_cons_self)).resolve_left (Ne.symm hzy))
        have hswap : (z :: (p ++ q)).Perm (before ++ after) :=
          (((List.Perm.swap z y (p ++ q)).trans
            (List.perm_middle.symm.cons z)).trans hmiddle).cons_inv
        obtain ⟨partners, hpartners, hzs⟩ := forall₂_exchange ItemsStand.trans
          (ItemsStand.trans y x z (ItemsStand.symm x y hxy) hxz) List.perm_middle hrest
        exact ih hxs.2 hleft (hpartners.trans hswap) hzs

theorem sameInAnyOrder_iff (hxs : ∀ x ∈ xs, ∀ v ∈ x, v.Supported)
    (hys : ∀ y ∈ ys, ∀ v ∈ y, v.Supported) :
    sameInAnyOrder xs ys = true ↔ ∃ zs, zs.Perm ys ∧ List.Forall₂ ItemsStand xs zs :=
  ⟨exists_perm_of_sameInAnyOrder hxs hys, fun ⟨_, hperm, h⟩ =>
    sameInAnyOrder_of_perm hxs hys hperm h⟩

end Rows

/-- One of the two comparisons. -/
def agree (ordered : Bool) (xs ys : List (List Value)) : Bool :=
  if ordered then sameInOrder xs ys else sameInAnyOrder xs ys

section Agree

variable {xs ys zs : List (List Value)}

theorem agree_iff (ordered : Bool) (hxs : ∀ x ∈ xs, ∀ v ∈ x, v.Supported)
    (hys : ∀ y ∈ ys, ∀ v ∈ y, v.Supported) :
    agree ordered xs ys = true ↔
      ∃ zs, (if ordered then zs = ys else zs.Perm ys) ∧ List.Forall₂ ItemsStand xs zs := by
  cases ordered with
  | true => simp [agree, sameInOrder_iff hxs hys]
  | false => simp [agree, sameInAnyOrder_iff hxs hys]

theorem agree_self (ordered : Bool) (hxs : ∀ x ∈ xs, ∀ v ∈ x, v.Plain) :
    agree ordered xs xs = true := by
  have hsupported : ∀ x ∈ xs, ∀ v ∈ x, v.Supported := fun x hx v hv => (hxs x hx v hv).supported
  refine (agree_iff ordered hsupported hsupported).2 ⟨xs, by cases ordered <;> simp, ?_⟩
  refine List.forall₂_same.2 fun x hx => List.forall₂_same.2 fun v hv => ?_
  exact (hxs x hx v hv).standsWith_self

theorem agree_symm {ordered : Bool} (hxs : ∀ x ∈ xs, ∀ v ∈ x, v.Supported)
    (hys : ∀ y ∈ ys, ∀ v ∈ y, v.Supported) (h : agree ordered xs ys = true) :
    agree ordered ys xs = true := by
  obtain ⟨zs, hzs, hall⟩ := (agree_iff ordered hxs hys).1 h
  have hback := forall₂_symm ItemsStand.symm hall
  rw [agree_iff ordered hys hxs]
  cases ordered with
  | true =>
      obtain rfl : zs = ys := hzs
      exact ⟨xs, rfl, hback⟩
  | false =>
      obtain ⟨ws, hws, hperm⟩ := List.perm_comp_forall₂ (show ys.Perm zs from hzs.symm) hback
      exact ⟨ws, hperm, hws⟩

theorem agree_trans {ordered : Bool} (hxs : ∀ x ∈ xs, ∀ v ∈ x, v.Supported)
    (hys : ∀ y ∈ ys, ∀ v ∈ y, v.Supported) (hzs : ∀ z ∈ zs, ∀ v ∈ z, v.Supported)
    (h : agree ordered xs ys = true) (h' : agree ordered ys zs = true) :
    agree ordered xs zs = true := by
  obtain ⟨ys', hys', hall⟩ := (agree_iff ordered hxs hys).1 h
  obtain ⟨zs', hzs', hall'⟩ := (agree_iff ordered hys hzs).1 h'
  rw [agree_iff ordered hxs hzs]
  cases ordered with
  | true =>
      obtain rfl : ys' = ys := hys'
      exact ⟨zs', hzs', forall₂_trans ItemsStand.trans hall hall'⟩
  | false =>
      obtain ⟨ws, hws, hperm⟩ := List.perm_comp_forall₂ (show ys'.Perm ys from hys') hall'
      exact ⟨ws, hperm.trans hzs', forall₂_trans ItemsStand.trans hall hws⟩

theorem length_eq_of_agree {ordered : Bool} (hxs : ∀ x ∈ xs, ∀ v ∈ x, v.Supported)
    (hys : ∀ y ∈ ys, ∀ v ∈ y, v.Supported) (h : agree ordered xs ys = true) :
    xs.length = ys.length := by
  obtain ⟨zs, hzs, hall⟩ := (agree_iff ordered hxs hys).1 h
  rw [hall.length_eq]
  cases ordered with
  | true => exact congrArg List.length hzs
  | false => exact List.Perm.length_eq hzs

end Agree

/-! ### Rows as they are compared -/

/-- The value that a value is compared as. -/
def rounded (places : Int) (v : Value) : Value := (roundedValue places v).toOption.getD .null

section Rounded

variable {places : Int} (h : 0 ≤ places)

include h in
theorem roundedValue_eq (v : Value) : roundedValue places v = .ok (rounded places v) := by
  cases v with
  | float x =>
      obtain ⟨y, hy, -⟩ := Number.exists_roundExact? x h
      simp only [rounded, roundedValue, hy]
      rfl
  | _ => rfl

include h in
theorem supported_rounded {v : Value} (hv : v.Supported) : (rounded places v).Supported := by
  cases v with
  | float x =>
      obtain ⟨y, hy, -⟩ := Number.exists_roundExact? x h
      have heq : rounded places (.float x) = .float y := by
        simp only [rounded, roundedValue, hy]
        rfl
      simp [heq]
  | _ => exact hv

include h in
theorem plain_rounded {v : Value} (hv : v.Plain) : (rounded places v).Plain := by
  refine ⟨supported_rounded h hv.supported, ?_⟩
  cases v with
  | float x =>
      obtain ⟨y, hy, hnan⟩ := Number.exists_roundExact? x h
      have heq : rounded places (.float x) = .float y := by
        simp only [rounded, roundedValue, hy]
        rfl
      rw [heq]
      exact hnan.trans hv.notNaN
  | _ => exact hv.notNaN

/-- The rows of a table as they are compared. -/
def compared (t : Table) (places : Int) : List (List Value) :=
  t.rows.map fun r => (sortedNames t.columns).map fun c => rounded places (r.getD c)

include h in
theorem keyed_eq (t : Table) : t.keyed places = .ok (t.compared places) :=
  mapM_eq_ok_map fun r _ => mapM_eq_ok_map fun c _ => roundedValue_eq h (r.getD c)

theorem forall_compared {P : Value → Prop} {t : Table}
    (hP : ∀ r ∈ t.rows, ∀ c, P (rounded places (r.getD c))) :
    ∀ x ∈ t.compared places, ∀ v ∈ x, P v := by
  intro x hx v hv
  obtain ⟨r, hr, rfl⟩ := List.mem_map.1 hx
  obtain ⟨c, -, rfl⟩ := List.mem_map.1 hv
  exact hP r hr c

end Rounded

/-- The values in the rows are values that plans compute with, and numbers where they are floats. -/
def Plain (t : Table) : Prop := ∀ r ∈ t.rows, ∀ cell ∈ r.cells, cell.2.Plain

theorem Plain.supported {t : Table} (ht : t.Plain) : t.Supported :=
  fun r hr cell hcell => (ht r hr cell hcell).supported

end Table

theorem Row.getD_of_cells {P : Value → Prop} {r : Row} (hnull : P .null)
    (hcells : ∀ cell ∈ r.cells, P cell.2) (c : String) : P (r.getD c) := by
  rw [getD]
  cases hv : r.get? c with
  | none => exact hnull
  | some v =>
      obtain ⟨before, after, hsplit, _⟩ := List.lookup_eq_some_iff.1 hv
      exact hcells (c, v) (by simp [hsplit])

namespace Table

section SameRows

variable {places : Int} {t t' u u' : Table}

theorem supported_compared (h : 0 ≤ places) (ht : t.Supported) :
    ∀ x ∈ t.compared places, ∀ v ∈ x, v.Supported :=
  forall_compared fun r hr c =>
    supported_rounded h (Row.getD_of_cells Value.supported_null (ht r hr) c)

theorem plain_compared (h : 0 ≤ places) (ht : t.Plain) :
    ∀ x ∈ t.compared places, ∀ v ∈ x, v.Plain :=
  forall_compared fun r hr c =>
    plain_rounded h (Row.getD_of_cells ⟨Value.supported_null, rfl⟩ (ht r hr) c)

theorem checkHashable_ok {xs : List (List Value)} (hxs : ∀ x ∈ xs, ∀ v ∈ x, v.Supported) :
    checkHashable xs = .ok () := by
  refine if_neg fun hany => ?_
  simp only [List.any_eq_true, decide_eq_true_eq] at hany
  obtain ⟨x, hx, v, hv, hlist⟩ := hany
  exact hxs x hx v hv hlist

/-- Comparing tables compares their names and their rounded rows. -/
theorem sameRows_eq (h : 0 ≤ places) (ht : t.Supported) (hu : u.Supported) (ordered : Bool) :
    t.sameRows u ordered places =
      .ok (decide (sortedNames t.columns = sortedNames u.columns) &&
        agree ordered (t.compared places) (u.compared places)) := by
  have hts := supported_compared h ht
  have hus := supported_compared h hu
  rw [sameRows, keyed_eq h, keyed_eq h]
  by_cases hnames : sortedNames t.columns = sortedNames u.columns
  · by_cases hlength : t.rows.length = u.rows.length
    · cases ordered <;>
        simp [hnames, hlength, checkHashable_ok hts, checkHashable_ok hus, agree, bind,
          Except.bind, pure, Except.pure]
    · have hagree : agree ordered (t.compared places) (u.compared places) = false := by
        rw [Bool.eq_false_iff]
        intro htrue
        have := length_eq_of_agree hts hus htrue
        rw [compared, compared, List.length_map, List.length_map] at this
        exact hlength this
      simp [hnames, hlength, hagree, pure, Except.pure]
  · simp [hnames, pure, Except.pure]

theorem sameRows_eq_true (h : 0 ≤ places) (ht : t.Supported) (hu : u.Supported) {ordered : Bool} :
    t.sameRows u ordered places = .ok true ↔ (∀ c, c ∈ t.columns ↔ c ∈ u.columns) ∧
      agree ordered (t.compared places) (u.compared places) = true := by
  rw [sameRows_eq h ht hu, Except.ok.injEq, Bool.and_eq_true, decide_eq_true_eq,
    sortedNames_eq_iff]

end SameRows

end Table

/-- Both rows have values under the column that are equal once they are rounded. -/
def Row.SameAt (c : String) (places : Int) (r s : Row) : Prop :=
  ∃ v w, Table.roundedValue places (r.getD c) = .ok v ∧
    Table.roundedValue places (s.getD c) = .ok w ∧ v.same w = true

/-- The tables have the same columns, in whatever order, and the same values under them; a row that
lacks a column holds null there. -/
structure Table.ShowsAs (t t' : Table) : Prop where
  columns : ∀ c, c ∈ t.columns ↔ c ∈ t'.columns
  rows : List.Forall₂ (fun r r' => ∀ c ∈ t.columns, r.getD c = r'.getD c) t.rows t'.rows

namespace Table

section SameRows

variable {places : Int} {t t' u u' : Table}

theorem ShowsAs.compared_eq (h : t.ShowsAs t') (places : Int) :
    t.compared places = t'.compared places := by
  have hnames : sortedNames t.columns = sortedNames t'.columns := sortedNames_eq_iff.2 h.columns
  have hrows := h.rows
  rw [compared, compared, ← hnames]
  generalize t.rows = rows, t'.rows = rows' at hrows
  induction hrows with
  | nil => rfl
  | cons hr _ ih =>
      rw [List.map_cons, List.map_cons, ih]
      exact congrArg (· :: _) (List.map_congr_left fun c hc => by rw [hr c (mem_sortedNames.1 hc)])

theorem ShowsAs.sameRows_eq (h : 0 ≤ places) (ht : t.ShowsAs t') (hu : u.ShowsAs u')
    (ordered : Bool) : t.sameRows u ordered places = t'.sameRows u' ordered places := by
  rw [sameRows, sameRows, Table.keyed_eq h, Table.keyed_eq h, Table.keyed_eq h, Table.keyed_eq h,
    ht.compared_eq, hu.compared_eq, sortedNames_eq_iff.2 ht.columns,
    sortedNames_eq_iff.2 hu.columns, ht.rows.length_eq, hu.rows.length_eq]

/-- Rows that are compared stand together where the rows are the same in every column. -/
theorem forall₂_compared_iff (h : 0 ≤ places) (ht : t.Supported) (hu : u.Supported)
    (hcolumns : ∀ c, c ∈ t.columns ↔ c ∈ u.columns) :
    List.Forall₂ ItemsStand (t.compared places) (u.compared places) ↔
      List.Forall₂ (fun r s => ∀ c ∈ t.columns, r.SameAt c places s) t.rows u.rows := by
  rw [compared, compared, ← sortedNames_eq_iff.2 hcolumns, List.forall₂_map_left_iff,
    List.forall₂_map_right_iff]
  have hitems {r s : Row} (hr : r ∈ t.rows) (hs : s ∈ u.rows) :
      ItemsStand ((sortedNames t.columns).map fun c => rounded places (r.getD c))
        ((sortedNames t.columns).map fun c => rounded places (s.getD c)) ↔
      ∀ c ∈ t.columns, r.SameAt c places s := by
    rw [ItemsStand, List.forall₂_map_left_iff, List.forall₂_map_right_iff, List.forall₂_same]
    refine forall_congr' fun c => imp_congr mem_sortedNames ?_
    have hv := supported_rounded h (Row.getD_of_cells Value.supported_null (ht r hr) c)
    have hw := supported_rounded h (Row.getD_of_cells Value.supported_null (hu s hs) c)
    rw [← Value.same_iff_standsWith hv hw, Row.SameAt, roundedValue_eq h, roundedValue_eq h]
    simp
  rw [List.forall₂_iff_zip, List.forall₂_iff_zip]
  refine and_congr_right fun _ => forall_congr' fun r => forall_congr' fun s => ?_
  refine imp_congr_right fun hmem => hitems (List.of_mem_zip hmem).1 (List.of_mem_zip hmem).2

/-- What the comparison in order says. -/
theorem sameRows_inOrder_iff (h : 0 ≤ places) (ht : t.Supported) (hu : u.Supported) :
    t.sameRows u true places = .ok true ↔ (∀ c, c ∈ t.columns ↔ c ∈ u.columns) ∧
      List.Forall₂ (fun r s => ∀ c ∈ t.columns, r.SameAt c places s) t.rows u.rows := by
  rw [sameRows_eq_true h ht hu]
  refine and_congr_right fun hcolumns => ?_
  rw [← forall₂_compared_iff h ht hu hcolumns]
  exact sameInOrder_iff (supported_compared h ht) (supported_compared h hu)

/-- What the comparison in any order says. -/
theorem sameRows_inAnyOrder_iff (h : 0 ≤ places) (ht : t.Supported) (hu : u.Supported) :
    t.sameRows u false places = .ok true ↔
      ∃ rows, rows.Perm u.rows ∧ t.sameRows ⟨u.columns, rows⟩ true places = .ok true := by
  have hts := supported_compared h ht
  have hpermuted {rows : List Row} (hperm : rows.Perm u.rows) :
      Table.Supported ⟨u.columns, rows⟩ := fun r hr => hu r (hperm.mem_iff.1 hr)
  rw [sameRows_eq_true h ht hu]
  constructor
  · rintro ⟨hcolumns, hagree⟩
    obtain ⟨zs, hperm, hall⟩ := (sameInAnyOrder_iff hts (supported_compared h hu)).1 hagree
    -- the rearranged rows as they are compared come from rearranged rows
    obtain ⟨rows, rfl, hrows⟩ :=
      (congrFun (congrFun (List.eq_map_comp_perm _) zs) u.rows).mpr hperm
    refine ⟨rows, hrows, (sameRows_eq_true h ht (hpermuted hrows)).2 ⟨hcolumns, ?_⟩⟩
    exact (sameInOrder_iff hts (supported_compared h (hpermuted hrows))).2 hall
  · rintro ⟨rows, hperm, hsame⟩
    obtain ⟨hcolumns, hagree⟩ := (sameRows_eq_true h ht (hpermuted hperm)).1 hsame
    refine ⟨hcolumns, (sameInAnyOrder_iff hts (supported_compared h hu)).2
      ⟨_, hperm.map _, ?_⟩⟩
    exact (sameInOrder_iff hts (supported_compared h (hpermuted hperm))).1 hagree

theorem equivalence_sameRows (h : 0 ≤ places) (ordered : Bool) :
    Equivalence fun t u : {t : Table // t.Plain} => t.1.sameRows u.1 ordered places = .ok true where
  refl t := (sameRows_eq_true h t.2.supported t.2.supported).2
    ⟨fun _ => .rfl, agree_self ordered (plain_compared h t.2)⟩
  symm {t u} hsame := by
    obtain ⟨hcolumns, hagree⟩ := (sameRows_eq_true h t.2.supported u.2.supported).1 hsame
    exact (sameRows_eq_true h u.2.supported t.2.supported).2 ⟨fun c => (hcolumns c).symm,
      agree_symm (supported_compared h t.2.supported) (supported_compared h u.2.supported) hagree⟩
  trans {t u v} hsame hsame' := by
    obtain ⟨hcolumns, hagree⟩ := (sameRows_eq_true h t.2.supported u.2.supported).1 hsame
    obtain ⟨hcolumns', hagree'⟩ := (sameRows_eq_true h u.2.supported v.2.supported).1 hsame'
    exact (sameRows_eq_true h t.2.supported v.2.supported).2
      ⟨fun c => (hcolumns c).trans (hcolumns' c),
        agree_trans (supported_compared h t.2.supported) (supported_compared h u.2.supported)
          (supported_compared h v.2.supported) hagree hagree'⟩

/-- Comparing tables says whether they hold the same rows, doubles rounded to a number of places
that is not negative. In order, every row is compared with the other of its number, column by
column; in any order, the rows of the second may be rearranged first. The order of the columns makes
no difference, nor whether a row lacks a column or holds null there; and among tables without
not-a-number both comparisons are equivalences. -/
theorem sameRows_up_to_rounding (h : 0 ≤ places) :
    (∀ t u : Table, t.Supported → u.Supported →
      ∃ inOrder inAnyOrder, t.sameRows u true places = .ok inOrder ∧
        t.sameRows u false places = .ok inAnyOrder ∧
        (inOrder = true ↔ (∀ c, c ∈ t.columns ↔ c ∈ u.columns) ∧
          List.Forall₂ (fun r s => ∀ c ∈ t.columns, r.SameAt c places s) t.rows u.rows) ∧
        (inAnyOrder = true ↔ ∃ rows, rows.Perm u.rows ∧
          t.sameRows ⟨u.columns, rows⟩ true places = .ok true) ∧
        (inOrder = true → inAnyOrder = true)) ∧
    (∀ (ordered : Bool) (t t' u u' : Table), t.ShowsAs t' → u.ShowsAs u' →
      t.sameRows u ordered places = t'.sameRows u' ordered places) ∧
    ∀ ordered, Equivalence fun t u : {t : Table // t.Plain} =>
      t.1.sameRows u.1 ordered places = .ok true := by
  refine ⟨fun t u ht hu => ?_, fun ordered t t' u u' ht hu => ht.sameRows_eq h hu ordered,
    equivalence_sameRows h⟩
  have hordered := sameRows_inOrder_iff h ht hu
  have hunordered := sameRows_inAnyOrder_iff h ht hu
  rw [sameRows_eq h ht hu, Except.ok.injEq] at hordered hunordered
  refine ⟨_, _, sameRows_eq h ht hu true, sameRows_eq h ht hu false, hordered, hunordered,
    fun hsame => hunordered.2 ⟨u.rows, .refl _, ?_⟩⟩
  rw [sameRows_eq h ht hu, hsame]

theorem sameRows_up_to_rounding_points :
    let points : List Row :=
      [⟨[("team", .str "a"), ("points", .float 0.3)]⟩, ⟨[("team", .str "b")]⟩]
    let again : List Row :=
      [⟨[("points", .null), ("team", .str "b")]⟩,
        ⟨[("points", .float 0.30000000000000004), ("team", .str "a")]⟩]
    (0 : Int) ≤ 9 ∧ Table.sameRows ⟨["team", "points"], points⟩ ⟨["points", "team"], again⟩
      false 9 = .ok true := by
  intro points again
  have hplaces : (0 : Int) ≤ 9 := by decide
  obtain ⟨hcompare, -⟩ := sameRows_up_to_rounding hplaces
  have ht : Table.Supported ⟨["team", "points"], points⟩ := by decide
  have hu : Table.Supported ⟨["points", "team"], again⟩ := by decide
  have hordered : Table.sameRows ⟨["team", "points"], points⟩ ⟨["points", "team"], again.reverse⟩
      true 9 = .ok true := by
    obtain ⟨inOrder, -, hsame, -, hiff, -⟩ := hcompare _ _ ht
      (show Table.Supported ⟨["points", "team"], again.reverse⟩ by decide)
    have htrue : inOrder = true := by
      refine hiff.2 ⟨fun c => by simp [or_comm], ?_⟩
      refine .cons (fun c hc => ?_) (.cons (fun c hc => ?_) .nil)
      · refine ⟨_, _, roundedValue_eq hplaces _, roundedValue_eq hplaces _, ?_⟩
        fin_cases hc <;> decide +kernel
      · refine ⟨_, _, roundedValue_eq hplaces _, roundedValue_eq hplaces _, ?_⟩
        fin_cases hc <;> decide +kernel
    rw [hsame, htrue]
  obtain ⟨-, inAnyOrder, -, hsame, -, hiff, -⟩ := hcompare _ _ ht hu
  refine ⟨hplaces, ?_⟩
  rw [hsame, hiff.2 ⟨again.reverse, List.reverse_perm again, hordered⟩]

end SameRows
end Table
end Tabula
