import Mathlib.Data.List.Sort
import Tabula.Row.Precedence

/-!
Stable sorting by an order that may leave things undecided. Of two items of which neither is before
the other, the one that stood further up stays further up; this and the order decide the outcome.
So sorting by one order after another one is sorting once, with the older order for what the newer
one leaves undecided, and a sort seen from behind is a sort by the order turned round.
-/

namespace Tabula

section Stable

variable {α β : Type} {before other : α → α → Bool}

/-- An order in which things that are not told apart form classes. -/
structure StrictWeak (before : α → α → Bool) : Prop where
  asymm : ∀ {a b}, before a b = true → before b a = false
  negTrans : ∀ {a b c}, before a b = false → before b c = false → before a c = false

/-- The second order decides what the first leaves undecided. -/
def thenBy (before other : α → α → Bool) (a b : α) : Bool :=
  before a b || (!before b a && other a b)

namespace StrictWeak

theorem irrefl (h : StrictWeak before) (a : α) : before a a = false := by
  by_contra hne
  have htrue := (Bool.not_eq_false _).mp hne
  exact hne (h.asymm htrue)

/-- What is before one of two things that are not told apart is before the other. -/
theorem eq_right (h : StrictWeak before) {a b : α} (hab : before a b = false)
    (hba : before b a = false) (c : α) : before c a = before c b := by
  cases hca : before c a with
  | true =>
      by_contra hne
      have hcb := (Bool.not_eq_true _).mp (Ne.symm hne)
      rw [h.negTrans hcb hba] at hca
      cases hca
  | false => exact (h.negTrans hca hab).symm

theorem comap (h : StrictWeak before) (f : β → α) :
    StrictWeak fun x y => before (f x) (f y) :=
  ⟨fun hxy => h.asymm hxy, fun hxy hyz => h.negTrans hxy hyz⟩

theorem flip (h : StrictWeak before) : StrictWeak fun a b => before b a :=
  ⟨fun hab => h.asymm hab, fun hab hbc => h.negTrans hbc hab⟩

theorem thenBy (h : StrictWeak before) (h' : StrictWeak other) :
    StrictWeak (Tabula.thenBy before other) := by
  constructor
  · intro a b hab
    simp only [Tabula.thenBy, Bool.or_eq_true, Bool.and_eq_true, Bool.not_eq_true',
      Bool.or_eq_false_iff, Bool.and_eq_false_iff, Bool.not_eq_false'] at hab ⊢
    rcases hab with hab | ⟨hba, hab⟩
    · exact ⟨h.asymm hab, .inl hab⟩
    · exact ⟨hba, .inr (h'.asymm hab)⟩
  · intro a b c hab hbc
    simp only [Tabula.thenBy, Bool.or_eq_false_iff, Bool.and_eq_false_iff,
      Bool.not_eq_false'] at hab hbc ⊢
    refine ⟨h.negTrans hab.1 hbc.1, ?_⟩
    by_cases hca : before c a = true
    · exact .inl hca
    · have hca' := (Bool.not_eq_true _).mp hca
      -- nothing tells the three apart, so that only the second order counts
      have hba : before b a = false := h.negTrans hbc.1 hca'
      have hcb : before c b = false := h.negTrans hca' hab.1
      have hab' := hab.2.resolve_left (by simp [hba])
      have hbc' := hbc.2.resolve_left (by simp [hcb])
      exact .inr (h'.negTrans hab' hbc')

end StrictWeak

/-- Items in an order; those of which none is before the other stay as they were. -/
def stableSort (before : α → α → Bool) (items : List α) : List α :=
  items.mergeSort fun a b => !before b a

theorem stableSort_perm (before : α → α → Bool) (items : List α) :
    (stableSort before items).Perm items :=
  List.mergeSort_perm items _

theorem map_stableSort {f : α → β} (before : α → α → Bool) (other : β → β → Bool)
    {items : List α} (h : ∀ a ∈ items, ∀ b ∈ items, before a b = other (f a) (f b)) :
    (stableSort before items).map f = stableSort other (items.map f) :=
  List.map_mergeSort fun a ha b hb => by rw [h b hb a ha]

theorem stableSort_congr {items : List α}
    (h : ∀ a ∈ items, ∀ b ∈ items, before a b = other a b) :
    stableSort before items = stableSort other items := by
  have hmap := map_stableSort (f := id) before other h
  rwa [List.map_id, List.map_id] at hmap

/-- Two items stand in order, those that are not told apart as they are related otherwise. -/
def InPlace (before : α → α → Bool) (R : α → α → Prop) (x y : α) : Prop :=
  before y x = false ∧ (before x y = false → R x y)

/-- The outcome of a sort is in order, and keeps every relation between items that are not told
apart. -/
theorem StrictWeak.pairwise_stableSort (h : StrictWeak before) {R : α → α → Prop}
    {items : List α} (hR : items.Pairwise R) :
    (stableSort before items).Pairwise (InPlace before R) := by
  have htrans (a b c : α) (hab : (!before b a) = true) (hbc : (!before c b) = true) :
      (!before c a) = true := by
    simp only [Bool.not_eq_true'] at hab hbc ⊢
    exact h.negTrans hbc hab
  have htotal (a b : α) : ((!before b a) || !before a b) = true := by
    cases hba : before b a with
    | true => rw [h.asymm hba]; rfl
    | false => rfl
  induction items with
  | nil => simp [stableSort]
  | cons x items ih =>
      -- the first item goes between those before it and all others, which stay as they were sorted
      rw [List.pairwise_cons] at hR
      obtain ⟨front, behind, hsort, hrest, hfront⟩ := List.mergeSort_cons htrans htotal x items
      have hsorted := List.pairwise_mergeSort htrans htotal (x :: items)
      have hplaced := ih hR.2
      unfold stableSort at hplaced ⊢
      rw [hrest] at hplaced
      rw [hsort] at hsorted ⊢
      rw [List.pairwise_append] at hplaced hsorted ⊢
      rw [List.pairwise_cons] at hsorted ⊢
      refine ⟨hplaced.1, ⟨fun y hy => ?_, hplaced.2.1⟩, fun z hz y hy => ?_⟩
      · have hbehind : y ∈ items.mergeSort fun a b => !before b a := by
          rw [hrest]
          exact List.mem_append_right _ hy
        have hmem : y ∈ items := List.mem_mergeSort.1 hbehind
        have hxy := hsorted.2.1.1 y hy
        rw [Bool.not_eq_true'] at hxy
        exact ⟨hxy, fun _ => hR.1 y hmem⟩
      · rcases List.mem_cons.1 hy with rfl | hy
        · have hzx := hfront z hz
          have hxz := hsorted.2.2 z hz y (by simp)
          simp only [Bool.not_not, Bool.not_eq_true'] at hzx hxz
          exact ⟨hxz, fun hn => by rw [hzx] at hn; cases hn⟩
        · exact hplaced.2.2 z hz y hy

theorem StrictWeak.sorted_stableSort (h : StrictWeak before) (items : List α) :
    (stableSort before items).Pairwise fun x y => before y x = false := by
  have hplaced := h.pairwise_stableSort (List.pairwise_of_forall (l := items) fun _ _ => trivial)
  exact hplaced.imp fun hxy => hxy.1

/-- Items can be in order in one way only, if the relation between those that are not told apart
goes one way. -/
theorem eq_of_inPlace {R : α → α → Prop} (hasymm : ∀ {x y}, R x y → ¬ R y x) {l l' : List α}
    (hperm : l.Perm l') (h : l.Pairwise (InPlace before R))
    (h' : l'.Pairwise (InPlace before R)) : l = l' := by
  refine hperm.eq_of_pairwise ?_ h h'
  intro x y _ _ hxy hyx
  exact absurd (hyx.2 hxy.1) (hasymm (hxy.2 hyx.1))

/-- What tells items apart comes out the same, in whatever order the items were. -/
theorem StrictWeak.map_stableSort_of_perm (h : StrictWeak before) (key : α → β)
    (hsame : ∀ {a b}, before a b = false → before b a = false → key a = key b)
    (hkey : ∀ {a a' b b'}, key a = key a' → key b = key b' → before a b = before a' b')
    {items items' : List α} (hperm : items.Perm items') :
    (stableSort before items).map key = (stableSort before items').map key := by
  have hsorted (items : List α) : ((stableSort before items).map key).Pairwise
      fun k l => ∃ a b, key a = k ∧ key b = l ∧ before b a = false :=
    List.pairwise_map.2 ((h.sorted_stableSort items).imp fun hab => ⟨_, _, rfl, rfl, hab⟩)
  refine List.Perm.eq_of_pairwise ?_ (hsorted items) (hsorted items') ?_
  · rintro _ _ _ _ ⟨a, b, rfl, rfl, hba⟩ ⟨b', a', hb, ha, hab⟩
    exact hsame ((hkey ha.symm hb.symm).trans hab) hba
  · exact ((stableSort_perm _ _).trans (hperm.trans (stableSort_perm _ _).symm)).map key

/-- Items with their places. -/
theorem pairwise_zipIdx (items : List α) : items.zipIdx.Pairwise fun x y => x.2 < y.2 := by
  have h := List.pairwise_lt_range' (s := 0) (n := items.length)
  rw [← List.zipIdx_map_snd 0 items, List.pairwise_map] at h
  exact h

theorem stableSort_eq_map_zipIdx (before : α → α → Bool) (items : List α) :
    stableSort before items =
      (stableSort (fun x y => before x.1 y.1) items.zipIdx).map Prod.fst := by
  rw [map_stableSort _ before fun _ _ _ _ => rfl, List.zipIdx_map_fst]

theorem stableSort_stableSort (h : StrictWeak before) (h' : StrictWeak other) (items : List α) :
    stableSort before (stableSort other items) = stableSort (thenBy before other) items := by
  rw [stableSort_eq_map_zipIdx other, stableSort_eq_map_zipIdx (thenBy before other),
    ← map_stableSort (fun x y => before x.1 y.1) before fun _ _ _ _ => rfl]
  congr 1
  -- with their places, the items can be in order in one way only
  have hplaces := pairwise_zipIdx items
  have hfirst := (h.comap Prod.fst).pairwise_stableSort
    ((h'.comap Prod.fst).pairwise_stableSort hplaces)
  have hboth := ((h.thenBy h').comap Prod.fst).pairwise_stableSort hplaces
  refine eq_of_inPlace (R := InPlace (fun x y => other x.1 y.1) fun x y => x.2 < y.2) ?_ ?_
    hfirst (hboth.imp fun {x y} hxy => ?_)
  · intro x y hxy hyx
    exact absurd (hxy.2 hyx.1) (by have := hyx.2 hxy.1; omega)
  · exact ((stableSort_perm _ _).trans (stableSort_perm _ _)).trans (stableSort_perm _ _).symm
  · have hle := hxy.1
    have hlt := hxy.2
    simp only [thenBy, Bool.or_eq_false_iff, Bool.and_eq_false_iff, Bool.not_eq_false'] at hle hlt
    refine ⟨hle.1, fun hxy' => ⟨hle.2.resolve_left (by simp [hxy']), fun hother => ?_⟩⟩
    exact hlt ⟨hxy', .inr hother⟩

theorem reverse_stableSort_reverse (h : StrictWeak before) (items : List α) :
    (stableSort before items.reverse).reverse = stableSort (fun a b => before b a) items := by
  have htagged : stableSort before items.reverse =
      (stableSort (fun x y => before x.1 y.1) items.zipIdx.reverse).map Prod.fst := by
    rw [map_stableSort _ before fun _ _ _ _ => rfl, List.map_reverse,
      List.zipIdx_map_fst]
  rw [htagged, stableSort_eq_map_zipIdx (fun a b => before b a), ← List.map_reverse]
  congr 1
  have hplaces := pairwise_zipIdx items
  have hback : items.zipIdx.reverse.Pairwise fun x y => y.2 < x.2 := List.pairwise_reverse.2 hplaces
  have hsorted := (h.comap Prod.fst).pairwise_stableSort hback
  have hflipped := (h.flip.comap Prod.fst).pairwise_stableSort hplaces
  refine eq_of_inPlace (R := fun x y => x.2 < y.2) (fun hxy hyx => by omega) ?_
    (List.pairwise_reverse.2 hsorted) hflipped
  refine (List.reverse_perm _).trans ((stableSort_perm _ _).trans ?_)
  exact (List.reverse_perm _).trans (stableSort_perm _ _).symm

/-- What is left of sorted items is what is left of the items, sorted. -/
theorem filterMap_stableSort (h : StrictWeak before) {below : β → β → Bool}
    (h' : StrictWeak below) {f : α → Option β}
    (hf : ∀ {a b a' b'}, f a = some a' → f b = some b' → below a' b' = before a b)
    (items : List α) :
    (stableSort before items).filterMap f = stableSort below (items.filterMap f) := by
  have htagged (ms : List (α × Nat)) : (ms.map Prod.fst).filterMap f =
      (ms.filterMap fun m => (f m.1).map fun b => (b, m.2)).map Prod.fst := by
    rw [List.filterMap_map, List.map_filterMap]
    exact List.filterMap_congr fun m _ => by simp [Function.comp_def]
  have hitems : items.filterMap f =
      (items.zipIdx.filterMap fun m => (f m.1).map fun b => (b, m.2)).map Prod.fst := by
    rw [← htagged, List.zipIdx_map_fst]
  rw [stableSort_eq_map_zipIdx, htagged, hitems,
    ← map_stableSort (fun x y => below x.1 y.1) below fun _ _ _ _ => rfl]
  congr 1
  -- with their places, what is left can be in order in one way only
  have hplaces := pairwise_zipIdx items
  have hfirst : ((stableSort (fun x y => before x.1 y.1) items.zipIdx).filterMap
      fun m => (f m.1).map fun b => (b, m.2)).Pairwise
        (InPlace (fun x y => below x.1 y.1) fun x y => x.2 < y.2) := by
    refine ((h.comap Prod.fst).pairwise_stableSort hplaces).filterMap _ ?_
    intro m n hmn x hx y hy
    obtain ⟨a, ha, rfl⟩ := Option.map_eq_some_iff.1 hx
    obtain ⟨b, hb, rfl⟩ := Option.map_eq_some_iff.1 hy
    exact ⟨(hf hb ha).trans hmn.1, fun hab => hmn.2 ((hf ha hb).symm.trans hab)⟩
  have hlast : (items.zipIdx.filterMap fun m => (f m.1).map fun b => (b, m.2)).Pairwise
      fun x y => x.2 < y.2 := by
    refine hplaces.filterMap _ ?_
    intro m n hmn x hx y hy
    obtain ⟨a, _, rfl⟩ := Option.map_eq_some_iff.1 hx
    obtain ⟨b, _, rfl⟩ := Option.map_eq_some_iff.1 hy
    exact hmn
  refine eq_of_inPlace (fun hxy hyx => by omega) ?_ hfirst
    ((h'.comap Prod.fst).pairwise_stableSort hlast)
  exact ((stableSort_perm _ _).filterMap _).trans (stableSort_perm _ _).symm

end Stable

end Tabula
