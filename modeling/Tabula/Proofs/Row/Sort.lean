import Tabula.Proofs.Row.Keyed

/-!
Sorting rows by the terms of an ordering. A sort of rows that have the columns succeeds if and only
if any two values of a column can be ordered together, and loses no row. Where the values are equal
to themselves, going through the terms from the last to the first is the stable sort by all of them.
So the rows come out in order, those that are equal as they were, or a column is mixed and none do.
-/

namespace Tabula

/-- The row has the column, and its value there has `P`. -/
def Row.Has (P : Value → Prop) (r : Row) (c : String) : Prop := ∃ v, r.get? c = some v ∧ P v

instance {P : Value → Prop} [DecidablePred P] (r : Row) (c : String) : Decidable (r.Has P c) :=
  match h : r.get? c with
  | some v => decidable_of_iff (P v) (by simp [Row.Has, h])
  | none => isFalse (by simp [Row.Has, h])

theorem Row.Has.get? {P : Value → Prop} {r : Row} {c : String} (h : r.Has P c) :
    r.get? c = some (r.getD c) := by
  obtain ⟨v, hv, _⟩ := h
  rw [Row.getD, hv, Option.getD_some]

theorem Row.Has.getD {P : Value → Prop} {r : Row} {c : String} (h : r.Has P c) : P (r.getD c) := by
  obtain ⟨v, hv, hP⟩ := h
  rw [Row.getD, hv, Option.getD_some]
  exact hP

theorem Row.Has.mono {P Q : Value → Prop} {r : Row} {c : String} (h : r.Has P c)
    (hPQ : ∀ v, P v → Q v) : r.Has Q c := by
  obtain ⟨v, hv, hP⟩ := h
  exact ⟨v, hv, hPQ v hP⟩

theorem Row.Has.plain {r : Row} {c : String} (h : r.Has Value.Supported c)
    (hn : (r.getD c).isNaN = false) : r.Has Value.Plain c :=
  ⟨r.getD c, h.get?, h.getD, hn⟩

/-- Any two of the values in a column can be ordered together. -/
def ComparableIn (rows : List Row) (c : String) : Prop :=
  ∀ r ∈ rows, ∀ s ∈ rows, (r.getD c).Comparable (s.getD c)

theorem ComparableIn.of_subset {rows rows' : List Row} {c : String} (h : ComparableIn rows c)
    (hsub : ∀ r ∈ rows', r ∈ rows) : ComparableIn rows' c :=
  fun r hr s hs => h r (hsub r hr) s (hsub s hs)

/-- Whether a row is before another one by where their values stand, the first term that tells them
apart deciding. -/
def Row.isAhead : List OrderTerm → Row → Row → Bool
  | [] => fun _ _ => false
  | t :: terms =>
      thenBy (fun r s => t.isAhead (r.getD t.column).standing? (s.getD t.column).standing?)
        (isAhead terms)

theorem Row.strictWeak_isAhead (terms : List OrderTerm) : StrictWeak (isAhead terms) := by
  induction terms with
  | nil => exact ⟨fun _ => rfl, fun _ _ => rfl⟩
  | cons t terms ih => exact (t.strictWeak_isAhead.comap _).thenBy ih

/-- Rows that no term tells apart stand in the same places. -/
theorem Row.standing?_eq_of_not_isAhead {terms : List OrderTerm} {r s : Row}
    (hrs : isAhead terms r s = false) (hsr : isAhead terms s r = false) :
    ∀ t ∈ terms, (r.getD t.column).standing? = (s.getD t.column).standing? := by
  induction terms with
  | nil => simp
  | cons t terms ih =>
      simp only [isAhead, thenBy, Bool.or_eq_false_iff, Bool.and_eq_false_iff,
        Bool.not_eq_false'] at hrs hsr
      rw [List.forall_mem_cons]
      refine ⟨t.eq_of_not_isAhead hrs.1 hsr.1, ih ?_ ?_⟩
      · exact hrs.2.resolve_left (by simp [hsr.1])
      · exact hsr.2.resolve_left (by simp [hrs.1])

theorem Row.isAhead_congr {terms : List OrderTerm} {r r' s s' : Row}
    (hr : ∀ t ∈ terms, (r.getD t.column).standing? = (r'.getD t.column).standing?)
    (hs : ∀ t ∈ terms, (s.getD t.column).standing? = (s'.getD t.column).standing?) :
    isAhead terms r s = isAhead terms r' s' := by
  induction terms with
  | nil => rfl
  | cons t terms ih =>
      rw [List.forall_mem_cons] at hr hs
      simp only [isAhead, thenBy, hr.1, hs.1, ih hr.2 hs.2]

theorem precedes_eq_isAhead {terms : List OrderTerm} {r s : Row}
    (hr : ∀ t ∈ terms, (r.getD t.column).Plain) (hs : ∀ t ∈ terms, (s.getD t.column).Plain)
    (h : ∀ t ∈ terms, (r.getD t.column).Comparable (s.getD t.column)) :
    precedes terms r s = Row.isAhead terms r s := by
  induction terms with
  | nil => rfl
  | cons t terms ih =>
      rw [List.forall_mem_cons] at hr hs h
      have h' := (Value.comparable_comm hr.1.supported hs.1.supported).1 h.1
      simp only [precedes, Row.isAhead, thenBy, t.isBefore_eq hr.1 hs.1 h.1,
        t.isBefore_eq hs.1 hr.1 h', ih hr.2 hs.2 h.2]

section Items

variable {α : Type} {rowOf : α → Row} {terms : List OrderTerm} {items out : List α}

/-- An item with its key in a column. -/
def withKey (rowOf : α → Row) (c : String) (a : α) : Except SortFault (Value × α) :=
  match (rowOf a).get? c with
  | some key => .ok (key, a)
  | none => .error (.noColumn c)

theorem mapM_withKey {P : Value → Prop} {c : String} (h : ∀ a ∈ items, (rowOf a).Has P c) :
    items.mapM (withKey rowOf c) = .ok (items.map fun a => ((rowOf a).getD c, a)) :=
  mapM_eq_ok_map fun a ha => by rw [withKey, (h a ha).get?]

theorem sortItems_cons (t : OrderTerm) :
    sortItems rowOf (t :: terms) items = (do
      let items' ← sortItems rowOf terms items
      let keyed ← items'.mapM (withKey rowOf t.column)
      let sorted ← (sortDirected t.descending keyed).mapError (.clash t.column)
      return sorted.map Prod.snd) := rfl

/-- A sort by terms sorts by the first of them last. -/
theorem sortItems_cons_eq_ok {t : OrderTerm}
    (h : ∀ items', sortItems rowOf terms items = .ok items' →
      ∀ a ∈ items', (rowOf a).Has Value.Supported t.column) :
    sortItems rowOf (t :: terms) items = .ok out ↔
      ∃ items' sorted, sortItems rowOf terms items = .ok items' ∧
        sortDirected t.descending (items'.map fun a => ((rowOf a).getD t.column, a)) = .ok sorted ∧
          out = sorted.map Prod.snd := by
  simp only [sortItems_cons, bind_eq_ok, mapError_eq_ok, pure_eq_ok]
  constructor
  · rintro ⟨items', hsort, keyed, hkeyed, sorted, hdirected, rfl⟩
    rw [mapM_withKey (h items' hsort)] at hkeyed
    cases hkeyed
    exact ⟨items', sorted, hsort, hdirected, rfl⟩
  · rintro ⟨items', sorted, hsort, hdirected, rfl⟩
    exact ⟨items', hsort, _, mapM_withKey (h items' hsort), sorted, hdirected, rfl⟩

/-- A sort by keys that only rearranges the items with their keys only rearranges the items. -/
theorem map_snd_perm {items : List α} {keyOf : α → Value} {sorted : List (Value × α)}
    (h : sorted.Perm (items.map fun a => (keyOf a, a))) : (sorted.map Prod.snd).Perm items := by
  have hmap := h.map Prod.snd
  rwa [List.map_map, Function.comp_def, List.map_id'] at hmap

theorem ComparableIn.keys {items' : List α} {c : String} (h : ComparableIn (items.map rowOf) c)
    (hsub : ∀ a ∈ items', a ∈ items) :
    KeysComparable (items'.map fun a => ((rowOf a).getD c, a)) := by
  simp only [ComparableIn, List.forall_mem_map] at h
  simp only [KeysComparable, List.forall_mem_map]
  exact fun a ha b hb => h a (hsub a ha) b (hsub b hb)

theorem sortItems_perm (hs : ∀ t ∈ terms, ∀ a ∈ items, (rowOf a).Has Value.Supported t.column)
    (h : sortItems rowOf terms items = .ok out) :
    out.Perm items ∧ ∀ t ∈ terms, ComparableIn (items.map rowOf) t.column := by
  induction terms generalizing out with
  | nil =>
      cases h
      exact ⟨.refl _, by simp⟩
  | cons t terms ih =>
      rw [List.forall_mem_cons] at hs
      have hperm {items' : List α} (h' : sortItems rowOf terms items = .ok items') :=
        (ih hs.2 h').1
      rw [sortItems_cons_eq_ok fun items' h' a ha => hs.1 a ((hperm h').subset ha)] at h
      obtain ⟨items', sorted, h', hsorted, rfl⟩ := h
      have hkeys : ∀ x ∈ items'.map fun a => ((rowOf a).getD t.column, a), x.1.Supported := by
        rw [List.forall_mem_map]
        exact fun a ha => (hs.1 a ((hperm h').subset ha)).getD
      obtain ⟨hcomparable, hsortedPerm⟩ := sortDirected_perm hsorted hkeys
      constructor
      · exact (map_snd_perm hsortedPerm).trans (hperm h')
      · rw [List.forall_mem_cons]
        refine ⟨?_, (ih hs.2 h').2⟩
        simp only [ComparableIn, List.forall_mem_map]
        simp only [KeysComparable, List.forall_mem_map] at hcomparable
        intro a ha b hb
        exact hcomparable a ((hperm h').symm.subset ha) b ((hperm h').symm.subset hb)

/-- The sort met two values that have no order. -/
def SortFault.IsClash : SortFault → Prop
  | clash .. => True
  | noColumn _ => False

theorem ends_sortItems
    (hs : ∀ t ∈ terms, ∀ a ∈ items, (rowOf a).Has Value.Supported t.column) :
    Ends SortFault.IsClash (·.Perm items) (sortItems rowOf terms items) := by
  induction terms with
  | nil => exact .refl items
  | cons t terms ih =>
      rw [List.forall_mem_cons] at hs
      rw [sortItems_cons]
      refine (ih hs.2).bind fun items' hperm => ?_
      have hhas : ∀ a ∈ items', (rowOf a).Has Value.Supported t.column :=
        fun a ha => hs.1 a (hperm.subset ha)
      rw [mapM_withKey hhas]
      have hsorted : Ends SortFault.IsClash
          (·.Perm (items'.map fun a => ((rowOf a).getD t.column, a)))
          ((sortDirected t.descending (items'.map fun a =>
            ((rowOf a).getD t.column, a))).mapError (.clash t.column)) := by
        cases hdir : sortDirected t.descending
            (items'.map fun a => ((rowOf a).getD t.column, a)) with
        | error c => exact trivial
        | ok sorted =>
            -- no row lacks the column, so only a clash can end the sort
            exact (sortDirected_perm hdir
              (List.forall_mem_map.2 fun a ha => (hhas a ha).getD)).2
      exact hsorted.bind fun sorted hsortedPerm => .pure ((map_snd_perm hsortedPerm).trans hperm)

theorem sortItems_ok (hs : ∀ t ∈ terms, ∀ a ∈ items, (rowOf a).Has Value.Supported t.column)
    (hc : ∀ t ∈ terms, ComparableIn (items.map rowOf) t.column) :
    ∃ out, sortItems rowOf terms items = .ok out := by
  induction terms with
  | nil => exact ⟨items, rfl⟩
  | cons t terms ih =>
      rw [List.forall_mem_cons] at hs hc
      obtain ⟨items', h'⟩ := ih hs.2 hc.2
      have hperm := (sortItems_perm hs.2 h').1
      have hsub : ∀ a ∈ items', a ∈ items := fun a ha => hperm.subset ha
      obtain ⟨sorted, hsorted⟩ : ∃ sorted, sortDirected t.descending
          (items'.map fun a => ((rowOf a).getD t.column, a)) = .ok sorted :=
        sortDirected_ok (List.forall_mem_map.2 fun a ha => (hs.1 a (hsub a ha)).getD)
          (hc.1.keys hsub)
      refine ⟨sorted.map Prod.snd, (sortItems_cons_eq_ok ?_).2 ⟨items', sorted, h', hsorted, rfl⟩⟩
      intro items'' h'' a ha
      exact hs.1 a ((sortItems_perm hs.2 h'').1.subset ha)

/-- Rows with values that are equal to themselves and can be ordered together come out in the
stable order of the terms. -/
theorem sortItems_eq (hp : ∀ t ∈ terms, ∀ a ∈ items, (rowOf a).Has Value.Plain t.column)
    (hc : ∀ t ∈ terms, ComparableIn (items.map rowOf) t.column) :
    sortItems rowOf terms items =
      .ok (stableSort (fun a b => Row.isAhead terms (rowOf a) (rowOf b)) items) := by
  induction terms with
  | nil =>
      have hid : stableSort (fun _ _ : α => false) items = items :=
        List.mergeSort_of_pairwise (List.pairwise_of_forall fun _ _ => rfl)
      simp [sortItems, Row.isAhead, hid]
  | cons t terms ih =>
      rw [List.forall_mem_cons] at hp hc
      have hsub : ∀ a ∈ stableSort (fun a b => Row.isAhead terms (rowOf a) (rowOf b)) items,
          a ∈ items := fun a ha => (stableSort_perm _ items).subset ha
      have hdirected := sortDirected_eq t
        (List.forall_mem_map.2 fun a ha => (hp.1 a (hsub a ha)).getD) (hc.1.keys hsub)
      refine (sortItems_cons_eq_ok ?_).2 ⟨_, _, ih hp.2 hc.2, hdirected, ?_⟩
      · intro items' h' a ha
        rw [ih hp.2 hc.2, Except.ok.injEq] at h'
        exact (hp.1 a (hsub a (h' ▸ ha))).mono fun v hv => hv.supported
      · -- the sort by the first term after that by the others is the sort by all of them
        rw [map_stableSort (f := Prod.snd) _ (fun a b =>
          t.isAhead ((rowOf a).getD t.column).standing? ((rowOf b).getD t.column).standing?),
          List.map_map, Function.comp_def, List.map_id',
          stableSort_stableSort]
        · rfl
        · exact t.strictWeak_isAhead.comap fun a => ((rowOf a).getD t.column).standing?
        · exact (Row.strictWeak_isAhead terms).comap rowOf
        · simp only [List.forall_mem_map, implies_true]

/-- The sort in the words of the specification. -/
theorem sortItems_eq_inOrder (hp : ∀ t ∈ terms, ∀ a ∈ items, (rowOf a).Has Value.Plain t.column)
    (hc : ∀ t ∈ terms, ComparableIn (items.map rowOf) t.column) :
    sortItems rowOf terms items = .ok (inOrder rowOf terms items) := by
  rw [sortItems_eq hp hc]
  refine congrArg Except.ok (stableSort_congr fun a ha b hb => (precedes_eq_isAhead ?_ ?_ ?_).symm)
  · exact fun t ht => (hp t ht a ha).getD
  · exact fun t ht => (hp t ht b hb).getD
  · exact fun t ht => hc t ht _ (List.mem_map_of_mem ha) _ (List.mem_map_of_mem hb)

end Items

/-! ### Sorting or failing -/

/-- A column holds a text, and a value besides that is neither a text nor null. -/
def MixedIn (rows : List Row) (c : String) : Prop :=
  ∃ r ∈ rows, ∃ s ∈ rows,
    (r.getD c).kind = .string ∧ (s.getD c).kind ≠ .string ∧ (s.getD c).kind ≠ .null

theorem comparableIn_iff {rows : List Row} {c : String}
    (h : ∀ r ∈ rows, (r.getD c).Supported) : ComparableIn rows c ↔ ¬ MixedIn rows c := by
  have hnumeric {v : Value} (hv : v.Supported) (hnull : v ≠ .null) :
      v.isNumeric = true ↔ v.kind ≠ .string := by
    cases v <;> simp_all [Value.isNumeric, Value.kind, Value.Supported]
  constructor
  · rintro hcomparable ⟨r, hr, s, hs, htext, hother, hnull⟩
    have hrs := (Value.comparable_iff (h r hr) (h s hs)).1 (hcomparable r hr s hs)
    have hrn : r.getD c ≠ .null := fun hn => by rw [hn] at htext; cases htext
    have hsn : s.getD c ≠ .null := fun hn => hnull (Value.kind_eq_null.2 hn)
    have hsame := (hrs.resolve_left hrn).resolve_left hsn
    rw [(hnumeric (h s hs) hsn).2 hother] at hsame
    exact (hnumeric (h r hr) hrn).1 hsame htext
  · intro hmixed r hr s hs
    rw [Value.comparable_iff (h r hr) (h s hs)]
    by_cases hrn : r.getD c = .null
    · exact .inl hrn
    by_cases hsn : s.getD c = .null
    · exact .inr (.inl hsn)
    refine .inr (.inr (Bool.eq_iff_iff.2 ?_))
    rw [hnumeric (h r hr) hrn, hnumeric (h s hs) hsn, not_iff_not]
    -- one of two unlike values would be a text beside the other
    constructor
    · intro htext
      by_contra hother
      exact hmixed ⟨r, hr, s, hs, htext, hother, fun hn => hsn (Value.kind_eq_null.1 hn)⟩
    · intro htext
      by_contra hother
      exact hmixed ⟨s, hs, r, hr, htext, hother, fun hn => hrn (Value.kind_eq_null.1 hn)⟩

/-- Two rows of a sorted list, each with the place that it had before. The first is not after the
second, and if their values are equal in all columns of the ordering, it was further up already. -/
structure InSortedOrder (terms : List OrderTerm) (x y : Row × Nat) : Prop where
  order : precedes terms y.1 x.1 = false
  stable : (∀ t ∈ terms, (x.1.getD t.column).same (y.1.getD t.column) = true) → x.2 < y.2

/-- A sort fails if and only if a column of the ordering is mixed, whatever the other terms decide. -/
theorem failsAs_sortRows_iff {terms : List OrderTerm} {rows : List Row} (position : Option Int)
    (h : ∀ t ∈ terms, ∀ r ∈ rows, r.Has Value.Supported t.column) :
    FailsAs ((sortRows terms rows).mapError (·.at position)) .typeMismatch position ↔
      ∃ t ∈ terms, MixedIn rows t.column := by
  have hcomparable (t : OrderTerm) (ht : t ∈ terms) :
      ComparableIn (rows.map id) t.column ↔ ¬ MixedIn rows t.column := by
    rw [List.map_id, comparableIn_iff fun r hr => (h t ht r hr).getD]
  constructor
  · rintro ⟨cause, hfails, -⟩
    by_contra hnone
    have hsort : ∃ out, sortItems id terms rows = .ok out :=
      sortItems_ok h fun t ht => (hcomparable t ht).2 fun hmixed => hnone ⟨t, ht, hmixed⟩
    obtain ⟨out, hout⟩ := hsort
    rw [sortRows, hout] at hfails
    cases hfails
  · rintro ⟨t, ht, hmixed⟩
    have hends : Ends SortFault.IsClash (·.Perm rows) (sortItems id terms rows) :=
      ends_sortItems h
    rw [sortRows]
    cases hsort : sortItems id terms rows with
    | ok out => exact absurd hmixed ((hcomparable t ht).1 ((sortItems_perm h hsort).2 t ht))
    | error e =>
        rw [hsort] at hends
        cases e with
        | clash column c => exact ⟨_, rfl, rfl⟩
        | noColumn name => exact hends.elim

theorem sorted_of_inPlace {terms : List OrderTerm} {x y : Row × Nat}
    (hx : ∀ t ∈ terms, (x.1.getD t.column).Plain) (hy : ∀ t ∈ terms, (y.1.getD t.column).Plain)
    (h : ∀ t ∈ terms, (y.1.getD t.column).Comparable (x.1.getD t.column))
    (hxy : InPlace (fun x y => Row.isAhead terms x.1 y.1) (fun x y => x.2 < y.2) x y) :
    InSortedOrder terms x y := by
  refine ⟨(precedes_eq_isAhead hy hx h).trans hxy.1, fun hsame => hxy.2 ?_⟩
  have hstanding : ∀ t ∈ terms, (x.1.getD t.column).standing? = (y.1.getD t.column).standing? :=
    fun t ht => (Value.same_iff (hx t ht) (hy t ht)).1 (hsame t ht)
  calc Row.isAhead terms x.1 y.1 = Row.isAhead terms y.1 y.1 :=
        Row.isAhead_congr hstanding fun _ _ => rfl
    _ = false := (Row.strictWeak_isAhead terms).irrefl y.1

/-- Rows are sorted by the terms, stably and with nulls last, unless some column of the ordering
holds a text beside a number or a boolean: then the sort fails, whatever the other terms decide. -/
theorem sortRows_outcome (terms : List OrderTerm) (rows : List Row) (position : Option Int)
    (h : ∀ t ∈ terms, ∀ r ∈ rows, r.Has Value.Plain t.column) :
    (FailsAs ((sortRows terms rows).mapError (·.at position)) .typeMismatch position ↔
      ∃ t ∈ terms, MixedIn rows t.column) ∧
    ((¬ ∃ t ∈ terms, MixedIn rows t.column) → ∃ placed : List (Row × Nat),
      placed.Perm rows.zipIdx ∧ placed.Pairwise (InSortedOrder terms) ∧
        sortRows terms rows = .ok (placed.map Prod.fst)) := by
  refine ⟨failsAs_sortRows_iff position fun t ht r hr => (h t ht r hr).mono fun v hv => hv.supported,
    fun hnone => ?_⟩
  have hcomparable : ∀ t ∈ terms, ComparableIn rows t.column := fun t ht =>
    (comparableIn_iff fun r hr => (h t ht r hr).getD.supported).2 fun hmixed =>
      hnone ⟨t, ht, hmixed⟩
  have hperm := stableSort_perm (fun x y => Row.isAhead terms x.1 y.1) rows.zipIdx
  have hmem {x : Row × Nat}
      (hx : x ∈ stableSort (fun x y => Row.isAhead terms x.1 y.1) rows.zipIdx) : x.1 ∈ rows :=
    List.fst_mem_of_mem_zipIdx (hperm.subset hx)
  refine ⟨_, hperm, ?_, ?_⟩
  · -- with their places the rows stand in the stable order
    refine List.Pairwise.imp_of_mem (fun {x y} hx hy hxy => ?_)
      (((Row.strictWeak_isAhead terms).comap Prod.fst).pairwise_stableSort (pairwise_zipIdx rows))
    exact sorted_of_inPlace (fun t ht => (h t ht _ (hmem hx)).getD)
      (fun t ht => (h t ht _ (hmem hy)).getD)
      (fun t ht => hcomparable t ht _ (hmem hy) _ (hmem hx)) hxy
  · rw [← stableSort_eq_map_zipIdx (Row.isAhead terms)]
    exact sortItems_eq h (by simpa using hcomparable)

/-- A text in the second column clashes with a number although the first column decides, and without
it the rows are sorted. -/
theorem sortRows_outcome_clash :
    let terms : List OrderTerm := [⟨"points", true⟩, ⟨"team", false⟩]
    let rows : List Row := [⟨[("points", .int 1), ("team", .bool true)]⟩,
      ⟨[("points", .null), ("team", .float 0.5)]⟩]
    let mixed : List Row := ⟨[("points", .float 2.5), ("team", .str "a")]⟩ :: rows
    (∀ t ∈ terms, ∀ r ∈ mixed, r.Has Value.Plain t.column) ∧
      FailsAs ((sortRows terms mixed).mapError (·.at (some 3))) .typeMismatch (some 3) ∧
      ∃ placed : List (Row × Nat), placed.Perm rows.zipIdx ∧
        placed.Pairwise (InSortedOrder terms) ∧ sortRows terms rows = .ok (placed.map Prod.fst) := by
  intro terms rows mixed
  have hmixed : ∀ t ∈ terms, ∀ r ∈ mixed, r.Has Value.Plain t.column := by decide +kernel
  have hrows : ∀ t ∈ terms, ∀ r ∈ rows, r.Has Value.Plain t.column := by decide +kernel
  refine ⟨hmixed, ?_, ?_⟩
  · refine (sortRows_outcome terms mixed (some 3) hmixed).1.2 ⟨⟨"team", false⟩, by decide, ?_⟩
    exact ⟨_, List.mem_cons_self, _, List.mem_cons_of_mem _ List.mem_cons_self, by decide, by decide,
      by decide⟩
  · refine (sortRows_outcome terms rows none hrows).2 ?_
    unfold MixedIn
    decide +kernel

end Tabula
