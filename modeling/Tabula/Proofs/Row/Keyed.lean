import Tabula.Proofs.Result
import Tabula.Proofs.Row.Division
import Tabula.Proofs.Value.Standing

/-!
Sorting by keys. Whatever the keys are, a sort only rearranges the items, and it succeeds if and
only if any two of the keys can be ordered together, since nulls gather at one end and two
neighbours that are no nulls have been compared. If moreover every key is equal to itself, the
outcome is the one stable order.
-/

namespace Tabula

/-! ### Keys -/

theorem keyBefore_of_comparable {nullsFirst : Bool} {a b : Value} (ha : a.Supported)
    (hb : b.Supported) (h : a.Comparable b) : ∃ c, keyBefore nullsFirst a b = .ok c := by
  unfold keyBefore
  split
  · exact ⟨_, rfl⟩
  · exact ⟨_, rfl⟩
  · exact ⟨_, rfl⟩
  · rename_i hna hnb
    split
    · exact ⟨_, rfl⟩
    · rcases h with rfl | rfl | h
      · cases hna
      · cases hnb
      · exact h

/-- Equal values of one kind can be ordered together. -/
theorem comparable_of_keyBefore {nullsFirst c : Bool} {a b : Value} (ha : a.Supported)
    (hb : b.Supported) (h : keyBefore nullsFirst a b = .ok c) : a.Comparable b := by
  unfold keyBefore at h
  split at h
  · rename_i hna _
    exact .inl (Value.isNull_eq_true.1 hna)
  · rename_i hna _
    exact .inl (Value.isNull_eq_true.1 hna)
  · rename_i _ hnb
    exact .inr (.inl (Value.isNull_eq_true.1 hnb))
  · split at h
    · rename_i hsame
      rw [Value.comparable_iff ha hb]
      rcases ha.cases with rfl | ⟨s, rfl⟩ | ha'
      · exact .inl rfl
      · rcases hb.cases with rfl | ⟨t, rfl⟩ | hb'
        · exact .inr (.inl rfl)
        · exact .inr (.inr rfl)
        · rw [Value.same_of_isNumeric (.inr hb'), Value.place?_of_not_isNumeric rfl] at hsame
          cases hsame
      · rcases hb.cases with rfl | ⟨t, rfl⟩ | hb'
        · exact .inr (.inl rfl)
        · rw [Value.same_of_isNumeric (.inl ha'),
            Value.place?_of_not_isNumeric (v := .str t) rfl] at hsame
          split at hsame <;> simp_all
        · exact .inr (.inr (ha'.trans hb'.symm))
    · exact .inr (.inr ⟨c, h⟩)

/-- Of two neighbours, the first is not from the end of the line that nulls or other values have
given up already, and they can be ordered together. -/
structure Follows (nullsFirst : Bool) (a b : Value) : Prop where
  left : a.Supported
  right : b.Supported
  nulls : a.isNull = !nullsFirst → b.isNull = !nullsFirst
  comparable : a.Comparable b

theorem Follows.trans {nullsFirst : Bool} {a b c : Value} (hab : Follows nullsFirst a b)
    (hbc : Follows nullsFirst b c) : Follows nullsFirst a c := by
  refine ⟨hab.left, hbc.right, hbc.nulls ∘ hab.nulls, ?_⟩
  rw [Value.comparable_iff hab.left hbc.right]
  have h := (Value.comparable_iff hab.left hab.right).1 hab.comparable
  have h' := (Value.comparable_iff hbc.left hbc.right).1 hbc.comparable
  by_cases ha : a = .null
  · exact .inl ha
  by_cases hc : c = .null
  · exact .inr (.inl hc)
  -- a null between two other values would stand at the wrong end
  have hb : b ≠ .null := by
    rintro rfl
    have hna : a.isNull = false := by rwa [Bool.eq_false_iff, ne_eq, Value.isNull_eq_true]
    have hnc : c.isNull = false := by rwa [Bool.eq_false_iff, ne_eq, Value.isNull_eq_true]
    have hleft := hab.nulls
    have hright := hbc.nulls
    cases nullsFirst <;> simp_all [Value.isNull]
  refine .inr (.inr ?_)
  exact ((h.resolve_left ha).resolve_left hb).trans ((h'.resolve_left hb).resolve_left hc)

theorem follows_of_linked {nullsFirst : Bool} {a b : Value} (ha : a.Supported) (hb : b.Supported)
    (h : Linked (keyBefore nullsFirst) a b) : Follows nullsFirst a b := by
  refine ⟨ha, hb, ?_, ?_⟩
  · intro hna
    by_contra hnb
    have hnb' : b.isNull = nullsFirst := by simpa using hnb
    rcases h with h | h <;> cases nullsFirst <;> simp [keyBefore, hna, hnb'] at h
  · rcases h with h | h
    · exact comparable_of_keyBefore ha hb h
    · exact (Value.comparable_comm hb ha).1 (comparable_of_keyBefore hb ha h)

section Keyed

variable {α : Type} {nullsFirst descending : Bool} {items out : List (Value × α)}

/-- Any two of the keys can be ordered together. -/
def KeysComparable (items : List (Value × α)) : Prop :=
  ∀ x ∈ items, ∀ y ∈ items, x.1.Comparable y.1

theorem KeysComparable.of_perm {items' : List (Value × α)} (h : KeysComparable items)
    (hperm : items.Perm items') : KeysComparable items' :=
  fun x hx y hy => h x (hperm.mem_iff.2 hx) y (hperm.mem_iff.2 hy)

/-- Keys that are all texts, or all numbers with a place, can be ordered together. -/
theorem keysComparable_of_inOneOrder (hs : ∀ x ∈ items, x.1.Supported)
    (h : inOneOrder (items.map Prod.fst) = true) : KeysComparable items := by
  intro x hx y hy
  rw [Value.comparable_iff (hs x hx) (hs y hy)]
  by_cases hxn : x.1 = .null
  · exact .inl hxn
  by_cases hyn : y.1 = .null
  · exact .inr (.inl hyn)
  have hpresent {z : Value × α} (hz : z ∈ items) (hzn : z.1 ≠ .null) :
      z.1 ∈ (items.map Prod.fst).filter fun v => !v.isNull := by
    rw [List.mem_filter, Bool.not_eq_true', Bool.eq_false_iff, ne_eq, Value.isNull_eq_true]
    exact ⟨List.mem_map_of_mem hz, hzn⟩
  simp only [inOneOrder, Bool.or_eq_true, List.all_eq_true, decide_eq_true_eq] at h
  have hnumeric {v : Value} (hv : v.place?.isSome = true) : v.isNumeric = true := by
    by_contra hne
    rw [Value.place?_of_not_isNumeric ((Bool.not_eq_true _).mp hne)] at hv
    cases hv
  have htext {v : Value} (hv : v.kind = .string) : v.isNumeric = false := by
    cases v <;> simp_all [Value.kind, Value.isNumeric]
  rcases h with h | h
  · exact .inr (.inr ((htext (h _ (hpresent hx hxn))).trans (htext (h _ (hpresent hy hyn))).symm))
  · exact .inr (.inr ((hnumeric (h _ (hpresent hx hxn))).trans
      (hnumeric (h _ (hpresent hy hyn))).symm))

/-- In a list that is sorted by runs, every key follows those further up: neighbours follow each
other, and following is transitive. -/
theorem ends_sortByRuns_keys (nullsFirst : Bool) (items : List (Value × α))
    (hs : ∀ x ∈ items, x.1.Supported) :
    Ends (FaultAmong (fun a b => keyBefore nullsFirst a.1 b.1) (· ∈ items))
      (fun out => out.Pairwise (fun x y => Follows nullsFirst x.1 y.1) ∧ out.Perm items)
      (sortByRuns (fun a b => keyBefore nullsFirst a.1 b.1) items) := by
  refine (ends_sortByRuns _ items).mono fun out hout => ⟨?_, hout.2⟩
  have hs' : ∀ x ∈ out, x.1.Supported := fun x hx => hs x (hout.2.subset hx)
  have hfollows : out.IsChain fun x y => Follows nullsFirst x.1 y.1 :=
    hout.1.imp_of_mem_imp fun x y hx hy h => follows_of_linked (hs' x hx) (hs' y hy) h
  have htrans : Trans (fun x y : Value × α => Follows nullsFirst x.1 y.1)
      (fun x y : Value × α => Follows nullsFirst x.1 y.1)
      (fun x y : Value × α => Follows nullsFirst x.1 y.1) := ⟨Follows.trans⟩
  exact List.isChain_iff_pairwise.1 hfollows

theorem ends_sortKeyed (nullsFirst : Bool) (items : List (Value × α))
    (hs : ∀ x ∈ items, x.1.Supported) :
    Ends (FaultAmong (fun a b => keyBefore nullsFirst a.1 b.1) (· ∈ items))
      (fun out => KeysComparable items ∧ out.Perm items) (sortKeyed nullsFirst items) := by
  unfold sortKeyed
  dsimp only
  split
  · rename_i h
    exact ⟨keysComparable_of_inOneOrder hs h, List.mergeSort_perm _ _⟩
  · refine (ends_sortByRuns_keys nullsFirst items hs).mono fun out hout => ⟨?_, hout.2⟩
    have hall : KeysComparable out := by
      refine List.Pairwise.forall_of_forall_of_flip
        (R := fun x y : Value × α => x.1.Comparable y.1) ?_ ?_ ?_
      · intro x hx
        have hx' := hs x (hout.2.subset hx)
        exact (Value.comparable_iff hx' hx').2 (.inr (.inr rfl))
      · exact hout.1.imp fun h => h.comparable
      · exact hout.1.imp fun h => (Value.comparable_comm h.left h.right).1 h.comparable
    exact hall.of_perm hout.2

theorem sortKeyed_ok (hs : ∀ x ∈ items, x.1.Supported) (h : KeysComparable items) :
    ∃ out, sortKeyed nullsFirst items = .ok out := by
  have hends := ends_sortKeyed nullsFirst items hs
  cases hsort : sortKeyed nullsFirst items with
  | ok out => exact ⟨out, rfl⟩
  | error e =>
      rw [hsort] at hends
      -- a failure is one of comparing two keys, but any two can be compared
      obtain ⟨x, y, hx, hy, he⟩ := hends
      obtain ⟨c, hc⟩ : ∃ c, keyBefore nullsFirst x.1 y.1 = .ok c :=
        keyBefore_of_comparable (hs x hx) (hs y hy) (h x hx y hy)
      exact absurd (he.symm.trans hc) (by simp)

theorem sortDirected_eq_ok : sortDirected descending items = .ok out ↔
    if descending then sortKeyed true items.reverse = .ok out.reverse
    else sortKeyed false items = .ok out := by
  unfold sortDirected
  split
  · cases sortKeyed true items.reverse with
    | error e => simp [bind, Except.bind]
    | ok sorted =>
        simp only [bind, Except.bind, pure, Except.pure, Except.ok.injEq]
        exact List.reverse_eq_iff
  · rfl

theorem sortDirected_perm (h : sortDirected descending items = .ok out)
    (hs : ∀ x ∈ items, x.1.Supported) : KeysComparable items ∧ out.Perm items := by
  rw [sortDirected_eq_ok] at h
  split at h
  · have hs' : ∀ x ∈ items.reverse, x.1.Supported := fun x hx => hs x (List.mem_reverse.1 hx)
    have hends := ends_sortKeyed true items.reverse hs'
    rw [h] at hends
    refine ⟨hends.1.of_perm (List.reverse_perm _), ?_⟩
    exact (List.reverse_perm out).symm.trans (hends.2.trans (List.reverse_perm _))
  · have hends := ends_sortKeyed false items hs
    rw [h] at hends
    exact hends

theorem sortDirected_ok (hs : ∀ x ∈ items, x.1.Supported) (h : KeysComparable items) :
    ∃ out, sortDirected descending items = .ok out := by
  cases descending with
  | false => exact sortKeyed_ok hs h
  | true =>
      have hs' : ∀ x ∈ items.reverse, x.1.Supported := fun x hx => hs x (List.mem_reverse.1 hx)
      obtain ⟨out, hout⟩ : ∃ out, sortKeyed true items.reverse = .ok out :=
        sortKeyed_ok hs' (h.of_perm (List.reverse_perm _).symm)
      exact ⟨out.reverse, sortDirected_eq_ok.2 (by simpa using hout)⟩

/-! ### Keys that are equal to themselves -/

theorem inOneOrder_of_comparable (hplain : ∀ x ∈ items, x.1.Plain) (h : KeysComparable items) :
    inOneOrder (items.map Prod.fst) = true := by
  simp only [inOneOrder, Bool.or_eq_true, List.all_eq_true, decide_eq_true_eq, List.mem_filter,
    List.mem_map, Bool.not_eq_true', Bool.eq_false_iff, ne_eq, Value.isNull_eq_true]
  -- a number among the keys decides that all of them are numbers
  by_cases hnumber : ∃ x ∈ items, x.1.isNumeric = true
  · obtain ⟨x, hx, hxn⟩ := hnumber
    right
    rintro _ ⟨⟨y, hy, rfl⟩, hyn⟩
    have hxy := (Value.comparable_iff (hplain x hx).supported (hplain y hy).supported).1
      (h x hx y hy)
    have hxnull : x.1 ≠ .null := fun hn => by rw [hn] at hxn; cases hxn
    have hyn' := ((hxy.resolve_left hxnull).resolve_left hyn).symm.trans hxn
    obtain ⟨p, hp⟩ := (hplain y hy).place? hyn'
    rw [hp]
    rfl
  · left
    rintro _ ⟨⟨y, hy, rfl⟩, hyn⟩
    rcases (hplain y hy).supported.cases with hn | ⟨s, hs⟩ | hy'
    · exact absurd hn hyn
    · rw [hs]
      rfl
    · exact absurd ⟨y, hy, hy'⟩ hnumber

theorem keyBefore_of_standing {a b : Value} {p q : Standing} (ha : a.Plain) (hb : b.Plain)
    (h : a.Comparable b) (hp : a.standing? = some p) (hq : b.standing? = some q) :
    keyBefore nullsFirst a b = .ok (p.lt q) := by
  have hna : a ≠ .null := fun hn => by rw [ha.standing?_eq_none.2 hn] at hp; cases hp
  have hnb : b ≠ .null := fun hn => by rw [hb.standing?_eq_none.2 hn] at hq; cases hq
  have hna' : a.isNull = false := by rwa [Bool.eq_false_iff, ne_eq, Value.isNull_eq_true]
  have hnb' : b.isNull = false := by rwa [Bool.eq_false_iff, ne_eq, Value.isNull_eq_true]
  simp only [keyBefore, hna', hnb']
  split
  · rename_i hsame
    have heq := (Value.same_iff ha hb).1 hsame
    rw [hp, hq, Option.some.injEq] at heq
    rw [heq, Standing.lt_irrefl]
  · obtain ⟨c, hc⟩ := (h.resolve_left hna).resolve_left hnb
    rw [hc, ← Value.isBelow_eq ha hb h hp hq, Value.isBelow_of_compare hc]

/-- The order of a sort that is turned round for a descending term. -/
theorem keyBefore_eq_isAhead (t : OrderTerm) {a b : Value} (ha : a.Plain) (hb : b.Plain)
    (h : a.Comparable b) :
    (if t.descending then keyBefore true b a else keyBefore false a b) =
      .ok (t.isAhead a.standing? b.standing?) := by
  cases hp : a.standing? with
  | none =>
      rw [ha.standing?_eq_none.1 hp]
      cases b <;> simp [keyBefore, Value.isNull, OrderTerm.isAhead]
  | some p =>
      cases hq : b.standing? with
      | none =>
          rw [hb.standing?_eq_none.1 hq]
          rw [hb.standing?_eq_none.1 hq] at h
          have hna : a.isNull = false := by
            rw [Bool.eq_false_iff, ne_eq, Value.isNull_eq_true]
            exact fun hn => by rw [ha.standing?_eq_none.2 hn] at hp; cases hp
          have hnull : Value.isNull .null = true := rfl
          simp [keyBefore, hna, hnull, OrderTerm.isAhead]
      | some q =>
          have h' := (Value.comparable_comm ha.supported hb.supported).1 h
          rw [keyBefore_of_standing ha hb h hp hq, keyBefore_of_standing hb ha h' hq hp]
          simp only [OrderTerm.isAhead]
          split <;> rfl

theorem sortKeyed_eq {before : Value × α → Value × α → Bool}
    (hone : inOneOrder (items.map Prod.fst) = true)
    (h : ∀ x ∈ items, ∀ y ∈ items, keyBefore nullsFirst x.1 y.1 = .ok (before x y)) :
    sortKeyed nullsFirst items = .ok (stableSort before items) := by
  rw [sortKeyed, if_pos hone]
  refine congrArg Except.ok (stableSort_congr fun x hx y hy => ?_)
  dsimp only
  rw [h x hx y hy]
  cases before x y <;> rfl

theorem sortDirected_eq (t : OrderTerm) (hplain : ∀ x ∈ items, x.1.Plain)
    (h : KeysComparable items) :
    sortDirected t.descending items =
      .ok (stableSort (fun x y => t.isAhead x.1.standing? y.1.standing?) items) := by
  have hone := inOneOrder_of_comparable hplain h
  have hkeys := fun x hx y hy =>
    keyBefore_eq_isAhead t (hplain x hx) (hplain y hy) (h x hx y hy)
  rw [sortDirected_eq_ok]
  split
  · rename_i hdesc
    simp only [hdesc, if_true] at hkeys
    have hstable := reverse_stableSort_reverse
      (t.strictWeak_isAhead.flip.comap fun x : Value × α => x.1.standing?) items
    rw [← hstable, List.reverse_reverse]
    refine sortKeyed_eq ?_ fun x hx y hy => ?_
    · rw [List.map_reverse]
      simpa [inOneOrder, List.filter_reverse] using hone
    · exact hkeys y (List.mem_reverse.1 hy) x (List.mem_reverse.1 hx)
  · rename_i hasc
    simp only [hasc] at hkeys
    exact sortKeyed_eq hone hkeys

end Keyed

end Tabula
