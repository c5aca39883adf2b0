import Mathlib.Data.List.Perm.Basic
import Tabula.Row.Rank

/-!
Groups of items with the same key. If sameness of keys is an equality of what keys stand for, a
group holds all items that stand for one thing, in their order, and the groups come in the order in
which these things are first met.
-/

namespace Tabula

section Groups

variable {α κ : Type} [DecidableEq κ] {key : α → List Value} {standing : α → κ} {items : List α}

/-- Keys are the same if they stand for the same thing. -/
def KeysStand (key : α → List Value) (standing : α → κ) (items : List α) : Prop :=
  ∀ a ∈ items, ∀ b ∈ items,
    Value.sameItems (key a) (key b) = decide (standing a = standing b)

/-- Items under their keys. -/
def keyed (key : α → List Value) (items : List α) : List (List Value × α) :=
  items.map fun a => (key a, a)

theorem filter_keyed {p : List Value → Bool} :
    (keyed key items).filter (fun m => p m.1) = keyed key (items.filter fun a => p (key a)) := by
  simp [keyed, List.filter_map, Function.comp_def]

/-- The first group takes all items that stand for the same thing as the first one. -/
theorem groupsOf_keyed_cons {a : α} (h : KeysStand key standing (a :: items)) :
    groupsOf (keyed key (a :: items)) =
      (a :: items.filter fun b => standing b = standing a) ::
        groupsOf (keyed key (items.filter fun b => standing b ≠ standing a)) := by
  have hsame : ∀ b ∈ items,
      Value.sameItems (key a) (key b) = decide (standing b = standing a) := by
    intro b hb
    rw [h a (by simp) b (by simp [hb])]
    exact decide_eq_decide.2 eq_comm
  have hin : (items.filter fun b => Value.sameItems (key a) (key b)) =
      items.filter fun b => standing b = standing a := List.filter_congr hsame
  have hout : (items.filter fun b => !Value.sameItems (key a) (key b)) =
      items.filter fun b => standing b ≠ standing a :=
    List.filter_congr fun b hb => by simp [hsame b hb]
  have hcons : keyed key (a :: items) = (key a, a) :: keyed key items := rfl
  rw [hcons, groupsOf, filter_keyed, filter_keyed (p := fun k => !Value.sameItems (key a) k), hin,
    hout]
  simp [keyed, Function.comp_def]

theorem KeysStand.of_subset {items' : List α} (h : KeysStand key standing items)
    (hsub : ∀ a ∈ items', a ∈ items) : KeysStand key standing items' :=
  fun a ha b hb => h a (hsub a ha) b (hsub b hb)

/-- Induction along the groups: what is left when the first group is taken out. -/
theorem groups_induction (standing : α → κ) {motive : List α → Prop} (nil : motive [])
    (cons : ∀ a items, motive (items.filter fun b => standing b ≠ standing a) →
      motive (a :: items)) (items : List α) : motive items :=
  match items with
  | [] => nil
  | a :: items => cons a items (groups_induction standing nil cons _)
termination_by items.length
decreasing_by exact Nat.lt_succ_of_le (List.length_filter_le _ _)

theorem KeysStand.rest {a : α} (h : KeysStand key standing (a :: items)) :
    KeysStand key standing (items.filter fun b => standing b ≠ standing a) :=
  h.of_subset fun _ hb => List.mem_cons_of_mem a (List.mem_of_mem_filter hb)

theorem perm_flatten_groupsOf (h : KeysStand key standing items) :
    (groupsOf (keyed key items)).flatten.Perm items := by
  induction items using groups_induction standing with
  | nil => simp [keyed, groupsOf]
  | cons a items ih =>
      rw [groupsOf_keyed_cons h, List.flatten_cons, List.cons_append]
      refine ((ih h.rest).append_left _ |>.cons a).trans (.cons a ?_)
      have hsplit := List.filter_append_perm (fun b => decide (standing b = standing a)) items
      simpa [decide_not] using hsplit

/-- A group holds all items that stand for the same thing as any of its items. -/
theorem eq_filter_of_mem_groupsOf (h : KeysStand key standing items) :
    ∀ g ∈ groupsOf (keyed key items), ∀ a ∈ g,
      g = items.filter fun b => standing b = standing a := by
  induction items using groups_induction standing with
  | nil => simp [keyed, groupsOf]
  | cons a items ih =>
      rw [groupsOf_keyed_cons h, List.forall_mem_cons]
      constructor
      · intro b hb
        have hba : standing b = standing a := by
          rcases List.mem_cons.1 hb with rfl | hb
          · rfl
          · simpa using (List.mem_filter.1 hb).2
        rw [hba, List.filter_cons_of_pos (by simp)]
      · intro g hg b hb
        have hgroup := ih h.rest g hg b hb
        -- the group is made of what is left, so the items taken out before are not missed in it
        have hne : standing b ≠ standing a := by
          rw [hgroup] at hb
          simpa using (List.mem_filter.1 (List.mem_of_mem_filter hb)).2
        rw [hgroup, List.filter_cons_of_neg (by simpa using hne.symm), List.filter_filter]
        refine List.filter_congr fun c _ => ?_
        by_cases hc : standing c = standing b
        · simp [hc, hne]
        · simp [hc]

/-- What one group stands for was met before anything that a later group holds. -/
theorem pairwise_groupsOf {R : α → α → Prop} (h : KeysStand key standing items)
    (hR : items.Pairwise R) :
    (groupsOf (keyed key items)).Pairwise fun g g' => ∀ a ∈ g, ∀ b ∈ g',
      standing a ≠ standing b ∧ ∃ a' ∈ items, standing a' = standing a ∧
        ∀ b' ∈ items, standing b' = standing b → R a' b' := by
  induction items using groups_induction standing with
  | nil => simp [keyed, groupsOf]
  | cons a items ih =>
      rw [List.pairwise_cons] at hR
      have hlater {g : List α} (hg : g ∈ groupsOf (keyed key
          (items.filter fun b => standing b ≠ standing a))) {b : α} (hb : b ∈ g) :
          standing b ≠ standing a := by
        rw [eq_filter_of_mem_groupsOf h.rest g hg b hb] at hb
        simpa using (List.mem_filter.1 (List.mem_of_mem_filter hb)).2
      rw [groupsOf_keyed_cons h, List.pairwise_cons]
      constructor
      · intro g hg b hb c hc
        have hne := hlater hg hc
        have hba : standing b = standing a := by
          rcases List.mem_cons.1 hb with rfl | hb
          · rfl
          · simpa using (List.mem_filter.1 hb).2
        refine ⟨hba ▸ hne.symm, a, by simp, hba.symm, ?_⟩
        intro c' hc' heq
        rcases List.mem_cons.1 hc' with rfl | hc'
        · exact absurd heq.symm hne
        · exact hR.1 c' hc'
      · refine (ih h.rest (hR.2.filter _)).imp_of_mem ?_
        intro g g' _ hg' hpair b hb c hc
        obtain ⟨hne, b', hb', heq, hall⟩ := hpair b hb c hc
        refine ⟨hne, b', List.mem_cons_of_mem a (List.mem_of_mem_filter hb'), heq, ?_⟩
        intro c' hc' heq'
        refine hall c' ?_ heq'
        have hca : standing c' ≠ standing a := heq' ▸ hlater hg' hc
        rcases List.mem_cons.1 hc' with rfl | hc'
        · exact absurd rfl hca
        · exact List.mem_filter.2 ⟨hc', by simpa using hca⟩

/-- A group holds nothing else than items. -/
theorem exists_of_mem_groupsOf {α : Type} (items : List (List Value × α)) :
    ∀ g ∈ groupsOf items, ∀ a ∈ g, ∃ k, (k, a) ∈ items := by
  -- nothing is known of the keys here, so the recursion of the grouping itself is followed
  induction items using groupsOf.induct with
  | case1 => simp [groupsOf]
  | case2 k a rest ih =>
      simp only [List.unattach_filter, List.unattach_attach] at ih
      rw [groupsOf, List.forall_mem_cons]
      constructor
      · rw [List.forall_mem_cons]
        refine ⟨⟨k, List.mem_cons_self⟩, ?_⟩
        rw [List.forall_mem_map]
        exact fun m hm => ⟨m.1, List.mem_cons_of_mem _ (List.mem_of_mem_filter hm)⟩
      · intro g hg b hb
        obtain ⟨k', hk'⟩ := ih g hg b hb
        exact ⟨k', List.mem_cons_of_mem _ (List.mem_of_mem_filter hk')⟩

end Groups

end Tabula
