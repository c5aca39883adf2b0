import Mathlib.Data.Finset.Card
import Tabula.Proofs.Row.Sort

/-!
The running numbers of a sorted group, and counting. What stands further down in a sorted list is
never before an item, and what stands further up either is or is its peer. So the items counted are
all that were passed, once a peer of the one just passed has not come up, and the same ones as
before if it has.
-/

namespace Tabula

section Counting

variable {α κ : Type} [DecidableEq κ]

/-- The number of an item among others, found by counting: those before it, the places at which
these stand, or these and its peers that come first. -/
def Ranking.among (f : Ranking) (before first : α → α → Bool) (place : α → κ) (items : List α)
    (a : α) : Nat :=
  match f with
  | .rank => 1 + (items.filter fun b => before b a).length
  | .denseRank => 1 + ((items.filter fun b => before b a).map place).toFinset.card
  | .rowNumber => 1 + items.countP fun b => before b a || (!before a b && first b a)

variable {before first : α → α → Bool} {place : α → κ} {items items' : List α}

/-- The order in which items are met does not matter for counting. -/
theorem Ranking.among_perm (f : Ranking) (h : items.Perm items') (a : α) :
    f.among before first place items a = f.among before first place items' a := by
  cases f with
  | rowNumber => exact congrArg (1 + ·) (h.countP_eq _)
  | rank => exact congrArg (1 + ·) (h.filter _).length_eq
  | denseRank =>
      have hset := List.toFinset_eq_of_perm _ _ ((h.filter fun b => before b a).map place)
      exact congrArg (fun s : Finset κ => 1 + s.card) hset

/-- Things stand at the same place if they are peers. -/
def PlacesPeers (before : α → α → Bool) (place : α → κ) : Prop :=
  ∀ a b, place a = place b ↔ before a b = false ∧ before b a = false

section Sorted

variable {pre post : List α} {a p : α}

/-- A list in order, in which peers come in the order of `first`. -/
abbrev Sorted (before first : α → α → Bool) (items : List α) : Prop :=
  items.Pairwise (InPlace before fun x y => first x y = true)

/-- Only what stands further up can be before an item. -/
theorem filter_before_eq (h : StrictWeak before) (hs : Sorted before first (pre ++ a :: post)) :
    (pre ++ a :: post).filter (fun b => before b a) = pre.filter fun b => before b a := by
  have hafter := (List.pairwise_cons.1 (List.pairwise_append.1 hs).2.1).1
  have hpost : post.filter (fun b => before b a) = [] := by
    rw [List.filter_eq_nil_iff]
    intro b hb
    rw [(hafter b hb).1]
    exact Bool.false_ne_true
  rw [List.filter_append, List.filter_cons, h.irrefl, hpost]
  simp

/-- All that was passed is before an item that is no peer of the last. -/
theorem all_before_of_not_peer (h : StrictWeak before)
    (hs : Sorted before first (pre ++ [p] ++ a :: post)) (hpa : before p a = true) :
    ∀ b ∈ pre ++ [p], before b a = true := by
  have hpassed := (List.pairwise_append.1 (List.pairwise_append.1 hs).1).2.2
  intro b hb
  by_contra hne
  have hba := (Bool.not_eq_true _).mp hne
  have hpb : before p b = false := by
    rcases List.mem_append.1 hb with hb' | hb'
    · exact (hpassed b hb' p (by simp)).1
    · rw [List.mem_singleton.1 hb', h.irrefl]
  rw [h.negTrans hpb hba] at hpa
  cases hpa

/-- One more place comes up with an item that is no peer of the last. -/
theorem card_places_succ (hplace : PlacesPeers before place)
    (hs : Sorted before first (pre ++ [p])) :
    ((pre ++ [p]).map place).toFinset.card =
      ((pre.filter fun b => before b p).map place).toFinset.card + 1 := by
  have hset : ((pre ++ [p]).map place).toFinset =
      insert (place p) ((pre.filter fun b => before b p).map place).toFinset := by
    ext x
    simp only [List.map_append, List.map_cons, List.map_nil, List.mem_toFinset, List.mem_append,
      List.mem_map, List.mem_singleton, Finset.mem_insert, List.mem_filter]
    constructor
    · rintro (⟨b, hb, rfl⟩ | rfl)
      · cases hbp : before b p with
        | true => exact .inr ⟨b, ⟨hb, hbp⟩, rfl⟩
        | false =>
            have hpb := ((List.pairwise_append.1 hs).2.2 b hb p (by simp)).1
            exact .inl ((hplace b p).2 ⟨hbp, hpb⟩)
      · exact .inl rfl
    · rintro (rfl | ⟨b, hb, rfl⟩)
      · exact .inr rfl
      · exact .inl ⟨b, hb.1, rfl⟩
  -- what is before `p` stands elsewhere than `p`
  rw [hset, Finset.card_insert_of_notMem]
  simp only [List.mem_toFinset, List.mem_map, List.mem_filter, not_exists, not_and]
  intro b hb heq
  rw [((hplace b p).1 heq).1] at hb
  exact absurd hb.2 Bool.false_ne_true

/-- All that was passed comes first, and nothing else does. -/
theorem countP_first (h : StrictWeak before) (hfirst : ∀ x y, first x y = true → first y x = false)
    (hs : Sorted before first (pre ++ a :: post)) :
    ((pre ++ a :: post).countP fun b => before b a || (!before a b && first b a)) =
      pre.length := by
  obtain ⟨-, hrest, hcross⟩ := List.pairwise_append.1 hs
  have hafter := (List.pairwise_cons.1 hrest).1
  have hpre : (pre.countP fun b => before b a || (!before a b && first b a)) = pre.length := by
    rw [List.countP_eq_length]
    intro b hb
    have hba := hcross b hb a (by simp)
    rw [hba.1]
    cases hbefore : before b a with
    | true => rfl
    | false => simp [hba.2 hbefore]
  have hself : (before a a || (!before a a && first a a)) = false := by
    rw [h.irrefl]
    cases haa : first a a with
    | true => exact absurd haa (by simp [hfirst a a haa])
    | false => rfl
  have hpost : (post.countP fun b => before b a || (!before a b && first b a)) = 0 := by
    rw [List.countP_eq_zero]
    intro b hb
    have hab := hafter b hb
    rw [hab.1]
    cases hbefore : before a b with
    | true => simp
    | false => simp [hfirst a b (hab.2 hbefore)]
  rw [List.countP_append, List.countP_cons, hpre, hself, hpost]
  simp

theorem Ranking.among_first (f : Ranking) (h : StrictWeak before)
    (hfirst : ∀ x y, first x y = true → first y x = false)
    (hs : Sorted before first (a :: post)) :
    f.among before first place (a :: post) a = 1 := by
  have hs' : Sorted before first ([] ++ a :: post) := hs
  have hfilter := filter_before_eq h hs'
  have hcount := countP_first h hfirst hs'
  simp only [List.nil_append, List.filter_nil, List.length_nil] at hfilter hcount
  cases f with
  | rowNumber => exact congrArg (1 + ·) hcount
  | rank => simp only [among, hfilter, List.length_nil]
  | denseRank => simp only [among, hfilter, List.map_nil, List.toFinset_nil, Finset.card_empty]

/-- The number that runs along is the number that is counted. -/
theorem Ranking.number_eq_among (f : Ranking) (h : StrictWeak before)
    (hplace : PlacesPeers before place) (hfirst : ∀ x y, first x y = true → first y x = false)
    (hs : Sorted before first (pre ++ [p] ++ a :: post)) :
    f.number (pre ++ [p]).length (f.among before first place (pre ++ [p] ++ a :: post) p)
        (decide (place a = place p)) =
      f.among before first place (pre ++ [p] ++ a :: post) a := by
  have hcount := countP_first h hfirst hs
  have hfilter := filter_before_eq h hs
  have hs' : Sorted before first (pre ++ p :: a :: post) := by simpa using hs
  have hfilterLast := filter_before_eq h hs'
  rw [show pre ++ p :: a :: post = pre ++ [p] ++ a :: post by simp] at hfilterLast
  have hap := ((List.pairwise_append.1 hs).2.2 p (by simp) a (by simp)).1
  by_cases hpeer : place a = place p
  · -- a peer of the last item has the same items before it
    have hpa := ((hplace a p).1 hpeer).2
    have hsame : (fun b => before b a) = fun b => before b p :=
      funext fun b => h.eq_right hap hpa b
    cases f with
    | rowNumber => simp only [number, among, hcount, Nat.add_comm]
    | rank => simp only [number, among, hpeer, decide_true, if_true, hsame]
    | denseRank => simp only [number, among, hpeer, decide_true, if_true, hsame]
  · -- all that was passed is before it, at one place more than was before the last item
    have hpa : before p a = true := by
      by_contra hne
      exact hpeer ((hplace a p).2 ⟨hap, (Bool.not_eq_true _).mp hne⟩)
    have hall : (pre ++ [p]).filter (fun b => before b a) = pre ++ [p] :=
      List.filter_eq_self.2 (all_before_of_not_peer h hs hpa)
    have hcard := card_places_succ hplace (List.pairwise_append.1 hs).1
    cases f with
    | rowNumber => simp only [number, among, hcount, Nat.add_comm]
    | rank => simp only [number, among, hpeer, decide_false, Bool.false_eq_true, if_false,
        hfilter, hall, Nat.add_comm]
    | denseRank =>
        simp only [number, among, hpeer, decide_false, Bool.false_eq_true, if_false, hfilter, hall,
          hfilterLast, hcard]
        omega

/-- The numbers from some place in a sorted list on. -/
theorem Ranking.numbersFrom_eq (f : Ranking) (h : StrictWeak before)
    (hplace : PlacesPeers before place) (hfirst : ∀ x y, first x y = true → first y x = false)
    {key : α → List Value} (hs : Sorted before first (pre ++ [p] ++ post))
    (hkey : ∀ x ∈ pre ++ [p] ++ post, ∀ y ∈ pre ++ [p] ++ post,
      Value.sameItems (key x) (key y) = decide (place x = place y)) :
    f.numbersFrom (pre ++ [p]).length (f.among before first place (pre ++ [p] ++ post) p)
        (some (key p)) (post.map key) =
      post.map (f.among before first place (pre ++ [p] ++ post)) := by
  induction post generalizing pre p with
  | nil => rfl
  | cons a post ih =>
      have hnumber := f.number_eq_among h hplace hfirst hs
      have hpeer := hkey a (by simp) p (by simp)
      have hsplit : pre ++ [p] ++ a :: post = pre ++ [p] ++ [a] ++ post := by simp
      rw [hsplit] at hs hkey
      have hih := ih hs hkey
      rw [← hsplit, List.length_append, List.length_singleton] at hih
      simp only [List.map_cons, numbersFrom, hpeer, hnumber, hih]

/-- The numbers of a sorted list are those found by counting. -/
theorem Ranking.numbers_eq (f : Ranking) (h : StrictWeak before)
    (hplace : PlacesPeers before place) (hfirst : ∀ x y, first x y = true → first y x = false)
    (key : α → List Value) (hs : Sorted before first items)
    (hkey : ∀ x ∈ items, ∀ y ∈ items,
      Value.sameItems (key x) (key y) = decide (place x = place y)) :
    f.numbers (items.map key) = items.map (f.among before first place items) := by
  cases items with
  | nil => rfl
  | cons a post =>
      have hone : f.among before first place (a :: post) a = 1 := f.among_first h hfirst hs
      have hs' : Sorted before first ([] ++ [a] ++ post) := hs
      have hrest := f.numbersFrom_eq h hplace hfirst hs' hkey
      rw [List.nil_append, List.length_singleton, List.singleton_append, hone] at hrest
      have hnumber : f.number 0 0 false = 1 := by cases f <;> rfl
      simp only [numbers, List.map_cons, numbersFrom, hnumber, hone, hrest]

end Sorted

end Counting

end Tabula
