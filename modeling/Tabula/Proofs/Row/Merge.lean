import Tabula.Proofs.Row.Runs

/-!
Merging runs. A merge puts items in the place between what stands in front of it and what stands
behind it. At every moment, what is merged so far goes on with either run up to what stands behind,
and the last item of the second run goes before the last item of the first. Every step of a merge,
by comparing or by searching, keeps this, so that the outcome fits between its neighbours.
-/

namespace Tabula

/-- A computation of the sort ends well from every number of wins. -/
def Sorting.Ends {ε β : Type} (E : ε → Prop) (Q : β → Prop) (m : Sorting ε β) : Prop :=
  ∀ n, Tabula.Ends E (fun p => Q p.1) (m.run n)

namespace Sorting.Ends

variable {ε β γ : Type} {E : ε → Prop} {Q : β → Prop} {R : γ → Prop}

theorem pure {b : β} (h : Q b) : Sorting.Ends E Q (Pure.pure b) := fun _ => h

theorem bind {m : Sorting ε β} {f : β → Sorting ε γ} (hm : Sorting.Ends E Q m)
    (hf : ∀ b, Q b → Sorting.Ends E R (f b)) : Sorting.Ends E R (m >>= f) := by
  intro n
  rw [StateT.run_bind]
  exact (hm n).bind fun p hp => hf p.1 hp p.2

theorem mono {Q' : β → Prop} {m : Sorting ε β} (hm : Sorting.Ends E Q m)
    (h : ∀ b, Q b → Q' b) : Sorting.Ends E Q' m := fun n => (hm n).mono fun p => h p.1

theorem weaken {E' : ε → Prop} {m : Sorting ε β} (hm : Sorting.Ends E Q m)
    (h : ∀ e, E e → E' e) : Sorting.Ends E' Q m := fun n => Tabula.Ends.weaken (hm n) h

theorem lift {x : Except ε β} (hx : Tabula.Ends E Q x) :
    Sorting.Ends E Q (monadLift x : Sorting ε β) := by
  intro n
  rw [StateT.run_monadLift]
  exact hx.bind fun b hb => .pure hb

theorem readWins : Sorting.Ends E (fun _ => True) (get : Sorting ε Nat) := fun _ => trivial

theorem updateWins (f : Nat → Nat) :
    Sorting.Ends E (fun _ => True) (modify f : Sorting ε PUnit) := fun _ => trivial

end Sorting.Ends

section Merge

variable {α ε : Type} {before : α → α → Except ε Bool} {P : α → Prop} {front behind : List α}

/-- One of two ways to go on with a run can be put before the other. -/
theorem IsRun.append_between {a b c : List α} (hb : IsRun before P (a ++ b))
    (hc : IsRun before P (a ++ c))
    (hlink : ∀ x ∈ b.getLast?, ∀ y ∈ c.head?, Linked before x y) :
    IsRun before P (a ++ b ++ c) := by
  rcases List.eq_nil_or_concat b with rfl | ⟨b', x, rfl⟩
  · simpa using hc
  · refine hb.append hc.right fun z hz y hy => ?_
    exact hlink z (by simpa using hz) y hy

namespace Merge

/-- What is merged so far goes on with both runs, and the second run ends before the first. -/
structure Sound (before : α → α → Except ε Bool) (P : α → Prop) (front behind : List α)
    (m : Merge α) : Prop where
  first : IsRun before P (front ++ m.merged.reverse ++ (m.first ++ behind))
  second : IsRun before P (front ++ m.merged.reverse ++ (m.second ++ behind))
  ends : ∀ y ∈ m.second.getLast?, ∀ x ∈ m.first.getLast?, Linked before y x

/-- All items of a merge. -/
def items (m : Merge α) : List α := m.merged.reverse ++ m.first ++ m.second

/-- The number of items that are not merged yet. -/
def left (m : Merge α) : Nat := m.first.length + m.second.length

/-- A merge after some more of its steps. -/
structure Continues (before : α → α → Except ε Bool) (P : α → Prop) (front behind : List α)
    (m m' : Merge α) : Prop where
  sound : m'.Sound before P front behind
  perm : m'.items.Perm m.items
  left_le : m'.left ≤ m.left
  stays : m.isOver = true → m'.isOver = true
  progress : m.isOver = false → m'.isOver = true ∨ m'.left < m.left

theorem getLast?_drop_mem {l : List α} {n : Nat} {x : α} (h : x ∈ (l.drop n).getLast?) :
    x ∈ l.getLast? := by
  rw [List.getLast?_drop] at h
  split at h
  · cases h
  · exact h

theorem eq_of_mem_take_one {l xs : List α} {x z : α} (h : l = x :: xs)
    (hz : z ∈ (l.take 1).getLast?) : z = x := by
  simpa [h, eq_comm] using hz

theorem items_takeFirst (m : Merge α) (count : Nat) : (m.takeFirst count).items = m.items := by
  simp [takeFirst, items]

theorem items_takeSecond (m : Merge α) (count : Nat) :
    (m.takeSecond count).items.Perm m.items := by
  have hcomm : (m.second.take count ++ m.first).Perm (m.first ++ m.second.take count) :=
    List.perm_append_comm
  have hswap := hcomm.append_right (m.second.drop count)
  rw [List.append_assoc m.first, List.take_append_drop] at hswap
  simpa [takeSecond, items] using hswap.append_left m.merged.reverse

theorem Sound.takeFirst {m : Merge α} (h : m.Sound before P front behind) {count : Nat} {y : α}
    {ys : List α} (hsecond : m.second = y :: ys)
    (hlink : ∀ x ∈ (m.first.take count).getLast?, Linked before x y) :
    (m.takeFirst count).Sound before P front behind := by
  have hmerged : front ++ (m.takeFirst count).merged.reverse =
      front ++ m.merged.reverse ++ m.first.take count := by
    simp [Merge.takeFirst]
  have hfirst : front ++ m.merged.reverse ++ m.first.take count ++
      (m.first.drop count ++ behind) = front ++ m.merged.reverse ++ (m.first ++ behind) := by
    rw [List.append_assoc, ← List.append_assoc (m.first.take count), List.take_append_drop]
  -- what is taken goes from the first run to what is merged: one list, cut further on
  have hall := h.first
  rw [← hfirst] at hall
  refine ⟨?_, ?_, fun z hz x hx => h.ends z hz x (getLast?_drop_mem hx)⟩
  · rw [hmerged]
    exact hall
  · rw [hmerged]
    refine IsRun.append_between hall.left h.second fun x hx z hz => ?_
    rw [show (m.takeFirst count).second = y :: ys from hsecond, List.cons_append,
      List.head?_cons, Option.mem_some_iff] at hz
    exact hz ▸ hlink x hx

theorem Sound.takeSecond {m : Merge α} (h : m.Sound before P front behind) {count : Nat} {x : α}
    {xs : List α} (hfirst : m.first = x :: xs)
    (hlink : ∀ y ∈ (m.second.take count).getLast?, Linked before y x) :
    (m.takeSecond count).Sound before P front behind := by
  have hmerged : front ++ (m.takeSecond count).merged.reverse =
      front ++ m.merged.reverse ++ m.second.take count := by
    simp [Merge.takeSecond]
  have hsecond : front ++ m.merged.reverse ++ m.second.take count ++
      (m.second.drop count ++ behind) = front ++ m.merged.reverse ++ (m.second ++ behind) := by
    rw [List.append_assoc, ← List.append_assoc (m.second.take count), List.take_append_drop]
  have hall := h.second
  rw [← hsecond] at hall
  refine ⟨?_, ?_, fun y hy z hz => h.ends y (getLast?_drop_mem hy) z hz⟩
  · rw [hmerged]
    refine IsRun.append_between hall.left h.first fun y hy z hz => ?_
    rw [show (m.takeSecond count).first = x :: xs from hfirst, List.cons_append,
      List.head?_cons, Option.mem_some_iff] at hz
    exact hz ▸ hlink y hy
  · rw [hmerged]
    exact hall

theorem Sound.all_first {m : Merge α} (h : m.Sound before P front behind) : ∀ x ∈ m.first, P x :=
  fun x hx => h.first.all x (by simp [hx])

theorem Sound.all_second {m : Merge α} (h : m.Sound before P front behind) :
    ∀ y ∈ m.second, P y := fun y hy => h.second.all y (by simp [hy])

/-- When nothing is left to compare, a last item of the first run comes after the rest of the
second. -/
theorem Sound.result {m : Merge α} (h : m.Sound before P front behind) (hover : m.isOver = true) :
    IsRun before P (front ++ m.result ++ behind) ∧ m.result.Perm m.items := by
  constructor
  · have hresult : front ++ m.result ++ behind =
        front ++ m.merged.reverse ++ m.second ++ (m.first ++ behind) := by
      simp [Merge.result]
    have hsecond := h.second
    rw [← List.append_assoc] at hsecond
    rw [hresult]
    rcases hfirst : m.first with _ | ⟨x, _ | ⟨x', xs⟩⟩
    · exact hsecond
    · refine IsRun.append_between hsecond.left (hfirst ▸ h.first) fun y hy z hz => ?_
      simp only [List.cons_append, List.head?_cons, Option.mem_some_iff] at hz
      exact hz ▸ h.ends y hy x (by simp [hfirst])
    · simp only [isOver, hfirst, List.length_cons, Bool.or_eq_true, List.isEmpty_iff,
        decide_eq_true_eq] at hover
      have hnil : m.second = [] := hover.resolve_right (by omega)
      simpa [hnil, hfirst] using h.first
  · have hswap : (m.second ++ m.first).Perm (m.first ++ m.second) := List.perm_append_comm
    simpa [Merge.result, items] using hswap.append_left m.merged.reverse

theorem left_takeFirst_le (m : Merge α) (count : Nat) : (m.takeFirst count).left ≤ m.left := by
  simp only [takeFirst, left, List.length_drop]
  omega

theorem left_takeSecond_le (m : Merge α) (count : Nat) : (m.takeSecond count).left ≤ m.left := by
  simp only [takeSecond, left, List.length_drop]
  omega

theorem left_takeFirst_one {m : Merge α} {x : α} {rest : List α} (h : m.first = x :: rest) :
    (m.takeFirst 1).left < m.left := by
  simp [takeFirst, left, h]

theorem left_takeSecond_one {m : Merge α} {y : α} {rest : List α} (h : m.second = y :: rest) :
    (m.takeSecond 1).left < m.left := by
  simp [takeSecond, left, h]

theorem exists_of_not_isOver {m : Merge α} (h : m.isOver = false) :
    ∃ x xs y ys, m.first = x :: xs ∧ m.second = y :: ys := by
  rcases hfirst : m.first with _ | ⟨x, xs⟩
  · simp [isOver, hfirst] at h
  · rcases hsecond : m.second with _ | ⟨y, ys⟩
    · simp [isOver, hsecond] at h
    · exact ⟨x, xs, y, ys, rfl, rfl⟩

theorem Continues.refl {m : Merge α} (h : m.Sound before P front behind)
    (hover : m.isOver = true) : m.Continues before P front behind m :=
  ⟨h, .refl _, Nat.le_refl _, id, fun hn => by rw [hover] at hn; cases hn⟩

/-! ### Searching both runs -/

variable {order : α → α → Except ε Bool} {sense : Sense} {m : Merge α}

theorem ends_searchFirst (h : m.Sound (isBefore order sense) P front behind) :
    Ends (FaultAmong (isBefore order sense) P)
      (fun r => m.Continues (isBefore order sense) P front behind r.2)
      (m.searchFirst order sense) := by
  unfold searchFirst
  split
  · rename_i y ys hover hsecond
    have hy : P y := h.all_second y (by simp [hsecond])
    refine (ends_countNotAfter sense hy h.all_first).bind fun count hcount => .pure ?_
    -- the items counted are linked to `y`, and `y` is linked to the item after them
    have htaken := h.takeFirst hsecond fun x hx => .inr (not_map_eq_ok.1 (hcount.last x hx))
    have hperm := List.Perm.of_eq (m.items_takeFirst count)
    have hle := m.left_takeFirst_le count
    dsimp only
    split
    · rename_i hend
      exact ⟨htaken, hperm, hle, fun _ => hend, fun _ => .inl hend⟩
    · rename_i hnot
      obtain ⟨x, xs, _, _, hfirst, _⟩ := exists_of_not_isOver ((Bool.not_eq_true _).mp hnot)
      have hsecond' : (m.takeFirst count).second = y :: ys := hsecond
      have hstep : ((m.takeFirst count).takeSecond 1).Sound (isBefore order sense) P front
          behind := by
        refine htaken.takeSecond hfirst fun z hz => ?_
        refine eq_of_mem_take_one hsecond' hz ▸ .inl (not_map_eq_ok.1 (hcount.next x ?_))
        rw [show m.first.drop count = x :: xs from hfirst]
        exact List.head?_cons
      have hlt := left_takeSecond_one hsecond'
      exact ⟨hstep, ((m.takeFirst count).items_takeSecond 1).trans hperm, by omega,
        fun hend => absurd hend (by simp [hover]), fun _ => .inr (by omega)⟩
  · rename_i hcase
    refine .refl h ?_
    by_contra hnot
    have hover := (Bool.not_eq_true _).mp hnot
    obtain ⟨_, _, y, rest, _, hsecond⟩ := exists_of_not_isOver hover
    exact hcase y rest hover hsecond

theorem ends_searchSecond (h : m.Sound (isBefore order sense) P front behind) :
    Ends (FaultAmong (isBefore order sense) P)
      (fun r => m.Continues (isBefore order sense) P front behind r.2)
      (m.searchSecond order sense) := by
  unfold searchSecond
  split
  · rename_i x xs hover hfirst
    have hx : P x := h.all_first x (by simp [hfirst])
    refine (ends_countBefore sense hx h.all_second).bind fun count hcount => .pure ?_
    have htaken := h.takeSecond hfirst fun y hy => .inl (hcount.last y hy)
    have hperm := m.items_takeSecond count
    have hle := m.left_takeSecond_le count
    dsimp only
    split
    · rename_i hend
      exact ⟨htaken, hperm, hle, fun _ => hend, fun _ => .inl hend⟩
    · rename_i hnot
      obtain ⟨_, _, y, ys, _, hsecond⟩ := exists_of_not_isOver ((Bool.not_eq_true _).mp hnot)
      have hfirst' : (m.takeSecond count).first = x :: xs := hfirst
      have hstep : ((m.takeSecond count).takeFirst 1).Sound (isBefore order sense) P front
          behind := by
        refine htaken.takeFirst hsecond fun z hz => ?_
        refine eq_of_mem_take_one hfirst' hz ▸ .inr (hcount.next y ?_)
        rw [show m.second.drop count = y :: ys from hsecond]
        exact List.head?_cons
      have hlt := left_takeFirst_one hfirst'
      exact ⟨hstep, ((m.takeSecond count).items_takeFirst 1 ▸ hperm), by omega,
        fun hend => absurd hend (by simp [hover]), fun _ => .inr (by omega)⟩
  · rename_i hcase
    refine .refl h ?_
    by_contra hnot
    have hover := (Bool.not_eq_true _).mp hnot
    obtain ⟨x, rest, _, _, hfirst, _⟩ := exists_of_not_isOver hover
    exact hcase x rest hover hfirst

theorem Continues.trans {m m' m'' : Merge α} (h : m.Continues before P front behind m')
    (h' : m'.Continues before P front behind m'') : m.Continues before P front behind m'' := by
  refine ⟨h'.sound, h'.perm.trans h.perm, h'.left_le.trans h.left_le, h'.stays ∘ h.stays, ?_⟩
  intro hn
  rcases h.progress hn with hend | hlt
  · exact .inl (h'.stays hend)
  · exact .inr (h'.left_le.trans_lt hlt)

theorem ends_searchBoth (h : m.Sound (isBefore order sense) P front behind) :
    Ends (FaultAmong (isBefore order sense) P)
      (fun r => m.Continues (isBefore order sense) P front behind r.2)
      (m.searchBoth order sense) := by
  unfold searchBoth
  cases sense with
  | forward =>
      refine (ends_searchFirst h).bind fun r hr => ?_
      exact (ends_searchSecond hr.sound).bind fun r' hr' => .pure (hr.trans hr')
  | backward =>
      refine (ends_searchSecond h).bind fun r hr => ?_
      exact (ends_searchFirst hr.sound).bind fun r' hr' => .pure (hr.trans hr')

/-! ### A merge from its start to its end -/

/-- The outcome holds the items of the merge and fits between its neighbours. -/
def Fits (before : α → α → Except ε Bool) (P : α → Prop) (front behind : List α) (m : Merge α)
    (out : List α) : Prop :=
  IsRun before P (front ++ out ++ behind) ∧ out.Perm m.items

/-- A merge after steps that took an item. -/
structure Advances (before : α → α → Except ε Bool) (P : α → Prop) (front behind : List α)
    (m m' : Merge α) : Prop where
  sound : m'.Sound before P front behind
  perm : m'.items.Perm m.items
  left_lt : m'.left < m.left

/-- One comparison takes the next item of the run that wins. -/
theorem Sound.compare (h : m.Sound before P front behind) {x y : α} {xs ys : List α}
    (hfirst : m.first = x :: xs) (hsecond : m.second = y :: ys) {won : Bool}
    (hwon : before y x = .ok won) :
    m.Advances before P front behind (if won then m.takeSecond 1 else m.takeFirst 1) := by
  cases won with
  | true =>
      refine ⟨h.takeSecond hfirst fun z hz => ?_, m.items_takeSecond 1, left_takeSecond_one hsecond⟩
      exact eq_of_mem_take_one hsecond hz ▸ .inl hwon
  | false =>
      refine ⟨h.takeFirst hsecond fun z hz => ?_, .of_eq (m.items_takeFirst 1),
        left_takeFirst_one hfirst⟩
      exact eq_of_mem_take_one hfirst hz ▸ .inr hwon

theorem Continues.advances {m' : Merge α} (h : m.Continues before P front behind m')
    (hover : m.isOver = false) (hend : m'.isOver = false) :
    m.Advances before P front behind m' :=
  ⟨h.sound, h.perm, (h.progress hover).resolve_left (by simp [hend])⟩

theorem Fits.of_perm {m' : Merge α} {out : List α} (h : m'.Fits before P front behind out)
    (hperm : m'.items.Perm m.items) : m.Fits before P front behind out :=
  ⟨h.1, h.2.trans hperm⟩

/-- A merge needs no more steps than items are left. -/
theorem ends_finish (bound : Nat) (mode : Mode)
    (h : m.Sound (isBefore order sense) P front behind) (hbound : m.left ≤ bound) :
    Sorting.Ends (FaultAmong (isBefore order sense) P)
      (m.Fits (isBefore order sense) P front behind) (m.finish order sense bound mode) := by
  induction bound generalizing m mode with
  | zero =>
      -- nothing is left, so the merge is over
      refine .pure (h.result ?_)
      have hempty : m.second.length = 0 := by
        simp only [left] at hbound
        omega
      simp [isOver, List.eq_nil_of_length_eq_zero hempty]
  | succ bound ih =>
      have hgoOn {m' : Merge α} (mode : Mode)
          (hm' : m.Advances (isBefore order sense) P front behind m') :
          Sorting.Ends (FaultAmong (isBefore order sense) P)
            (m.Fits (isBefore order sense) P front behind)
            (m'.finish order sense bound mode) := by
        have hleft : m'.left ≤ bound := by
          have := hm'.left_lt
          omega
        exact (ih mode hm'.sound hleft).mono fun out hout => hout.of_perm hm'.perm
      unfold finish
      split
      · rename_i x xs y ys s hover hfirst hsecond
        have hx : P x := h.all_first x (by simp [hfirst])
        have hy : P y := h.all_second y (by simp [hsecond])
        -- one comparison takes one item, whichever run wins
        refine (Sorting.Ends.lift (ends_compare hy hx)).bind fun won hwon => ?_
        refine Sorting.Ends.readWins.bind fun enough _ => ?_
        exact hgoOn _ (h.compare hfirst hsecond hwon)
      · rename_i hover
        -- searching both runs takes an item too, unless it ends the merge
        refine (Sorting.Ends.lift (ends_searchBoth h)).bind ?_
        rintro ⟨most, m'⟩ hm'
        dsimp only
        split
        · rename_i hend
          exact .pure (Fits.of_perm (hm'.sound.result hend) hm'.perm)
        · rename_i hend
          have hadvances := hm'.advances hover ((Bool.not_eq_true _).mp hend)
          split
          · exact (Sorting.Ends.updateWins _).bind fun _ _ => hgoOn _ hadvances
          · exact (Sorting.Ends.updateWins _).bind fun _ _ => hgoOn _ hadvances
      · rename_i mode _ _ _ _ hsearching hcomparing
        refine .pure (h.result ?_)
        by_contra hnot
        have hover := (Bool.not_eq_true _).mp hnot
        obtain ⟨x, xs, y, ys, hfirst, hsecond⟩ := exists_of_not_isOver hover
        cases mode with
        | comparing s => exact hcomparing x xs y ys s hover hfirst hsecond rfl
        | searching => exact hsearching hover rfl

/-- Merging starts with the next item of the second run, which is before that of the first. -/
theorem ends_run {x y : α} {xs ys : List α}
    (h : m.Sound (isBefore order sense) P front behind) (hfirst : m.first = x :: xs)
    (hsecond : m.second = y :: ys) (hlink : Linked (isBefore order sense) y x) :
    Sorting.Ends (FaultAmong (isBefore order sense) P)
      (m.Fits (isBefore order sense) P front behind) (m.run order sense) := by
  have hstart : (m.takeSecond 1).Sound (isBefore order sense) P front behind :=
    h.takeSecond hfirst fun z hz => eq_of_mem_take_one hsecond hz ▸ hlink
  have hbound : (m.takeSecond 1).left ≤ m.first.length + m.second.length :=
    m.left_takeSecond_le 1
  exact (ends_finish _ _ hstart hbound).mono fun out hout => hout.of_perm (m.items_takeSecond 1)

end Merge

end Merge

end Tabula
