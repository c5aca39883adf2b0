import Mathlib.Data.List.Chain
import Tabula.Proofs.Result
import Tabula.Row.Runs

/-!
Searching a run. A search asks about single items and nothing is known about the items in between,
since the order may be no order. What it finds is still bounded by two answers: the last item that
is counted was asked about and passes, and the first item that is not counted was asked about and
does not.
-/

namespace Tabula

section Search

variable {α ε : Type} {passes : α → Except ε Bool} {E : ε → Prop}

/-- So many items are counted that the last of them passes and the next one does not. -/
structure SplitsAt (passes : α → Except ε Bool) (items : List α) (count : Nat) : Prop where
  le : count ≤ items.length
  last : ∀ x ∈ (items.take count).getLast?, passes x = .ok true
  next : ∀ x ∈ (items.drop count).head?, passes x = .ok false

theorem splitsAt_nil : SplitsAt passes ([] : List α) 0 := ⟨by simp, by simp, by simp⟩

variable {items others : List α} {x : α} {place count : Nat}

theorem splitsAt_zero (hdrop : items = x :: others) (hx : passes x = .ok false) :
    SplitsAt passes items 0 := by
  subst hdrop
  exact ⟨by simp, by simp, by simpa using hx⟩

/-- The items before one that passes can all be counted. -/
theorem SplitsAt.after (hdrop : items.drop place = x :: others) (hx : passes x = .ok true)
    (h : SplitsAt passes others count) : SplitsAt passes items (place + 1 + count) := by
  have hitems : items = items.take place ++ x :: others := by
    rw [← hdrop, List.take_append_drop]
  have hplace : (items.take place).length = place := by
    have := congrArg List.length hdrop
    simp only [List.length_drop, List.length_cons] at this
    simp only [List.length_take]
    omega
  have htake : items.take (place + 1 + count) = items.take place ++ x :: others.take count := by
    conv => lhs; rw [hitems]
    rw [List.take_append, hplace, List.take_of_length_le (by omega),
      show place + 1 + count - place = count + 1 by omega, List.take_succ_cons]
  have hdrop' : items.drop (place + 1 + count) = others.drop count := by
    rw [show place + 1 + count = place + (count + 1) by omega, ← List.drop_drop, hdrop,
      List.drop_succ_cons]
  refine ⟨?_, ?_, ?_⟩
  · have := congrArg List.length hitems
    simp only [List.length_append, List.length_cons, hplace] at this
    have := h.le
    omega
  · rw [htake, List.getLast?_append, List.getLast?_cons]
    intro y hy
    cases hlast : (others.take count).getLast? with
    | none =>
        rw [hlast] at hy
        simp only [Option.getD_none, Option.some_or, Option.mem_some_iff] at hy
        exact hy ▸ hx
    | some z =>
        rw [hlast] at hy
        simp only [Option.getD_some, Option.some_or, Option.mem_some_iff] at hy
        exact hy ▸ h.last z hlast
  · rw [hdrop']
    exact h.next

/-- No item from one on that does not pass is counted. -/
theorem SplitsAt.before (hdrop : items.drop place = x :: others) (hx : passes x = .ok false)
    (h : SplitsAt passes (items.take place) count) : SplitsAt passes items count := by
  have hplace : place < items.length := by
    have := congrArg List.length hdrop
    simp only [List.length_drop, List.length_cons] at this
    omega
  have hle : count ≤ place := by
    have := h.le
    simp only [List.length_take] at this
    omega
  refine ⟨by omega, ?_, ?_⟩
  · -- the items counted are the same ones in the shorter list
    have hlast := h.last
    rwa [List.take_take, Nat.min_eq_left hle] at hlast
  · intro y hy
    rw [List.head?_drop] at hy
    rcases Nat.lt_or_ge count place with hlt | hge
    · refine h.next y ?_
      rw [List.head?_drop, List.getElem?_take_of_lt hlt]
      exact hy
    · -- all items before the one that does not pass are counted, so it is the next
      have hhead : items[place]? = some x := by rw [← List.head?_drop, hdrop, List.head?_cons]
      rw [show count = place by omega, hhead] at hy
      cases hy
      exact hx

theorem ends_countByHalves (sense : Sense) (items : List α)
    (hE : ∀ x ∈ items, ∀ e, passes x = .error e → E e) :
    Ends E (SplitsAt passes items) (countByHalves passes sense items) := by
  fun_induction countByHalves passes sense items with
  | case1 items half hdrop =>
      have hlen := congrArg List.length hdrop
      simp only [List.length_drop, List.length_nil] at hlen
      have hnil : items.length = 0 := by
        have hhalf : half = sense.middle items.length := rfl
        cases sense <;> simp only [Sense.middle] at hhalf <;> omega
      rw [List.eq_nil_of_length_eq_zero hnil]
      exact splitsAt_nil
  | case2 items half x after hdrop ihAfter ihBefore =>
      have hmem (y) (hy : y ∈ x :: after) : y ∈ items := List.mem_of_mem_drop (hdrop ▸ hy)
      refine (Ends.self (hE x (hmem x (by simp)))).bind fun b hb => ?_
      -- the answer for the item in the middle says in which half to look on
      cases b with
      | true =>
          refine (ihAfter fun y hy => hE y (hmem y (by simp [hy]))).bind fun count hcount => ?_
          exact .pure (.after hdrop hb hcount)
      | false =>
          exact (ihBefore fun y hy => hE y (List.mem_of_mem_take hy)).mono fun count hcount =>
            .before hdrop hb hcount

theorem ends_countByLeaps (sense : Sense) (gap : Nat) (items : List α)
    (hE : ∀ x ∈ items, ∀ e, passes x = .error e → E e) :
    Ends E (SplitsAt passes items) (countByLeaps passes sense gap items) := by
  fun_induction countByLeaps passes sense gap items with
  | case1 gap items hdrop => exact ends_countByHalves sense items hE
  | case2 gap items x after hdrop ih =>
      have hmem (y) (hy : y ∈ x :: after) : y ∈ items := List.mem_of_mem_drop (hdrop ▸ hy)
      refine (Ends.self (hE x (hmem x (by simp)))).bind fun b hb => ?_
      cases b with
      | true =>
          refine (ih fun y hy => hE y (hmem y (by simp [hy]))).bind fun count hcount => ?_
          exact .pure (.after hdrop hb hcount)
      | false =>
          have hbefore := ends_countByHalves sense (items.take gap)
            fun y hy => hE y (List.mem_of_mem_take hy)
          exact hbefore.mono fun count hcount => .before hdrop hb hcount

theorem ends_countPassing (sense : Sense) (items : List α)
    (hE : ∀ x ∈ items, ∀ e, passes x = .error e → E e) :
    Ends E (SplitsAt passes items) (countPassing passes sense items) := by
  cases items with
  | nil => exact splitsAt_nil
  | cons x rest =>
      refine (Ends.self (hE x (by simp))).bind fun b hb => ?_
      cases b with
      | true =>
          refine (ends_countByLeaps sense 0 rest fun y hy => hE y (by simp [hy])).bind
            fun count hcount => ?_
          have hdrop : (x :: rest).drop 0 = x :: rest := rfl
          have h := SplitsAt.after hdrop hb hcount
          rw [Nat.zero_add] at h
          exact .pure h
      | false => exact .pure (splitsAt_zero rfl hb)

end Search

end Tabula
