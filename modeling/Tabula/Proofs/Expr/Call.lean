import Tabula.Proofs.Expr.Operand

/-!
Reading what stands between parentheses: expressions, and the arguments of calls.
-/

namespace Tabula

open Reader

variable {g : Grammar} {k d : Nat} {ts rest : List Token} {p : Phrase}
  {items : List (List Token × Phrase)}

/-! ### Items with commas between them -/

section Items

variable {item : Reader (Option Phrase)}

theorem mayFollow_closing (h : MayFollow k rest) : MayFollow 0 (.mark ")" :: rest) :=
  mayFollow_end_iff.2 ⟨by simp, List.forall_mem_cons.2 ⟨by decide, h.usual⟩⟩

theorem mayFollow_items (husual : ∀ i ∈ items, ∀ t ∈ i.1, t.Usual) (hrest : MayFollow 0 rest) :
    MayFollow 0 (joined (.mark ",") items ++ rest) := by
  cases items with
  | nil => exact hrest
  | cons i items =>
      have hjoined := usual_joined (by decide : (Token.mark ",").Usual) husual
      rw [joined_cons] at hjoined ⊢
      exact mayFollow_end_iff.2 ⟨by simp, List.forall_mem_append.2 ⟨hjoined, hrest.usual⟩⟩

theorem moreItems_joined (hitems : ∀ i ∈ items, Finds 0 item i.1 i.2)
    (husual : ∀ i ∈ items, ∀ t ∈ i.1, t.Usual) (hrest : MayFollow 0 (.mark ")" :: rest))
    (bound : Nat) (hbound : items.length ≤ bound) :
    moreItems item bound (lexed (joined (.mark ",") items ++ .mark ")" :: rest)) =
      some ((items.map Prod.snd, false), lexed (.mark ")" :: rest)) := by
  induction items generalizing bound with
  | nil =>
      have hmark : mark "," (lexed (.mark ")" :: rest)) = some (false, lexed (.mark ")" :: rest)) :=
        mark_of_ne (by simp)
      cases bound <;> simp [moreItems, joined, hmark]
  | cons i items ih =>
      obtain ⟨bound, rfl⟩ : ∃ b, bound = b + 1 := Nat.exists_eq_add_one_of_ne_zero (by
        simp only [List.length_cons] at hbound
        omega)
      rw [List.forall_mem_cons] at hitems husual
      have hfirst := hitems.1 _ (mayFollow_items husual.2 hrest)
      have hmore := ih hitems.2 husual.2 bound (by simpa using hbound)
      rw [joined_cons, List.cons_append, List.append_assoc]
      simp [moreItems, hfirst, hmore]

/-- The tokens of items with commas between them. -/
def commaSeparated : List (List Token × Phrase) → List Token
  | [] => []
  | i :: items => i.1 ++ joined (.mark ",") items

theorem usual_commaSeparated (h : ∀ i ∈ items, ∀ t ∈ i.1, t.Usual) :
    ∀ t ∈ commaSeparated items, t.Usual := by
  cases items with
  | nil => simp [commaSeparated]
  | cons i items =>
      rw [List.forall_mem_cons] at h
      exact List.forall_mem_append.2 ⟨h.1, usual_joined (by decide) h.2⟩

theorem length_le_commaSeparated {i : List Token × Phrase} (h : i ∈ items) :
    i.1.length ≤ (commaSeparated items).length := by
  cases items with
  | nil => exact absurd h List.not_mem_nil
  | cons j items =>
      rw [commaSeparated, List.length_append]
      rcases List.mem_cons.1 h with rfl | h
      · exact Nat.le_add_right _ _
      · have hlength := length_le_of_mem_joined (.mark ",") h
        omega

theorem separated_closed (hnone : Misses item) (hitems : ∀ i ∈ items, Finds 0 item i.1 i.2)
    (husual : ∀ i ∈ items, ∀ t ∈ i.1, t.Usual) (hrest : MayFollow 0 (.mark ")" :: rest)) :
    separated item (lexed (commaSeparated items ++ .mark ")" :: rest)) =
      some (items.map Prod.snd, lexed (.mark ")" :: rest)) := by
  cases items with
  | nil =>
      have hmark : mark "," (lexed (.mark ")" :: rest)) = some (false, lexed (.mark ")" :: rest)) :=
        mark_of_ne (by simp)
      have hmore (bound : Nat) : moreItems item bound (lexed (.mark ")" :: rest)) =
          some (([], false), lexed (.mark ")" :: rest)) := by
        cases bound <;> simp [moreItems, hmark]
      simp [separated, listed, commaSeparated, hnone _ hrest, hmore]
  | cons i items =>
      rw [List.forall_mem_cons] at hitems husual
      have hfirst := hitems.1 _ (mayFollow_items husual.2 hrest)
      have hlength := length_le_joined (.mark ",") items
      have hmore := moreItems_joined hitems.2 husual.2 hrest
        (lexed (joined (.mark ",") items ++ .mark ")" :: rest)).length
        (by simp only [lexed, List.length_map, List.length_append]; omega)
      simp [separated, listed, commaSeparated, List.append_assoc, hfirst, hmore]

end Items

/-! ### After a call -/

/-- A window, a filter or a choice of nulls does not follow. -/
theorem MayFollow.afterCall (h : MayFollow 7 rest) (g : Grammar) (hp : p.hoistNulls = p) :
    Tabula.afterCall g p (lexed rest) = some (p, lexed rest) := by
  have hwithin : Reader.words ["WITHIN", "GROUP"] (lexed rest) = some (false, lexed rest) :=
    h.words rfl
  have hfilter : headKey rest ≠ "FILTER" := h.headKey_ne rfl
  have hover : windowed g p (lexed rest) = some (none, lexed rest) := by
    simp [windowed, h.word (w := "OVER") rfl]
  simp [Tabula.afterCall, hwithin, hfilter, hp, h.nullChoice, goOn_of_none hover]

/-! ### Parentheses -/

/-- An expression in parentheses is an operand. -/
theorem finds_paren (hselect : g (.select false) = selectRule (Grammar.ofDepth d) false)
    (hopens : Opens ts) (h : Finds 0 (g .expression) ts p) (hform : ∀ name, p ≠ .form name) :
    Finds 7 (field g) (.mark "(" :: (ts ++ [.mark ")"])) (.paren p) := by
  refine finds_field fun rest hrest => ?_
  have hnone : g (.select false) (lexed (ts ++ .mark ")" :: rest)) =
      some (none, lexed (ts ++ .mark ")" :: rest)) := by
    rw [hselect]
    refine select_none fun w hw => hopens.headKey_ne _ ?_
    revert w
    decide
  have hlisted : listed (g .expression) (lexed (ts ++ .mark ")" :: rest)) =
      some (([p], false), lexed (.mark ")" :: rest)) := by
    have hmore : moreItems (g .expression) (lexed (.mark ")" :: rest)).length
        (lexed (joined (.mark ",") [] ++ .mark ")" :: rest)) =
          some (([], false), lexed (.mark ")" :: rest)) :=
      moreItems_joined (by simp) (by simp) (mayFollow_closing hrest) _ (Nat.zero_le _)
    simp only [joined, List.flatMap_nil, List.nil_append] at hmore
    simp [listed, h _ (mayFollow_closing hrest), hmore]
  have hquery : p.isSubquery = false ∧ p.isValues = false ∧ p.isQuery = false := by
    cases p with
    | form name => exact absurd rfl (hform name)
    | _ => exact ⟨rfl, rfl, rfl⟩
  have hafter := hrest.afterCall g (show (Phrase.paren p).hoistNulls = .paren p from rfl)
  have hparens : parenthesized g (lexed (ts ++ .mark ")" :: rest)) =
      some (.paren p, lexed rest) := by
    cases hgroup : p.isGroupCall <;>
      simp [parenthesized, hnone, hlisted, hquery, expect, hgroup, hafter]
  simp [primary, hparens]

/-! ### Calls -/

/-- The functions that expressions call, by their names in capitals. -/
def calledNames : List String :=
  ["ABS", "LOWER", "UPPER", "SQRT", "EXP", "LN", "ROUND", "COALESCE", "RANK", "DENSE_RANK",
    "ROW_NUMBER"]

theorem callable_calledNames :
    ∀ key ∈ calledNames, key ∉ nameWords ∧ key ∉ reservedWords := by decide +kernel

theorem ownArguments_none {key : String} (h : key ∈ calledNames) : ownArguments g key = none := by
  simp only [calledNames, List.mem_cons, List.not_mem_nil, or_false] at h
  rcases h with rfl | rfl | rfl | rfl | rfl | rfl | rfl | rfl | rfl | rfl | rfl
  all_goals simp [ownArguments, isTextAggregate]

theorem rowsAsked_none {key : String} (h : key ∈ calledNames) : rowsAsked key = none := by
  simp only [calledNames, List.mem_cons, List.not_mem_nil, or_false] at h
  rcases h with rfl | rfl | rfl | rfl | rfl | rfl | rfl | rfl | rfl | rfl | rfl
  all_goals rfl

/-- What a call by a word says, if the grammar admits it. -/
def Phrase.calledBy? (w : String) (args : List Phrase) : Option Phrase :=
  if isKnownFunction (Text.upper w) then Phrase.called? (Text.upper w) args
  else some (.call w args)

/-- A call of a function that expressions have is an operand. -/
theorem finds_call {w : String} (hkey : Text.upper w ∈ calledNames)
    (hnone : ∀ named, Misses (g (.argument named)))
    (hitems : ∀ named, ∀ i ∈ items, Finds 0 (g (.argument named)) i.1 i.2)
    (husual : ∀ i ∈ items, ∀ t ∈ i.1, t.Usual)
    (hcalled : Phrase.calledBy? w (items.map Prod.snd) = some p)
    (hp : p.hoistNulls = p) :
    Finds 7 (field g) (.word w :: .mark "(" :: (commaSeparated items ++ [.mark ")"])) p := by
  intro rest hrest
  have hne {k : String} (hk : k ∉ calledNames) : Text.upper w ≠ k := by
    rintro rfl
    exact hk hkey
  have hprimary (us : List Token) :
      primary g (lexed (.word w :: us)) = some (none, lexed (.word w :: us)) := by
    have hword {k : String} (hk : k ∉ calledNames) :
        word k (lexed (.word w :: us)) = some (false, lexed (.word w :: us)) := word_of_ne (hne hk)
    have hnull := hword (k := "NULL") (by decide)
    have htrue := hword (k := "TRUE") (by decide)
    have hfalse := hword (k := "FALSE") (by decide)
    simp [primary, hnull, htrue, hfalse]
  have hbare : bareCall g (Text.upper w) = none := by
    have hnot : ∀ k ∈ ["CASE", "ANY", "CONNECT_BY_ROOT", "IF", "MAP"], k ∉ calledNames := by decide
    exact bareCall_none fun hmem => hnot _ hmem hkey
  have hmay : (Token.word w).mayCall = true := by
    have hcallable := callable_calledNames _ hkey
    simp [Token.mayCall, Token.key, hcallable]
  have hargs (named : Bool) :=
    separated_closed (hnone named) (hitems named) husual (mayFollow_closing hrest)
  have hwith : calledWith g (.word w) (Text.upper w) false
      (lexed (commaSeparated items ++ .mark ")" :: rest)) =
        some (p, lexed (.mark ")" :: rest)) := by
    rw [Phrase.calledBy?] at hcalled
    split at hcalled
    · next hknown => simp [calledWith, hknown, hargs, hcalled]
    · next hknown =>
        cases hcalled
        simp [calledWith, hknown, hargs, Token.text]
  have hcall : call g false
      (lexed (.word w :: .mark "(" :: (commaSeparated items ++ .mark ")" :: rest))) =
        some (some p, lexed rest) := by
    simp [call, Token.key, hbare, hmay, Token.text, ownArguments_none hkey, rowsAsked_none hkey,
      hwith, expect, hrest.afterCall g hp]
  simp only [List.cons_append, List.append_assoc, List.nil_append]
  rw [field, either_of_none (hprimary _), either_of_some hcall]

end Tabula
