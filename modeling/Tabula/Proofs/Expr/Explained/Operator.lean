import Tabula.Proofs.Expr.Foreign.Call

/-!
Operators account for what they join. What is found explains the lexemes that it was read from, and
a chain of operands explains those of the operands with the operators between them. A reader may
begin with an operand that was read before; what it finds then explains the lexemes of both.
-/

namespace Tabula

open Reader Phrase

/-- What is found uses every lexeme that was taken, if it is an expression. Where nothing is found,
only idle lexemes were taken. -/
def Explained (ls : List Lexeme) : Option Phrase → List Lexeme → Prop
  | none, rest => ∃ lost, ls = lost ++ rest ∧ Idle lost
  | some p, rest => p.isExpr = true → ∃ taken, ls = taken ++ rest ∧ p.Uses taken

/-- What is found uses every lexeme that was taken, if it is an expression; or nothing is found, and
nothing was taken. -/
def Settled (ls : List Lexeme) : Option Phrase → List Lexeme → Prop
  | none, rest => rest = ls
  | some p, rest => Explained ls (some p) rest

/-- A grammar whose parts explain what they take. -/
structure Grammar.Explains (g : Grammar) : Prop where
  select (nested : Bool) (ls : List Lexeme) : Ensures (g (.select nested)) ls (Foreign ls)
  type (inside : Bool) (ls : List Lexeme) : Ensures (g (.type inside)) ls (Foreign ls)
  expression (ls : List Lexeme) : Ensures (g .expression) ls (Explained ls)
  assignment (ls : List Lexeme) : Ensures (g .assignment) ls (Explained ls)
  disjunction (ls : List Lexeme) : Ensures (g .disjunction) ls (Explained ls)
  condition (ls : List Lexeme) : Ensures (g .condition) ls (Explained ls)
  bits (ls : List Lexeme) : Ensures (g .bits) ls (Explained ls)
  signed (ls : List Lexeme) : Ensures (g .signed) ls (Explained ls)
  column (ls : List Lexeme) : Ensures (g .column) ls (Explained ls)
  argument (named : Bool) (ls : List Lexeme) : Ensures (g (.argument named)) ls (Explained ls)

namespace Explained

variable {ls mid rest : List Lexeme} {p q : Phrase} {found : Option Phrase}

theorem none : Explained ls none ls := ⟨[], rfl, nofun⟩

theorem of_not_isExpr (h : p.isExpr = false) : Explained ls (some p) rest :=
  fun hp => absurd hp (by simp [h])

theorem of_foreign (h : Foreign ls found rest) : Explained ls found rest := by
  cases found with
  | none => exact (show rest = ls from h) ▸ none
  | some p => exact of_not_isExpr h

/-- What is kept explains what it explained before. -/
theorem of_kept (h : Explained ls (some p) mid) (hq : Kept p mid q rest) :
    Explained ls (some q) rest := by
  rcases hq with ⟨rfl, rfl⟩ | hq
  · exact h
  · exact of_not_isExpr hq

end Explained

namespace Settled

variable {ls rest : List Lexeme} {found : Option Phrase} {r s : Reader (Option Phrase)}

theorem none : Settled ls none ls := rfl

theorem of_foreign (h : Foreign ls found rest) : Settled ls found rest := by
  cases found with
  | none => exact h
  | some p => exact .of_not_isExpr h

theorem explained (h : Settled ls found rest) : Explained ls found rest := by
  cases found with
  | none => exact (show rest = ls from h) ▸ .none
  | some p => exact h

theorem either (hr : Ensures r ls (Settled ls)) (hs : Ensures s ls (Settled ls)) :
    Ensures (either r s) ls (Settled ls) := by
  refine .either (hr.mono fun found rest h => ⟨?_, ?_⟩)
  · rintro p rfl
    exact h
  · rintro rfl
    exact (show rest = ls from h) ▸ hs

end Settled

variable {g : Grammar} {ls mid : List Lexeme} {p left : Phrase}

/-- What a barren reader finds needs no explanation. -/
theorem Barren.explained {r : Reader Phrase} (h : Barren r) (start ls : List Lexeme) :
    Ensures (do return Option.some (← r)) ls (Explained start) :=
  (h.some start ls).mono fun _ _ => .of_foreign

/-! ### Joints -/

/-- Read from the lexemes of an operator, the joint gives an expression only of expressions, and
that uses the operands and the operator. -/
def Joint.Accounts (op : List Lexeme) (j : Joint) : Prop :=
  ∀ p right mid rest, Explained mid right rest → ∀ q ∈ j p right, q.isExpr = true →
    p.isExpr = true ∧ ∃ taken, mid = taken ++ rest ∧ ∀ ls, p.Uses ls → q.Uses (ls ++ op ++ taken)

/-- Joints are found by the lexemes of their operators alone. -/
def Joints.Account (joints : Joints) : Prop :=
  ∀ ls, Ensures joints ls fun found rest =>
    (found = none → rest = ls) ∧ ∀ j ∈ found, ∃ op, ls = op ++ rest ∧ j.Accounts op

theorem Joint.accounts_both {op : List Lexeme} {f : Phrase → Phrase → Phrase}
    (h : ∀ p q, (f p q).isExpr = true → p.isExpr = true ∧ q.isExpr = true ∧
      ∀ ls ms, p.Uses ls → q.Uses ms → (f p q).Uses (ls ++ op ++ ms)) :
    (both f).Accounts op := by
  intro p right mid rest hright q hq hexpr
  obtain ⟨r, rfl, rfl⟩ := Option.map_eq_some_iff.1 hq
  obtain ⟨hp, hr, huses⟩ := h p r hexpr
  obtain ⟨taken, hmid, htaken⟩ := hright hr
  exact ⟨hp, taken, hmid, fun ls hls => huses ls taken hls htaken⟩

theorem Joint.accounts_of_barren {op : List Lexeme} {f : Phrase → Phrase → Phrase}
    (h : ∀ p q, (f p q).isExpr = false) : (both f).Accounts op :=
  accounts_both fun p q hpq => absurd hpq (by simp [h])

theorem Joint.accounts_form (op : List Lexeme) (name : String) : (form name).Accounts op :=
  accounts_of_barren fun _ _ => rfl

theorem Joint.accounts_call (op : List Lexeme) {name : String} (h : name ∈ foreignNames) :
    (call name).Accounts op :=
  accounts_of_barren fun _ _ => isExpr_call_foreign h _

theorem Joint.accounts_compare {l : Lexeme} {m : String} {op : CompareOp}
    (hl : l.token = .mark m) (hop : compareMarks.lookup m = some op) :
    (compare op).Accounts [l] := by
  refine accounts_both fun p q hpq => ?_
  simp only [isExpr, Bool.and_eq_true] at hpq
  refine ⟨hpq.1, hpq.2, fun ls ms hp hq => ?_⟩
  simpa using hp.compare hl hop hq

theorem Joint.accounts_arith {l : Lexeme} {m : String} {op : ArithOp}
    (hl : l.token = .mark m) (hop : arithMarks.lookup m = some op) : (arith op).Accounts [l] := by
  refine accounts_both fun p q hpq => ?_
  simp only [isExpr, Bool.and_eq_true] at hpq
  refine ⟨hpq.1, hpq.2, fun ls ms hp hq => ?_⟩
  simpa using hp.arith hl hop hq

theorem Joint.accounts_junction {l : Lexeme} (op : Junction) (hl : l.key = op.symbol) :
    (junction op).Accounts [l] := by
  refine accounts_both fun p q hpq => ?_
  simp only [isExpr, Bool.and_eq_true] at hpq
  refine ⟨hpq.1, hpq.2, fun ls ms hp hq => ?_⟩
  simpa using hp.junction hl hq

/-- The right operand may be missing. -/
theorem Joint.accounts_coalesce {l : Lexeme} (hl : l.token = .mark "??") :
    coalesce.Accounts [l] := by
  rintro p right mid rest hright _ ⟨⟩ hexpr
  simp only [isExpr, areExprs, Bool.and_eq_true] at hexpr
  obtain ⟨-, hp, hargs⟩ := hexpr
  refine ⟨hp, ?_⟩
  cases right with
  | none =>
      obtain ⟨lost, hmid, hlost⟩ := hright
      refine ⟨lost, hmid, fun ls hls => ?_⟩
      simpa using hls.orElse hl (.none hlost)
  | some r =>
      simp only [Option.toList_some, areExprs, Bool.and_true] at hargs
      obtain ⟨taken, hmid, htaken⟩ := hright hargs
      refine ⟨taken, hmid, fun ls hls => ?_⟩
      simpa using hls.orElse hl (.one htaken)

namespace Joints

theorem ensures_marked (table : List (String × Joint)) (ls : List Lexeme) :
    Ensures (marked table) ls fun found rest => (found = none → rest = ls) ∧
      ∀ j ∈ found, ∃ l m, ls = l :: rest ∧ l.token = .mark m ∧ (m, j) ∈ table := by
  refine .bind (.peek ?_)
  split
  · rename_i m comments hnext
    cases ls with
    | nil => cases hnext
    | cons l tail =>
        cases Option.some.inj hnext
        split
        · rename_i j hj
          refine .bind (.skip (.pure ⟨nofun, ?_⟩))
          rintro _ ⟨⟩
          exact ⟨_, m, rfl, rfl, mem_of_lookup hj⟩
        · exact .pure ⟨fun _ => rfl, nofun⟩
  · exact .pure ⟨fun _ => rfl, nofun⟩

theorem account_marked {table : List (String × Joint)}
    (h : ∀ e ∈ table, ∀ l : Lexeme, l.token = .mark e.1 → e.2.Accounts [l]) :
    Account (marked table) := by
  refine fun ls => (ensures_marked table ls).mono fun found rest hfound => ⟨hfound.1, ?_⟩
  intro j hj
  obtain ⟨l, m, hls, hl, he⟩ := hfound.2 j hj
  exact ⟨[l], hls, h (m, j) he l hl⟩

theorem account_worded {k : String} {j : Joint} (hk : k ≠ "")
    (h : ∀ l : Lexeme, l.key = k → j.Accounts [l]) : Account (worded k j) := by
  intro ls
  refine .ifWord hk (fun l tail hls hl => .pure ⟨nofun, ?_⟩) (.pure ⟨fun _ => rfl, nofun⟩)
  rintro _ ⟨⟩
  exact ⟨[l], hls, h l hl⟩

theorem account_either {r s : Joints} (hr : Account r) (hs : Account s) :
    Account (either r s) := by
  intro ls
  refine .bind ((hr ls).mono fun found rest hfound => ?_)
  cases found with
  | none => exact hfound.1 rfl ▸ hs ls
  | some j => exact .pure ⟨nofun, hfound.2⟩

theorem account_shift (m name : String) : Account (shift m name) := by
  intro ls
  refine .bind (.atMark (.bind (.secondAtMark (.ite (fun h => ?_) fun _ => ?_))))
  · rcases ls with _ | ⟨l, _ | ⟨l', tail⟩⟩
    · simp at h
    · simp at h
    · refine .bind (.skip (.bind (.skip (.pure ⟨nofun, ?_⟩))))
      rintro _ ⟨⟩
      exact ⟨[l, l'], rfl, Joint.accounts_form _ _⟩
  · exact .pure ⟨fun _ => rfl, nofun⟩

theorem account_integerDivision : Account (integerDivision g) := by
  intro ls
  refine .bind (.peek ?_)
  split
  · refine .bind (.get (.ifWord (by decide) (fun l tail hls _ => ?_) (.pure ⟨fun _ => rfl, nofun⟩)))
    refine .bind (.get (.andThen fun found _ => ?_))
    cases found with
    | none => exact .bind (.set (.pure ⟨fun _ => rfl, nofun⟩))
    | some p =>
        refine .bind (.set (.pure ⟨nofun, ?_⟩))
        rintro _ ⟨⟩
        exact ⟨[l], hls, Joint.accounts_form _ _⟩
  · exact .pure ⟨fun _ => rfl, nofun⟩

end Joints

/-! ### Chains -/

section Chains

variable {operand : Reader (Option Phrase)} {joints : Joints}
  (hoperand : ∀ ls, Ensures operand ls (Explained ls)) (hjoints : joints.Account)

include hoperand hjoints

/-- One more operand explains the operator before it as well. -/
theorem ensures_joinOne (h : Explained ls (some left) mid) :
    Ensures (joinOne operand joints left) mid fun found rest =>
      (∀ q ∈ found, Explained ls (some q) rest) ∧
        (found = none → Explained ls (some left) rest) := by
  refine .bind ((hjoints mid).mono fun found rest hfound => ?_)
  cases found with
  | none => exact .pure ⟨nofun, fun _ => hfound.1 rfl ▸ h⟩
  | some j =>
      obtain ⟨op, rfl, hop⟩ := hfound.2 j rfl
      refine .bind ((hoperand rest).mono fun right last hright => ?_)
      cases hjoined : j left right with
      | none => exact .failure
      | some q =>
          refine .pure ⟨?_, nofun⟩
          rintro _ ⟨⟩ hq
          obtain ⟨hleft, taken, rfl, huses⟩ := hop left right rest last hright q hjoined hq
          obtain ⟨before, rfl, hbefore⟩ := h hleft
          exact ⟨before ++ op ++ taken, by simp, huses before hbefore⟩

/-- Operands joined from left to right explain all that was taken since the first began. -/
theorem explained_chainFrom {first : Option Phrase} (h : Explained ls first mid) :
    Ensures (chainFrom operand joints first) mid (Explained ls) := by
  cases first with
  | none =>
      refine .bind ((hjoints mid).mono fun found rest hfound => ?_)
      cases found with
      | none => exact .pure (hfound.1 rfl ▸ h)
      | some j => exact .failure
  | some p =>
      exact .bind (.mono (.goOn (I := fun q rest => Explained ls (some q) rest) h
        fun q rest hq => ensures_joinOne hoperand hjoints hq) fun _ _ hq => .pure hq)

theorem explained_chain (ls : List Lexeme) :
    Ensures (chain operand joints) ls (Explained ls) :=
  .bind ((hoperand ls).mono fun _ _ h => explained_chainFrom hoperand hjoints h)

end Chains

/-! ### Levels -/

theorem foreign_zoned (p : Phrase) (ls : List Lexeme) : Ensures (zoned g p) ls (Foreign ls) :=
  .ifWords (fun _ _ _ _ => .andThen fun _ _ => .pure rfl) (.pure rfl)

namespace Grammar.Explains

variable (hg : g.Explains)

include hg

theorem power (ls : List Lexeme) : Ensures (power g) ls (Explained ls) := by
  refine explained_chain hg.signed (Joints.account_marked fun e he l _ => ?_) ls
  simp only [List.mem_cons, List.not_mem_nil, or_false] at he
  rcases he with rfl | rfl
  · exact Joint.accounts_call _ (by decide)
  · exact Joint.accounts_call _ (by decide)

theorem product (ls : List Lexeme) : Ensures (product g) ls (Explained ls) := by
  have hjoints : Joints.Account
      (either
        (marked [("*", .arith .mul), ("/", .arith .div), ("//", .form "IntDiv"),
          ("<->", .form "Distance")])
        (integerDivision g)) := by
    refine Joints.account_either (Joints.account_marked fun e he l hl => ?_)
      Joints.account_integerDivision
    simp only [List.mem_cons, List.not_mem_nil, or_false] at he
    rcases he with rfl | rfl | rfl | rfl
    · exact Joint.accounts_arith hl rfl
    · exact Joint.accounts_arith hl rfl
    · exact Joint.accounts_form _ _
    · exact Joint.accounts_form _ _
  refine .bind ((hg.power ls).mono fun found mid h => ?_)
  cases found with
  | none => exact .bind (.pure (explained_chainFrom hg.power hjoints h))
  | some p =>
      refine .bind ((kept_goOn foreign_zoned p mid).mono fun q rest hq => ?_)
      exact .bind (.pure (explained_chainFrom hg.power hjoints (h.of_kept hq)))

theorem sum (ls : List Lexeme) : Ensures (sum g) ls (Explained ls) := by
  refine explained_chain hg.product (Joints.account_either
    (Joints.account_marked fun e he l hl => ?_)
    (Joints.account_worded (by decide) fun l _ => Joint.accounts_call _ (by decide))) ls
  simp only [List.mem_cons, List.not_mem_nil, or_false] at he
  rcases he with rfl | rfl | rfl
  · exact Joint.accounts_arith hl rfl
  · exact Joint.accounts_arith hl rfl
  · exact Joint.accounts_form _ _

theorem bitsRule (ls : List Lexeme) : Ensures (Tabula.bits g) ls (Explained ls) := by
  refine explained_chain hg.sum (Joints.account_either
    (Joints.account_marked fun e he l hl => ?_)
    (Joints.account_either (Joints.account_shift _ _) (Joints.account_shift _ _))) ls
  simp only [List.mem_cons, List.not_mem_nil, or_false] at he
  rcases he with rfl | rfl | rfl | rfl
  · exact Joint.accounts_form _ _
  · exact Joint.accounts_form _ _
  · exact Joint.accounts_form _ _
  · exact Joint.accounts_coalesce hl

end Grammar.Explains

/-! ### Ranges -/

/-- A joint that makes no expression. -/
def Joint.IsBarren (j : Joint) : Prop := ∀ l r, ∀ q ∈ j l r, q.isExpr = false

theorem Joint.isBarren_form (name : String) : (form name).IsBarren := by
  rintro l (_ | r) q hq
  · cases hq
  · cases Option.some.inj hq
    rfl

theorem Joint.isBarren_call {name : String} (h : name ∈ foreignNames) : (call name).IsBarren := by
  rintro l (_ | r) q hq
  · cases hq
  · exact Option.some.inj hq ▸ isExpr_call_foreign h _

theorem isBarren_rangeMarks : ∀ e ∈ rangeMarks, e.2.IsBarren := by
  intro e he
  simp only [rangeMarks, List.mem_cons, List.not_mem_nil, or_false] at he
  rcases he with rfl | rfl | rfl | rfl | rfl | rfl | rfl | rfl | rfl | rfl | rfl | rfl
  all_goals first
    | exact Joint.isBarren_form _
    | exact Joint.isBarren_call (by decide)

theorem isBarren_rangeWords : ∀ e ∈ rangeWords, e.2.IsBarren := by
  intro e he
  simp only [rangeWords, List.mem_cons, List.not_mem_nil, or_false] at he
  rcases he with rfl | rfl | rfl | rfl | rfl | rfl | rfl
  all_goals first
    | exact Joint.isBarren_form _
    | exact Joint.isBarren_call (by decide)

theorem foreign_rangeOperator (left : Phrase) (ls : List Lexeme) :
    Ensures (rangeOperator g left) ls (Foreign ls) := by
  unfold rangeOperator
  extract_lets afterEscape afterJoint
  have hjoint (j : Joint) (hj : j.IsBarren) (mid : List Lexeme) :
      Ensures (afterJoint (some j)) mid (Foreign ls) := by
    refine .andThen fun right mid => ?_
    cases hjoined : j left right with
    | none => exact .failure
    | some q =>
        refine .andThen fun _ _ => .ite (fun _ => .andThen fun next _ => ?_) fun _ => ?_
        · split
          · exact .andThen fun _ _ => .pure rfl
          · exact .andThen fun _ _ => .pure rfl
        · exact .pure (hj left right q hjoined)
  refine .bind ((Joints.ensures_marked rangeMarks ls).mono fun found rest hfound => ?_)
  cases found with
  | some j =>
      obtain ⟨l, m, -, -, he⟩ := hfound.2 j rfl
      exact .bind (.pure (hjoint j (isBarren_rangeMarks _ he) rest))
  | none =>
      obtain rfl := hfound.1 rfl
      refine .bind (.key ?_)
      split
      · rename_i j hj
        exact .andThen fun _ _ =>
          .bind (.pure (hjoint j (isBarren_rangeWords _ (mem_of_lookup hj)) _))
      · exact .bind (.pure (.pure rfl))

theorem foreign_between (ls : List Lexeme) : Ensures (between g) ls (Foreign ls) := by
  refine .ifWord (by decide) (fun _ _ _ _ => ?_) (.pure rfl)
  exact .andThen fun _ _ => .andThen fun _ _ => .andThen fun _ _ => .andThen fun _ _ => .pure rfl

theorem foreign_membership (ls : List Lexeme) : Ensures (membership g) ls (Foreign ls) := by
  refine .ifWord (by decide) (fun _ _ _ _ => ?_) (.pure rfl)
  refine .andThen fun isOpen _ => .ite (fun _ => ?_) fun _ => ?_
  · exact .andThen fun _ _ => .andThen fun _ _ => .pure rfl
  · refine .andThen fun isOpen _ => .ite (fun _ => ?_) fun _ => ?_
    · exact .andThen fun _ _ => .andThen fun _ _ => .pure rfl
    · exact .andThen fun _ _ => .pure rfl

theorem foreign_comprehension (ls : List Lexeme) : Ensures (comprehension g) ls (Foreign ls) := by
  refine .bind (.get (.ifWord (by decide) (fun _ _ _ _ => .andThen fun _ _ => ?_) (.pure rfl)))
  extract_lets afterIf afterComma
  have hcomma (mid : List Lexeme) : Ensures (afterComma ()) mid (Foreign ls) := by
    refine .andThen fun _ _ => .ite (fun _ => ?_) fun _ => .bind (.set (.pure rfl))
    exact .andThen fun _ _ => .andThen fun _ _ =>
      .ite (fun _ => .andThen fun _ _ => .pure rfl) fun _ => .pure rfl
  exact .andThen fun _ _ => .ite (fun _ => .andThen fun _ _ => hcomma _) fun _ => hcomma _

/-- What a step of a range finds: nothing, no expression, or its operand with the word for a written
operator passed over. -/
def Passed (left : Phrase) (ls : List Lexeme) : Option Phrase → List Lexeme → Prop
  | none, rest => rest = ls
  | some q, rest => q.isExpr = false ∨ q = left ∧ ∃ l, ls = l :: rest ∧ l.key = "OPERATOR"

theorem passed_writtenOperator (left : Phrase) (ls : List Lexeme) :
    Ensures (writtenOperator g left) ls (Passed left ls) := by
  refine .ifWord (by decide) (fun l tail hls hl => ?_) (.pure rfl)
  refine .ifMark (fun _ _ _ _ => ?_) (.pure (.inr ⟨rfl, l, hls, hl⟩))
  exact .andThen fun _ _ => .andThen fun _ _ => .andThen fun _ _ => .andThen fun _ _ =>
    .pure (.inl rfl)

/-- Before the written operator come readers that take nothing or find no expression. -/
theorem passed_either {r s : Reader (Option Phrase)}
    (hr : ∀ ls, Ensures r ls (Foreign ls)) (hs : ∀ ls, Ensures s ls (Passed left ls))
    (ls : List Lexeme) : Ensures (either r s) ls (Passed left ls) := by
  refine .either ((hr ls).mono fun found rest h => ⟨?_, ?_⟩)
  · rintro p rfl
    exact .inl h
  · rintro rfl
    exact (show rest = ls from h) ▸ hs ls

theorem passed_rangeStep (left : Phrase) (ls : List Lexeme) :
    Ensures (rangeStep g left) ls (Passed left ls) :=
  passed_either (foreign_rangeOperator left) (passed_either foreign_between
    (passed_either foreign_membership (passed_either foreign_comprehension
      (passed_writtenOperator left)))) ls

/-- What a range finds after its operand: nothing, no expression, or the operand with the word for a
written operator passed over, where a NOT belongs to the operator that follows it. -/
def Ranged (left : Phrase) (ls : List Lexeme) : Option Phrase → List Lexeme → Prop
  | none, rest => rest = ls
  | some q, rest => q.isExpr = false ∨ (q = left ∧ ∃ l, ls = l :: rest ∧ l.key = "OPERATOR") ∨
      (q = .not left ∧ ∃ l m, ls = l :: m :: rest ∧ l.key = "NOT" ∧ m.key = "OPERATOR")

theorem ranged_rangeTail (left : Phrase) (ls : List Lexeme) :
    Ensures (rangeTail g left) ls (Ranged left ls) := by
  refine .bind (.get (.ifWord (by decide) (fun l tail hls hl => ?_) ?_))
  · refine .bind ((passed_rangeStep left tail).mono fun found rest hfound => ?_)
    cases found with
    | none => exact .bind (.set (.pure rfl))
    | some q =>
        refine .pure ?_
        rcases hfound with hq | ⟨rfl, m, rfl, hm⟩
        · exact .inl (by simpa [isExpr] using hq)
        · exact .inr (.inr ⟨rfl, l, m, hls, hl, hm⟩)
  · refine (passed_rangeStep left ls).mono fun found rest hfound => ?_
    cases found with
    | none => exact hfound
    | some q =>
        rcases hfound with hq | hq
        · exact .inl hq
        · exact .inr (.inl hq)

namespace Grammar.Explains

variable (hg : g.Explains)

include hg

theorem rangeFrom {first : Option Phrase} (h : Settled ls first mid) :
    Ensures (rangeFrom g first) mid (Explained ls) := by
  unfold Tabula.rangeFrom
  extract_lets afterFirst
  have htail (found : Option Phrase) (rest : List Lexeme) (hfound : Explained ls found rest) :
      Ensures (afterFirst found) rest (Explained ls) := by
    cases found with
    | none => exact .pure hfound
    | some p =>
        refine .bind ((ranged_rangeTail p rest).mono fun found last hlast => ?_)
        cases found with
        | none =>
            obtain rfl : last = rest := hlast
            exact .pure hfound
        | some q =>
            refine .pure fun hq => ?_
            rcases hlast with hnot | ⟨rfl, l, rfl, hl⟩ | ⟨rfl, l, m, rfl, hl, hm⟩
            · exact absurd hq (by simp [hnot])
            · obtain ⟨taken, rfl, huses⟩ := hfound hq
              exact ⟨taken ++ [l], by simp, huses.passed (.inr hl)⟩
            · obtain ⟨taken, rfl, huses⟩ := hfound (by simpa [isExpr] using hq)
              exact ⟨taken ++ [l, m], by simp, huses.notPassed hl hm⟩
  cases first with
  | some p => exact .bind (.pure (htail (some p) mid h))
  | none =>
      obtain rfl : mid = ls := h
      exact .bind ((hg.bits mid).mono htail)

theorem comparisonFrom {first : Option Phrase} (h : Settled ls first mid) :
    Ensures (comparisonFrom g first) mid (Explained ls) := by
  refine .bind ((hg.rangeFrom h).mono fun found rest hfound => explained_chainFrom
    (fun _ => hg.rangeFrom .none) (Joints.account_marked fun e he l hl => ?_) hfound)
  simp only [List.mem_cons, List.not_mem_nil, or_false] at he
  rcases he with rfl | rfl | rfl | rfl
  all_goals exact Joint.accounts_compare hl rfl

theorem equalityFrom {first : Option Phrase} (h : Settled ls first mid) :
    Ensures (equalityFrom g first) mid (Explained ls) := by
  refine .bind ((hg.comparisonFrom h).mono fun found rest hfound => explained_chainFrom
    (fun _ => hg.comparisonFrom .none)
    (Joints.account_marked fun e he l hl => ?_) hfound)
  simp only [List.mem_cons, List.not_mem_nil, or_false] at he
  rcases he with rfl | rfl | rfl | rfl | rfl
  · exact Joint.accounts_compare hl rfl
  · exact Joint.accounts_compare hl rfl
  · exact Joint.accounts_compare hl rfl
  · exact Joint.accounts_compare hl rfl
  · exact Joint.accounts_form _ _

end Grammar.Explains

/-! Going on from an operand, a level finds something. -/

theorem isSome_chainFrom {operand : Reader (Option Phrase)} {joints : Joints}
    {first : Option Phrase} (h : first.isSome = true) :
    Ensures (chainFrom operand joints first) mid fun found _ => found.isSome = true := by
  cases first with
  | none => cases h
  | some p => exact .andThen fun _ _ => .pure rfl

theorem isSome_rangeFrom {first : Option Phrase} (h : first.isSome = true) :
    Ensures (rangeFrom g first) mid fun found _ => found.isSome = true := by
  cases first with
  | none => cases h
  | some p =>
      refine .bind (.pure (.andThen fun found _ => ?_))
      cases found with
      | none => exact .pure rfl
      | some q => exact .pure rfl

theorem isSome_equalityFrom {first : Option Phrase} (h : first.isSome = true) :
    Ensures (equalityFrom g first) mid fun found _ => found.isSome = true :=
  .bind (.mono (.bind ((isSome_rangeFrom h).mono fun _ _ => isSome_chainFrom)) fun _ _ =>
    isSome_chainFrom)

/-! ### Tests -/

/-- What is found after an operand explains the lexemes of both; or nothing is found, and nothing
was taken. -/
def Continued (ls mid : List Lexeme) : Option Phrase → List Lexeme → Prop
  | none, rest => rest = mid
  | some p, rest => Explained ls (some p) rest

/-- What `IS` tests for: a null, by one word, or something that no expression tests for. -/
theorem ensures_testedFor (left : Phrase) (ls : List Lexeme) :
    Ensures (testedFor g left) ls fun found rest =>
      ∀ q ∈ found, q.isExpr = false ∨
        q = .isNull left ∧ ∃ l, ls = l :: rest ∧ l.key ∈ ["NULL", "UNKNOWN"] := by
  refine .ifOneOf (by decide) (fun l tail hls hl => .pure ?_) ?_
  · rintro _ ⟨⟩
    exact .inr ⟨rfl, l, hls, hl⟩
  refine .ifWord (by decide) (fun _ _ _ _ => ?_) ?_
  · refine .andThen fun _ _ => .andThen fun _ _ => .andThen fun _ _ => .andThen fun _ _ => .pure ?_
    rintro _ ⟨⟩
    exact .inl rfl
  · refine .andThen fun found _ => .pure ?_
    cases found with
    | none => exact nofun
    | some p =>
        rintro _ ⟨⟩
        exact .inl rfl

theorem ensures_nullTest (h : Explained ls (some left) mid) :
    Ensures (nullTest left) mid (Continued ls mid) := by
  refine .ifWord (by decide) (fun l tail hmid hl => .pure fun hq => ?_) ?_
  · obtain ⟨taken, rfl, huses⟩ := h (by simpa [isExpr] using hq)
    exact ⟨taken ++ [l], by simp [hmid], huses.isNull (by simp [hl])⟩
  refine .ifWord (by decide) (fun l tail hmid hl => .pure fun hq => ?_) ?_
  · obtain ⟨taken, rfl, huses⟩ := h (by simpa [isExpr] using hq)
    exact ⟨taken ++ [l], by simp [hmid], huses.notNull (by simp [hl])⟩
  refine .ifWords (fun words rest hmid hwords => .pure fun hq => ?_) (.pure rfl)
  obtain ⟨taken, rfl, huses⟩ := h (by simpa [isExpr] using hq)
  exact ⟨taken ++ words, by simp [hmid], huses.notNull (by simp [hwords])⟩

section Conditions

variable {suffix : Phrase → Reader Phrase}
  (hsuffix : ∀ p ls, Ensures (suffix p) ls (Kept p ls))

include hsuffix

/-- A test for a null after the words before it; any other test is no expression. -/
theorem ensures_isTest (h : Explained ls (some left) mid) :
    Ensures (isTest g suffix left) mid (Continued ls mid) := by
  refine .bind (.get (.ifWord (by decide) (fun l tail hmid hl => ?_) (.pure rfl)))
  subst hmid
  have hnegated : Ensures (word "NOT") tail fun negated start => ∃ before,
      l :: tail = before ++ start ∧
        before.map Lexeme.key = if negated then ["IS", "NOT"] else ["IS"] :=
    .word (by decide) (fun m rest htail hm => ⟨[l, m], by simp [htail], by simp [hl, hm]⟩)
      ⟨[l], rfl, by simp [hl]⟩
  refine .bind (hnegated.mono ?_)
  rintro negated start ⟨before, hstart, hbefore⟩
  refine .ifWords (fun _ _ _ _ => .andThen fun _ _ => .pure (.of_not_isExpr rfl)) ?_
  refine .bind ((ensures_testedFor left start).mono fun found rest hfound => ?_)
  cases found with
  | none => exact .bind (.set (.pure rfl))
  | some p =>
      have hp : Explained ls (some (if negated then .not p else p)) rest := by
        rcases hfound p rfl with hp | ⟨rfl, m, rfl, hm⟩
        · exact .of_not_isExpr (by cases negated <;> simpa [isExpr] using hp)
        · intro hq
          obtain ⟨taken, hls, huses⟩ := h (by cases negated <;> simpa [isExpr] using hq)
          refine ⟨taken ++ (before ++ [m]), by simp [hls, hstart], ?_⟩
          simp only [List.mem_cons, List.not_mem_nil, or_false] at hm
          cases negated with
          | true => exact huses.notNull (by rcases hm with hm | hm <;> simp [hbefore, hm])
          | false => exact huses.isNull (by rcases hm with hm | hm <;> simp [hbefore, hm])
      exact .bind ((hsuffix _ rest).mono fun q last hq => .pure (hp.of_kept hq))

namespace Grammar.Explains

variable (hg : g.Explains)

include hg

theorem testTail (h : Explained ls (some left) mid) :
    Ensures (testTail g suffix left) mid fun found rest =>
      (∀ q ∈ found, Explained ls (some q) rest) ∧
        (found = none → Explained ls (some left) rest) := by
  have htested : Ensures (either (isTest g suffix left) (nullTest left)) mid
      (Continued ls mid) := by
    refine .either ((ensures_isTest hsuffix h).mono fun found rest hfound => ⟨?_, ?_⟩)
    · rintro q rfl
      exact hfound
    · rintro rfl
      obtain rfl : rest = mid := hfound
      exact ensures_nullTest h
  refine .bind (htested.mono fun found rest hfound => ?_)
  cases found with
  | none =>
      obtain rfl : rest = mid := hfound
      exact .pure ⟨nofun, fun _ => h⟩
  | some q =>
      have hq : Settled ls (some q) rest := hfound
      intro found last hlast
      have hexplained := hg.equalityFrom hq found last hlast
      have hsome := isSome_equalityFrom rfl found last hlast
      cases found with
      | none => cases hsome
      | some r => exact ⟨fun _ hr => Option.some.inj hr ▸ hexplained, nofun⟩

theorem conditionRule (ls : List Lexeme) :
    Ensures (conditionRule g suffix) ls (Explained ls) := by
  refine .bind ((hg.equalityFrom .none).mono fun found rest hfound => ?_)
  cases found with
  | none => exact .ifWord (by decide) (fun _ _ _ _ => .failure) (.pure hfound)
  | some p =>
      exact .bind (.mono (.goOn (I := fun q rest => Explained ls (some q) rest) hfound
        fun q rest hq => hg.testTail hsuffix hq) fun _ _ hq => .pure hq)

end Grammar.Explains

end Conditions

namespace Grammar.Explains

variable (hg : g.Explains)

include hg

theorem disjunctionRule (ls : List Lexeme) :
    Ensures (disjunctionRule g) ls (Explained ls) :=
  explained_chain (explained_chain hg.condition
    (Joints.account_worded (by decide) fun _ hl => Joint.accounts_junction .and hl))
    (Joints.account_worded (by decide) fun _ hl => Joint.accounts_junction .or hl) ls

theorem signedRule {operand : Reader (Option Phrase)}
    (hoperand : ∀ ls, Ensures operand ls (Explained ls)) (ls : List Lexeme) :
    Ensures (signedRule g operand) ls (Explained ls) := by
  refine .ifMark (fun l tail hls hl => ?_) ?_
  · subst hls
    refine (hg.signed tail).mono fun found rest hfound => ?_
    cases found with
    | none =>
        obtain ⟨lost, rfl, hlost⟩ := hfound
        exact ⟨l :: lost, rfl, List.forall_mem_cons.2 ⟨.inl hl, hlost⟩⟩
    | some p =>
        intro hp
        obtain ⟨taken, rfl, huses⟩ := hfound hp
        exact ⟨l :: taken, rfl, .plus hl huses⟩
  refine .ifMark (fun l tail hls hl => ?_) ?_
  · subst hls
    refine .bind (.need ((hg.signed tail).mono ?_))
    rintro found rest hfound p rfl
    refine .pure fun hp => ?_
    obtain ⟨taken, rfl, huses⟩ := hfound (by simpa [isExpr] using hp)
    exact ⟨l :: taken, rfl, .minus hl huses⟩
  refine .ifMark (fun _ _ _ _ => .andThen fun _ _ => .pure (.of_not_isExpr rfl)) ?_
  refine .ifWord (by decide) (fun l tail hls hl => ?_) (hoperand ls)
  subst hls
  refine .bind (.need ((hg.condition tail).mono ?_))
  rintro found rest hfound p rfl
  refine .pure fun hp => ?_
  obtain ⟨taken, rfl, huses⟩ := hfound (by simpa [isExpr] using hp)
  exact ⟨l :: taken, rfl, .not hl huses⟩

end Grammar.Explains

end Tabula
