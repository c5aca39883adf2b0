import Tabula.Proofs.Expr.Accounting

/-!
Readers of what no expression is: queries, types, spans of time, statements with a word of their
own, and calls whose arguments have a grammar of their own. Whatever they find is no expression, and
where they find nothing, they have taken nothing. What may follow an operand or a call leaves it as
it is, or makes something of it that is no expression.
-/

namespace Tabula

open Reader Phrase

/-- Nothing is found and nothing taken, or what is found is no expression. -/
def Foreign (ls : List Lexeme) : Option Phrase → List Lexeme → Prop
  | none, rest => rest = ls
  | some p, _ => p.isExpr = false

/-- Whatever is found is no expression. -/
def Barren (r : Reader Phrase) : Prop := ∀ ls, Ensures r ls fun p _ => p.isExpr = false

namespace Barren

variable {α : Type} {r s : Reader Phrase}

theorem pure {p : Phrase} (h : p.isExpr = false) : Barren (Pure.pure p) := fun _ => .pure h

theorem failure : Barren failure := fun _ => .failure

theorem andThen {x : Reader α} {f : α → Reader Phrase} (h : ∀ a, Barren (f a)) :
    Barren (x >>= f) :=
  fun _ => .andThen fun a mid => h a mid

theorem ite {c : Prop} [Decidable c] (h : Barren r) (h' : Barren s) :
    Barren (if c then r else s) := by
  split
  · exact h
  · exact h'

theorem goOn {step : Phrase → Reader (Option Phrase)} {p : Phrase} (hp : p.isExpr = false)
    (hstep : ∀ p ls, p.isExpr = false →
      Ensures (step p) ls fun found _ => ∀ q ∈ found, q.isExpr = false) :
    Barren (goOn step p) :=
  fun _ => .goOn hp fun p ls hp => (hstep p ls hp).mono fun _ _ h => ⟨h, fun _ => hp⟩

end Barren

/-- The phrase is the one before and nothing was taken, or it is no expression. -/
def Kept (p : Phrase) (ls : List Lexeme) (q : Phrase) (rest : List Lexeme) : Prop :=
  q = p ∧ rest = ls ∨ q.isExpr = false

/-- Steps each of which takes nothing or finds what is no expression. -/
theorem kept_goOn {step : Phrase → Reader (Option Phrase)}
    (hstep : ∀ p ls, Ensures (step p) ls (Foreign ls)) (p : Phrase) (ls : List Lexeme) :
    Ensures (goOn step p) ls (Kept p ls) := by
  refine .goOn (.inl ⟨rfl, rfl⟩) fun q mid hkept => (hstep q mid).mono fun found rest h => ?_
  cases found with
  | none =>
      obtain rfl : rest = mid := h
      exact ⟨nofun, fun _ => hkept⟩
  | some q' => exact ⟨fun _ hq => Option.some.inj hq ▸ .inr h, nofun⟩

variable {g : Grammar} {ls : List Lexeme} {p : Phrase}

/-! ### Queries -/

theorem foreign_setWord : Ensures setWord ls fun found rest => found = none → rest = ls := by
  refine .ifWord (by decide) (fun _ _ _ _ => .pure nofun) ?_
  refine .ifWord (by decide) (fun _ _ _ _ => .pure nofun) ?_
  exact .ifWord (by decide) (fun _ _ _ _ => .pure nofun) (.pure fun _ => rfl)

theorem foreign_setOperation (p : Phrase) (ls : List Lexeme) :
    Ensures (setOperation g p) ls (Foreign ls) := by
  refine .bind (foreign_setWord.mono fun found rest h => ?_)
  cases found with
  | none => exact .pure (h rfl)
  | some name =>
      refine .andThen fun isAll mid => ?_
      cases isAll with
      | true => exact .andThen fun _ _ => .andThen fun _ _ => .pure rfl
      | false => exact .andThen fun _ _ => .andThen fun _ _ => .andThen fun _ _ => .pure rfl

theorem kept_setOperations (p : Phrase) (ls : List Lexeme) :
    Ensures (setOperations g p) ls (Kept p ls) :=
  kept_goOn foreign_setOperation p ls

theorem isExpr_of_isQuery (h : p.isQuery = true) : p.isExpr = false := by
  cases p with
  | form name => rfl
  | _ => cases h

theorem kept_withClauses (p : Phrase) (ls : List Lexeme) :
    Ensures (withClauses g p) ls (Kept p ls) := by
  refine .ite (fun hquery => ?_) fun _ => .pure (.inl ⟨rfl, rfl⟩)
  have hbarren : Barren (goOn (fun p => do return (← clause g).map fun _ => p) p) := by
    refine .goOn (isExpr_of_isQuery hquery) fun p ls hp => .andThen fun found _ => .pure ?_
    cases found with
    | none => exact nofun
    | some _ => exact fun _ hq => Option.some.inj hq ▸ hp
  exact (hbarren ls).mono fun _ _ h => .inr h

theorem Kept.isExpr_eq {q : Phrase} {rest : List Lexeme} (h : Kept p ls q rest)
    (hp : p.isExpr = false) : q.isExpr = false :=
  h.elim (fun h => h.1 ▸ hp) id

theorem barren_withClauses (hp : p.isExpr = false) : Barren (withClauses g p) :=
  fun ls => (kept_withClauses p ls).mono fun _ _ h => h.isExpr_eq hp

theorem barren_setOperations (hp : p.isExpr = false) : Barren (setOperations g p) :=
  fun ls => (kept_setOperations p ls).mono fun _ _ h => h.isExpr_eq hp

theorem foreign_values (ls : List Lexeme) : Ensures (values g) ls (Foreign ls) := by
  refine .ifWord (by decide) (fun _ _ _ _ => ?_) (.pure rfl)
  refine .andThen fun rows _ => .ite (fun _ => ?_) fun _ => .andThen fun _ _ => .pure rfl
  exact .andThen fun _ _ => .andThen fun _ _ => .pure rfl

theorem barren_selection : Barren (selection g) := by
  unfold selection
  extract_lets afterInto afterDistinct
  have hinto : Barren (afterInto ()) := .andThen fun _ => barren_withClauses rfl
  have hdistinct : Barren (afterDistinct ()) :=
    .andThen fun _ => .andThen fun _ => .ite
      (.andThen fun _ => .andThen fun _ => .andThen fun _ => hinto) hinto
  refine .andThen fun _ => .ite hdistinct ?_
  refine .andThen fun _ => .ite hdistinct (.andThen fun _ => .ite ?_ hdistinct)
  exact .andThen fun _ => .ite (.andThen fun _ => hdistinct) hdistinct

theorem barren_describeOf : Barren (describeOf g) :=
  .andThen fun _ => .andThen fun _ => .pure rfl

theorem ensures_tables (ls : List Lexeme) :
    Ensures (tables g) ls fun found rest => found = false → rest = ls := by
  refine .ifWord (by decide) (fun _ _ _ _ => ?_) (.pure fun _ => rfl)
  exact .andThen fun _ _ => .andThen fun _ _ => .pure nofun

/-- What a barren reader finds, where something may be missing. -/
theorem Barren.some {r : Reader Phrase} (h : Barren r) (start ls : List Lexeme) :
    Ensures (do return Option.some (← r)) ls (Foreign start) :=
  .bind ((h ls).mono fun _ _ hp => .pure hp)

theorem foreign_select (nested : Bool) (ls : List Lexeme) :
    Ensures (selectRule g nested) ls (Foreign ls) := by
  have hoperations {r : Reader Phrase} (h : Barren r) (mid : List Lexeme) :
      Ensures (do return some (← setOperations g (← r))) mid (Foreign ls) :=
    .bind ((h mid).mono fun _ rest hp => (barren_setOperations hp).some ls rest)
  refine .ifWord (by decide) (fun _ _ _ _ => ?_) ?_
  · refine .andThen fun _ _ => .andThen fun _ _ => .andThen fun statement _ => ?_
    split
    · exact .ite (fun _ => .pure rfl) fun _ => .failure
    · exact .failure
  refine .bind ((ensures_tables ls).mono fun isFromFirst mid hmid => ?_)
  refine .ifWord (by decide) (fun _ _ _ _ => hoperations barren_selection _) ?_
  refine .ite (fun _ => hoperations (barren_withClauses rfl) mid) fun hnot => ?_
  obtain rfl := hmid (by simpa using hnot)
  have hopen : Ensures (provided nested (mark "(")) mid fun isOpen rest =>
      isOpen = false → rest = mid := .provided .mark_false fun _ => rfl
  refine .bind (hopen.mono fun isOpen rest hrest => .ite (fun _ => ?_) fun hno => ?_)
  · exact .andThen fun _ _ => .andThen fun _ _ => .andThen fun _ _ => .andThen fun _ _ => .pure rfl
  obtain rfl := hrest (by simpa using hno)
  refine .bind (.key (.ite (fun _ => ?_) fun _ => ?_))
  · refine .bind ((foreign_values rest).mono fun found last hfound => ?_)
    cases found with
    | none => exact .pure hfound
    | some p => exact (barren_setOperations hfound).some rest last
  refine .ifWord (by decide) (fun _ _ _ _ => ?_) ?_
  · exact .andThen fun _ _ => .andThen fun _ _ => .pure rfl
  · refine .ifWord (by decide) (fun _ _ _ _ => ?_) (.pure rfl)
    exact barren_describeOf.some rest _

/-! ### Types -/

theorem barren_bracketLists (start : List Lexeme) (bound : Nat) (named afterWord : Bool)
    (hp : p.isExpr = false) : Barren (bracketLists g start bound named afterWord p) := by
  induction bound generalizing named afterWord p with
  | zero => exact .pure hp
  | succ bound ih =>
      rw [bracketLists]
      refine .andThen fun _ => .ite (.pure hp) (.andThen fun _ => .ite (.pure hp) ?_)
      refine .andThen fun _ => .ite (.pure hp) (.andThen fun sizes => .andThen fun _ => ?_)
      refine .ite (.andThen fun _ => .pure hp) (.andThen fun _ => ih false false rfl)

theorem barren_listOf (hp : p.isExpr = false) : Barren (listOf g p) := by
  intro ls
  have hlists : Barren (goOn (fun _ => do
      if ← word "LIST" then return some (.type "LIST" true) else return none) p) := by
    refine .goOn hp fun _ _ _ => .ifWord (by decide) (fun _ _ _ _ => ?_) ?_
    · exact .pure fun _ hq => Option.some.inj hq ▸ rfl
    · exact .pure nofun
  refine .bind ((hlists ls).mono fun p mid hp => ?_)
  refine .andThen fun start _ => .andThen fun isNamed _ => ?_
  exact barren_bracketLists start _ _ _ hp _

theorem ensures_angled (key : String) (inside : Bool) (ls : List Lexeme) :
    Ensures (angled g key inside) ls fun found _ => ∃ p, found = some p ∧ p.isExpr = false := by
  refine .andThen fun items _ => .andThen fun _ _ => .andThen fun start _ => ?_
  refine .andThen fun isOpen _ => ?_
  refine .ite (fun _ => .andThen fun values _ => .ite (fun _ => ?_) fun _ => ?_) fun _ => ?_
  · exact .andThen fun _ _ => .pure ⟨_, rfl, rfl⟩
  · refine .andThen fun isClosed _ => .ite (fun _ => ?_) fun _ => .pure ⟨_, rfl, rfl⟩
    exact .andThen fun _ _ => .pure ⟨_, rfl, rfl⟩
  · exact .pure ⟨_, rfl, rfl⟩

theorem foreign_wordedType (inside : Bool) (start : List Lexeme) (key : String) (ls : List Lexeme) :
    Ensures (wordedType g inside start key) ls (Foreign start) := by
  have hback (mid : List Lexeme) : Ensures (do set start; return none) mid (Foreign start) :=
    .bind (.set (.pure rfl))
  refine .andThen fun isMap _ => .ite (fun _ => ?_) fun _ => ?_
  · exact .andThen fun _ _ => .ite (fun _ => .pure rfl) fun _ => hback _
  -- What follows each choice is a continuation of its own, taken from the last to the first.
  refine .andThen fun isCall _ => ?_
  extract_lets afterParameters
  have hparameters (parameters : Option Nat) (mid : List Lexeme) :
      Ensures (afterParameters parameters) mid (Foreign start) := by
    cases parameters with
    | none => exact hback _
    | some count =>
        refine .andThen fun isNested mid => ?_
        extract_lets afterBase
        have hbase (p : Phrase) (hp : p.isExpr = false) (mid : List Lexeme) :
            Ensures (afterBase (some p)) mid (Foreign start) := by
          unfold afterBase
          extract_lets result afterZone
          have hresult (mid : List Lexeme) : Ensures (result ()) mid (Foreign start) := by
            unfold result
            split
            · exact (barren_listOf rfl).some _ _
            · exact .pure hp
          have hzone (isZoned : Bool) (mid : List Lexeme) :
              Ensures (afterZone isZoned) mid (Foreign start) := by
            unfold afterZone
            extract_lets needsText afterSpan
            have hspan (mid : List Lexeme) : Ensures (afterSpan ()) mid (Foreign start) := by
              refine .andThen fun _ mid => .ite (fun _ => hback mid) fun _ => ?_
              refine .andThen fun isUnsigned mid => .ite (fun _ => ?_) fun _ => hresult mid
              exact .ite (fun _ => .bind .failure) fun _ => hresult mid
            exact .ite (fun _ => .andThen fun _ _ => hspan _) fun _ => hspan _
          exact .ite (fun _ => .andThen hzone) fun _ => .andThen hzone
        refine .ite (fun _ => ?_) fun _ => ?_
        · refine .bind ((ensures_angled key inside mid).mono ?_)
          rintro _ rest ⟨p, rfl, hp⟩
          exact hbase p hp rest
        · exact .bind (.pure (hbase (.type key (0 < count)) rfl mid))
  exact .ite (fun _ => .andThen hparameters) fun _ => .andThen hparameters

theorem foreign_namedType (ls : List Lexeme) : Ensures (namedType g) ls (Foreign ls) := by
  refine .bind (.peek ?_)
  cases ls with
  | nil => exact .pure rfl
  | cons l tail =>
      refine .ite (fun _ => ?_) fun _ => .pure rfl
      refine .bind (.skip (.andThen fun _ _ => .andThen fun _ _ => .andThen fun start mid => ?_))
      refine .andThen fun isCall mid => ?_
      extract_lets afterParameters
      have hparameters (parameters : Option Nat) (mid : List Lexeme) :
          Ensures (afterParameters parameters) mid (Foreign (l :: tail)) := by
        cases parameters with
        | none => exact .bind (.set (.pure rfl))
        | some count => exact (barren_listOf rfl).some _ _
      exact .ite (fun _ => .andThen hparameters) fun _ => .andThen hparameters

theorem foreign_type (inside : Bool) (ls : List Lexeme) :
    Ensures (typeRule g inside) ls (Foreign ls) := by
  refine .bind (.get (.bind (.peek ?_)))
  cases ls with
  | nil => exact .pure rfl
  | cons l tail =>
      refine .ite (fun _ => .bind (.skip (foreign_wordedType inside _ _ _))) fun _ => ?_
      exact .ite (fun _ => .pure rfl) fun _ => foreign_namedType _

theorem foreign_interval (ls : List Lexeme) : Ensures (interval g) ls (Foreign ls) := by
  refine .bind (.get (.ifWord (by decide) (fun _ _ _ _ => ?_) (.pure rfl)))
  exact .andThen fun _ _ => .andThen fun _ _ =>
    .ite (fun _ => .pure rfl) fun _ => .bind (.set (.pure rfl))

end Tabula
