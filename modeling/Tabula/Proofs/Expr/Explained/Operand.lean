import Tabula.Proofs.Expr.Explained.Operator

/-!
Names, calls, lists and operands account for what they take. A word for an alias without a name
after it is passed over, and items of a list may be missing.
-/

namespace Tabula

open Reader Phrase

variable {g : Grammar} {ls mid rest : List Lexeme} {p : Phrase} {found : Option Phrase}

/-! ### Names -/

theorem foreign_placeholder (ls : List Lexeme) : Ensures placeholder ls (Foreign ls) := by
  refine .bind (.peekSecond (.bind (.peekSecond ?_)))
  refine .ifMark (fun _ _ _ _ => .pure rfl) ?_
  refine .bind (.atMark (.bind (.atMark (.ite (fun _ => ?_) fun _ => .pure rfl))))
  exact .andThen fun _ _ => .andThen fun _ _ => .andThen fun _ _ => .pure rfl

/-- What `nameIf` finds: the lexeme for a name, or no expression. -/
def Named (isOne : Token → Bool) (ls : List Lexeme) : Option Phrase → List Lexeme → Prop
  | none, rest => rest = ls
  | some p, rest => p.isExpr = false ∨ ∃ l n comments, ls = l :: rest ∧ p = .path [] n comments ∧
      n.text = l.token.text ∧ (isOne l.token = true ∨ ∃ m, l.token = .name m)

theorem named_nameIf (isOne : Token → Bool) (ls : List Lexeme) :
    Ensures (nameIf isOne) ls (Named isOne ls) := by
  refine .bind (.peek ?_)
  cases ls with
  | nil => exact .pure rfl
  | cons l tail =>
      obtain ⟨token, comments⟩ := l
      have hname {n : WrittenName} (hn : n.text = token.text)
          (hone : isOne token = true ∨ ∃ m, token = .name m) :
          Named isOne (⟨token, comments⟩ :: tail) (some (.path [] n comments)) tail :=
        .inr ⟨⟨token, comments⟩, n, comments, rfl, rfl, hn, hone⟩
      cases token with
      | name n => exact .bind (.skip (.pure (hname rfl (.inr ⟨n, rfl⟩))))
      | _ =>
          refine .bind ((foreign_placeholder _).mono fun found rest hfound => ?_)
          cases found with
          | some p => exact .pure (.inl hfound)
          | none =>
              obtain rfl : rest = _ := hfound
              refine .ite (fun hone => .bind (.skip ?_)) fun _ => .pure rfl
              exact .pure (hname rfl (.inl hone))

/-- No literal in a notation of its own is taken for a name. -/
theorem settled_nameIf {isOne : Token → Bool} {ls : List Lexeme}
    (h : ∀ l ∈ ls.head?, ∀ form, l.token = .literal form → isOne l.token = false) :
    Ensures (nameIf isOne) ls (Settled ls) := by
  refine (named_nameIf isOne ls).mono fun found rest hfound => ?_
  cases found with
  | none => exact hfound
  | some p =>
      rcases hfound with hp | ⟨l, n, comments, rfl, rfl, hn, hone⟩
      · exact .of_not_isExpr hp
      · refine fun _ => ⟨[l], rfl, .name hn fun form hl => ?_⟩
        rcases hone with hone | ⟨m, hm⟩
        · simp [h l rfl form hl] at hone
        · rw [hl] at hm
          cases hm

theorem settled_nameOf (ls : List Lexeme) : Ensures (nameOf false) ls (Settled ls) :=
  settled_nameIf fun l _ form hl => by simp [hl, Token.mayName, Token.isPlain, Token.key]

theorem Explained.passed {l : Lexeme} (h : Explained ls found (l :: rest)) (hl : l.key = "AS") :
    Explained ls found rest := by
  cases found with
  | none =>
      obtain ⟨lost, rfl, hlost⟩ := h
      refine ⟨lost ++ [l], by simp, List.forall_mem_append.2 ⟨hlost, ?_⟩⟩
      simpa using .inr hl
  | some p =>
      intro hp
      obtain ⟨taken, rfl, huses⟩ := h hp
      exact ⟨taken ++ [l], by simp, huses.passed (.inl hl)⟩

theorem ensures_beginsLimit (ls : List Lexeme) :
    Ensures (beginsLimit g) ls fun _ rest => rest = ls :=
  .bind (.get (.ifOneOf (by decide)
    (fun _ _ _ _ => .andThen fun _ _ => .bind (.set (.pure rfl))) (.pure rfl)))

/-- Without an alias, only the word for one may be taken. -/
theorem explained_aliasOf (explicit : Bool) (h : Explained ls found mid) :
    Ensures (aliasOf g explicit found) mid (Explained ls) := by
  refine .bind ((ensures_beginsLimit mid).mono fun limited start hstart => ?_)
  obtain rfl := hstart.symm
  refine .ite (fun _ => .pure h) fun _ => ?_
  have hword : Ensures (word "AS") mid fun _ rest => Explained ls found rest :=
    .word (by decide) (fun l tail hmid hl => .passed (hmid ▸ h) hl) h
  refine .bind (hword.mono fun must rest hrest => .ite (fun _ => .pure hrest) fun _ => ?_)
  refine .ifMark (fun _ _ _ _ => ?_) ?_
  · exact .andThen fun _ _ => .andThen fun _ _ =>
      .ite (fun _ => .failure) fun _ => .pure (.of_not_isExpr rfl)
  refine .bind ((named_nameIf _ rest).mono fun name last hlast => ?_)
  cases name with
  | none =>
      obtain rfl : last = rest := hlast
      exact .pure hrest
  | some n =>
      cases found with
      | none => exact .failure
      | some p => exact .pure (.of_not_isExpr rfl)

theorem ensures_aliasBefore (ls : List Lexeme) : Ensures (aliasBefore g) ls (Foreign ls) := by
  refine .bind (.secondAtMark (.ite (fun _ => ?_) fun _ => .pure rfl))
  exact .andThen fun _ _ => .andThen fun _ _ => .andThen fun _ _ => .pure rfl

/-! ### Lists -/

theorem Explained.toList (h : Explained ls found rest)
    (hfound : areExprs found.toList = true) :
    ∃ taken, ls = taken ++ rest ∧ UsesAll found.toList taken := by
  cases found with
  | none =>
      obtain ⟨lost, hls, hlost⟩ := h
      exact ⟨lost, hls, .none hlost⟩
  | some p =>
      obtain ⟨taken, hls, huses⟩ := h (by simpa [areExprs] using hfound)
      exact ⟨taken, hls, .one huses⟩

section Lists

variable {item : Reader (Option Phrase)} (hitem : ∀ ls, Ensures item ls (Explained ls))

include hitem

theorem ensures_moreItems (bound : Nat) (ls : List Lexeme) :
    Ensures (moreItems item bound) ls fun found rest => areExprs found.1 = true →
      ∃ taken, ls = taken ++ rest ∧
        ∀ ps before, UsesAll ps before → UsesAll (ps ++ found.1) (before ++ taken) := by
  have hnothing (mid : List Lexeme) : ∃ taken, mid = taken ++ mid ∧
      ∀ ps before, UsesAll ps before → UsesAll (ps ++ []) (before ++ taken) :=
    ⟨[], rfl, fun ps before h => by simpa using h⟩
  induction bound generalizing ls with
  | zero => exact .pure fun _ => hnothing ls
  | succ bound ih =>
      refine .ifMark (fun l tail hls hl => ?_) (.pure fun _ => hnothing ls)
      refine .bind ((hitem tail).mono fun first mid hfirst => ?_)
      refine .bind ((ih mid).mono fun others rest hothers => .pure fun hexprs => ?_)
      rw [areExprs_append, Bool.and_eq_true] at hexprs
      obtain ⟨taken, rfl, huses⟩ := hfirst.toList hexprs.1
      obtain ⟨more, rfl, hmore⟩ := hothers hexprs.2
      refine ⟨l :: taken ++ more, by simp [hls], fun ps before h => ?_⟩
      simpa using hmore _ _ (h.more hl huses)

theorem ensures_listed (ls : List Lexeme) :
    Ensures (listed item) ls fun found rest => areExprs found.1 = true →
      ∃ taken, ls = taken ++ rest ∧ UsesAll found.1 taken := by
  refine .bind ((hitem ls).mono fun first mid hfirst => .bind (.get ?_))
  refine .bind ((ensures_moreItems hitem mid.length mid).mono fun others rest hothers => ?_)
  refine .pure fun hexprs => ?_
  rw [areExprs_append, Bool.and_eq_true] at hexprs
  obtain ⟨taken, rfl, huses⟩ := hfirst.toList hexprs.1
  obtain ⟨more, rfl, hmore⟩ := hothers hexprs.2
  exact ⟨taken ++ more, by simp, hmore _ _ huses⟩

theorem ensures_separated (ls : List Lexeme) :
    Ensures (separated item) ls fun found rest => areExprs found = true →
      ∃ taken, ls = taken ++ rest ∧ UsesAll found taken :=
  .bind ((ensures_listed hitem ls).mono fun _ _ h => .pure h)

end Lists

/-! ### Arguments -/

theorem foreign_abstraction (ls : List Lexeme) : Ensures (abstraction g) ls (Foreign ls) := by
  refine .bind (.get (.andThen fun _ _ => ?_))
  refine .andThen fun isFunction _ => .ite (fun _ => .andThen fun _ _ => .pure rfl) fun _ => ?_
  refine .andThen fun isNamed _ => .ite (fun _ => .andThen fun _ _ => .pure rfl) fun _ => ?_
  exact .bind (.set (.pure rfl))

theorem foreign_lambda (ls : List Lexeme) : Ensures (lambda g) ls (Foreign ls) := by
  refine .bind (.get (.ifWord (by decide) (fun _ _ _ _ => ?_) (.pure rfl)))
  refine .andThen fun _ _ => .andThen fun isFunction _ => .ite (fun _ => ?_) fun _ => ?_
  · exact .andThen fun _ _ => .pure rfl
  · exact .bind (.set (.pure rfl))

theorem explained_nullChoice (h : Explained ls found mid) :
    Ensures (nullChoice found) mid (Explained ls) := by
  refine (ensures_nullChoice found mid).mono ?_
  rintro q rest (⟨rfl, rfl⟩ | ⟨q, rfl, hq⟩)
  · exact h
  · exact .of_not_isExpr hq

theorem ensures_ordering (ls : List Lexeme) :
    Ensures (ordering g) ls fun found rest => found = false → rest = ls := by
  refine .ifWord (by decide) (fun _ _ _ _ => ?_) (.pure fun _ => rfl)
  exact .andThen fun _ _ => .ite (fun _ => .failure) fun _ => .pure nofun

theorem ensures_limitForm (ls : List Lexeme) :
    Ensures (limitForm g) ls fun found rest => found = none → rest = ls := by
  refine .ifWord (by decide) (fun _ _ _ _ => ?_) (.ifWord (by decide) (fun _ _ _ _ => ?_)
    (.pure fun _ => rfl))
  · exact .andThen fun _ _ => .andThen fun _ _ =>
      .ite (fun _ => .andThen fun _ _ => .pure nofun) fun _ => .pure nofun
  · exact .andThen fun _ _ => .andThen fun _ _ => .andThen fun _ _ => .andThen fun _ _ =>
      .andThen fun _ _ => .andThen fun _ _ => .pure nofun

namespace Grammar.Explains

variable (hg : g.Explains)

include hg

theorem plainArgument (named : Bool) (ls : List Lexeme) :
    Ensures (plainArgument g named) ls (Explained ls) := by
  refine .ifWord (by decide) (fun _ _ _ _ => ?_) ?_
  · exact .andThen fun _ _ => .pure (.of_not_isExpr rfl)
  refine .bind ((hg.select false ls).mono fun found rest hfound => ?_)
  cases found with
  | some p => exact .pure (.of_foreign hfound)
  | none =>
      obtain rfl : rest = ls := hfound
      refine .bind ((hg.assignment rest).mono fun p mid hp => ?_)
      exact .ite (fun _ => explained_aliasOf true hp) fun _ => .pure hp

/-- What may follow an argument makes it no expression. -/
theorem argumentRule (named : Bool) (ls : List Lexeme) :
    Ensures (argumentRule g named) ls (Explained ls) := by
  refine .bind (.key (.ite (fun _ => ?_) fun _ => ?_))
  · refine .bind ((foreign_lambda ls).mono fun found rest hfound => ?_)
    cases found with
    | some p => exact .pure (.of_foreign hfound)
    | none => exact .pure (.of_foreign hfound)
  refine .bind ((foreign_abstraction ls).mono fun found rest hfound => ?_)
  cases found with
  | some p => exact .pure (.of_foreign hfound)
  | none =>
      obtain rfl : rest = ls := hfound
      refine .bind ((hg.plainArgument named rest).mono fun p mid hp => ?_)
      refine .bind ((explained_nullChoice hp).mono fun q mid hq => ?_)
      refine .bind (.mono (.word_false (by decide)) fun isHaving last hmid => ?_)
      extract_lets afterHaving
      have hhaving (p : Option Phrase) (mid : List Lexeme) (hp : Explained rest p mid) :
          Ensures (afterHaving p) mid (Explained rest) := by
        refine .bind ((explained_nullChoice hp).mono fun q mid hq => ?_)
        refine .bind ((ensures_ordering mid).mono fun isOrdered after hafter => ?_)
        have hordered : Explained rest (if isOrdered then some (.form "Order") else q) after := by
          cases isOrdered with
          | true => exact .of_not_isExpr rfl
          | false => exact hafter rfl ▸ hq
        refine .bind ((ensures_limitForm after).mono fun limited last hlast => ?_)
        cases limited with
        | some name => exact .pure (.of_not_isExpr rfl)
        | none => exact .pure (hlast rfl ▸ hordered)
      refine .ite (fun _ => .andThen fun _ _ => .andThen fun _ _ => ?_) fun hno => ?_
      · exact .bind (.pure (hhaving _ _ (.of_not_isExpr rfl)))
      · obtain rfl := hmid (by simpa using hno)
        exact .bind (.pure (hhaving q _ hq))

end Grammar.Explains

/-! ### Calls -/

/-- The next word is taken for a name at most. -/
theorem ensures_plainWord (ls : List Lexeme) :
    Ensures plainWord ls fun _ rest => Renames ls rest := by
  refine .bind (.secondAtMark (.ite (fun _ => ?_) fun _ => .pure (.kept ls)))
  rintro _ rest hrest
  cases hrest
  rcases ls with _ | ⟨⟨token, comments⟩, tail⟩
  · exact .kept []
  · cases token with
    | word w =>
        dsimp only
        split
        · exact .kept _
        · exact .named w comments tail
    | _ => exact .kept _

theorem Phrase.Renames.prefix {all taken rest : List Lexeme} (h : Renames all (taken ++ rest))
    (htaken : taken ≠ []) : ∃ before, all = before ++ rest ∧ Renames before taken := by
  generalize hmid : taken ++ rest = after at h
  cases h with
  | kept => exact ⟨taken, hmid.symm, .kept taken⟩
  | named w comments tail =>
      cases taken with
      | nil => exact absurd rfl htaken
      | cons l taken =>
          obtain ⟨rfl, rfl⟩ := List.cons_eq_cons.1 hmid
          exact ⟨⟨.word w, comments⟩ :: taken, rfl, .named w comments taken⟩

/-- What may follow a call leaves it as it is, or makes no expression of it. -/
theorem settled_afterCall (h : Explained ls (some p) mid) :
    Ensures (do return some (← afterCall g p)) mid (Settled ls) :=
  .bind ((kept_afterCall p mid).mono fun _ _ hq => .pure (h.of_kept hq))

theorem isExpr_abs_nil : (Phrase.call "ABS" []).isExpr = false := by decide +kernel

theorem Phrase.areExprs_of_call {name : String} {args : List Phrase}
    (h : (Phrase.call name args).isExpr = true) : areExprs args = true :=
  (Bool.and_eq_true _ _ ▸ h : _ ∧ _).2

namespace Grammar.Explains

variable (hg : g.Explains)

include hg

/-- A call of a function by the name that it is known by, or by what is written. -/
theorem calledWith (t : Token) (ls : List Lexeme) :
    Ensures (calledWith g t (Text.upper t.text) false) ls fun p rest => p.isExpr = true →
      ∃ name args taken, p = .call name args ∧ Names t name ∧ ls = taken ++ rest ∧
        UsesAll args taken := by
  refine .bind ((ensures_separated (hg.argument _) ls).mono fun args rest hargs => ?_)
  refine .ite (fun _ => ?_) fun _ => ?_
  · cases hcalled : called? (Text.upper t.text) args with
    | none => exact .failure
    | some p =>
        refine .pure fun hp => ?_
        rcases called?_eq hcalled with rfl | hnot
        · obtain ⟨taken, hls, huses⟩ := hargs (areExprs_of_call hp)
          exact ⟨_, args, taken, rfl, .known, hls, huses⟩
        · exact absurd hp (by simp [hnot])
  · have hnamed {name : String} (hname : Names t name)
        (hp : (Phrase.call name args).isExpr = true) :
        ∃ name' args' taken, Phrase.call name args = .call name' args' ∧ Names t name' ∧
          ls = taken ++ rest ∧ UsesAll args' taken := by
      obtain ⟨taken, hls, huses⟩ := hargs (areExprs_of_call hp)
      exact ⟨_, args, taken, rfl, hname, hls, huses⟩
    cases t with
    | name n => exact .pure (hnamed (.quoted rfl))
    | _ => exact .pure (hnamed .other)

theorem call (ls : List Lexeme) : Ensures (call g false) ls (Settled ls) := by
  refine .bind (.get (.bind (.peek ?_)))
  cases ls with
  | nil => exact .pure .none
  | cons l tail =>
      refine .ite (fun hat => ?_) fun _ => ?_
      · refine .bind (.skip (.bind ((ensures_plainWord tail).mono fun _ renamed hrenames => ?_)))
        refine .bind ((hg.bits renamed).mono fun arg rest harg => settled_afterCall fun hp => ?_)
        cases arg with
        | none => exact absurd hp (by simp [isExpr_abs_nil])
        | some q =>
            have hq := areExprs_of_call hp
            simp only [Option.toList_some, areExprs, Bool.and_true] at hq
            obtain ⟨taken, rfl, huses⟩ := harg hq
            obtain ⟨before, rfl, hbefore⟩ := hrenames.prefix huses.ne_nil
            exact ⟨l :: before, rfl, .absolute hat hbefore (.one huses)⟩
      extract_lets key
      split
      · rename_i r hr
        refine .bind (.skip (.bind
          ((barrenIfAny_bareCall hr tail).mono fun found rest hfound => ?_)))
        cases found with
        | none => exact .bind (.set (.pure .none))
        | some p => exact settled_afterCall (.of_not_isExpr (hfound p rfl))
      refine .bind (.secondAtMark (.ite (fun _ => ?_) fun hopen => .ite (fun _ => .pure .none) ?_))
      · refine .ite (fun hbare => .bind (.skip (.pure ?_))) fun _ => .pure .none
        have hname : key ∈ foreignNames := by
          simp only [foreignNames, List.mem_append]
          exact .inr (by simpa using hbare)
        exact .of_not_isExpr (isExpr_call_foreign hname [])
      obtain ⟨m, after, rfl, hm⟩ : ∃ m after, tail = m :: after ∧ m.token = .mark "(" := by
        cases tail with
        | nil => simp at hopen
        | cons m after => exact ⟨m, after, rfl, by simpa using hopen⟩
      refine fun _ => .bind (.skip (.bind (.skip ?_)))
      split
      · rename_i r hr
        refine .bind ((barren_ownArguments hr after).mono fun p rest hp => ?_)
        exact .andThen fun _ last => settled_afterCall (.of_not_isExpr hp)
      refine .bind (.key ?_)
      split
      · rename_i p hp
        have hp : p.isExpr = false := by
          split at hp
          · exact isExpr_of_rowsAsked hp
          · cases hp
        exact .andThen fun _ _ => .andThen fun _ _ => .pure (.of_not_isExpr hp)
      refine .bind ((hg.calledWith l.token after).mono fun p rest hp => ?_)
      refine .bind (.expect_mark fun n last hrest hn => settled_afterCall fun hexpr => ?_)
      obtain ⟨name, args, taken, rfl, hname, rfl, huses⟩ := hp hexpr
      exact ⟨l :: m :: taken ++ [n], by simp [hrest], .call hname hm huses hn⟩

end Grammar.Explains

/-- A choice of columns, which may follow a star, is no expression. -/
theorem ensures_call_columns {l m : Lexeme} {after : List Lexeme} (hl : l.key = "COLUMNS")
    (hm : m.token = .mark "(") :
    Ensures (call g false) (l :: m :: after) fun found _ =>
      ∃ p, found = some p ∧ p.isExpr = false := by
  obtain ⟨w, hw, hkey⟩ : ∃ w, l.token = .word w ∧ Text.upper w = "COLUMNS" := by
    obtain ⟨token, comments⟩ := l
    cases token with
    | word w => exact ⟨w, rfl, hl⟩
    | mark m =>
        exfalso
        simp only [Lexeme.key] at hl
        unfold Token.key at hl
        split at hl <;> simp_all
    | _ => simp [Lexeme.key, Token.key] at hl
  refine .bind (.get (.bind (.peek ?_)))
  dsimp only [List.head?_cons]
  rw [hw]
  have hown : bareCall g (Token.word w).key = none := by
    rw [Token.key, hkey]
    rfl
  have harguments : ownArguments g (Text.upper (Token.word w).text) = none := by
    rw [Token.text, hkey]
    rfl
  have hrows : rowsAsked (Text.upper (Token.word w).text) = none := by
    rw [Token.text, hkey]
    rfl
  have hcalled : (Token.word w).mayCall = true := by
    simp only [Token.mayCall, Token.key, hkey]
    decide
  have hknown : isKnownFunction (Text.upper (Token.word w).text) = true := by
    rw [Token.text, hkey]
    decide +kernel
  refine .ite (fun hat => by cases hat) fun _ => ?_
  dsimp only
  rw [hown]
  refine .bind (.secondAtMark (.ite (fun hopen => ?_) fun _ => ?_))
  · simp [hm] at hopen
  refine .ite (fun hnot => absurd hcalled (by simpa using hnot)) fun _ => ?_
  refine .andThen fun _ _ => .andThen fun _ _ => ?_
  simp only [Bool.false_eq_true, harguments, hrows, ite_self]
  refine .andThen fun _ _ => .bind (.mono (Q := fun p _ => p.isExpr = false) ?_ fun p rest hp => ?_)
  · refine .andThen fun args rest => .ite (fun _ => ?_) fun hnot => ?_
    · exact barren_called (by rw [Token.text, hkey]; decide +kernel) args rest
    · exact absurd hknown (by simpa using hnot)
  · exact .andThen fun _ last => .bind ((barren_afterCall hp last).mono fun q _ hq =>
      .pure ⟨q, rfl, hq⟩)

/-! ### Operands -/

theorem ensures_moreStrings (bound : Nat) (ls : List Lexeme) :
    Ensures (moreStrings bound) ls fun more rest => more = 0 → rest = ls := by
  cases bound with
  | zero => exact .pure fun _ => rfl
  | succ bound =>
      refine .bind (.peek ?_)
      split
      · exact .andThen fun _ _ => .andThen fun _ _ => .pure nofun
      · exact .pure fun _ => rfl

namespace Grammar.Explains

variable (hg : g.Explains)

include hg

/-- One expression in parentheses; its neighbours may be missing. -/
theorem parenthesized {l : Lexeme} (hl : l.token = .mark "(") (ls : List Lexeme) :
    Ensures (parenthesized g) ls fun p rest => Explained (l :: ls) (some p) rest := by
  refine .bind ((hg.select false ls).mono fun found mid hfound => ?_)
  extract_lets afterItems
  have hitems (items : List Phrase × Bool) (mid : List Lexeme)
      (h : areExprs items.1 = true → ∃ taken, ls = taken ++ mid ∧ UsesAll items.1 taken) :
      Ensures (afterItems items) mid fun p rest => Explained (l :: ls) (some p) rest := by
    obtain ⟨items, afterComma⟩ := items
    rcases items with _ | ⟨p, _ | ⟨q, items⟩⟩
    · exact .andThen fun _ _ => .pure (.of_not_isExpr rfl)
    · unfold afterItems
      dsimp -zeta only
      extract_lets closed
      have hclosed (mid : List Lexeme) (h : p.isExpr = true →
          ∃ taken, ls = taken ++ mid ∧ UsesAll [p] taken) :
          Ensures (closed ()) mid fun p rest => Explained (l :: ls) (some p) rest := by
        refine .bind (.expect_mark fun m rest hmid hm => ?_)
        have hparen : Explained (l :: ls) (some (.paren p)) rest := by
          intro hp
          obtain ⟨taken, rfl, huses⟩ := h hp
          exact ⟨l :: taken ++ [m], by simp [hmid], .paren hl huses hm⟩
        refine .ite (fun _ => .pure (.of_not_isExpr rfl)) fun _ => ?_
        refine .ite (fun _ => .pure (.of_not_isExpr rfl)) fun _ => ?_
        refine .ite (fun _ => ?_) fun _ => .pure hparen
        exact (kept_afterCall _ rest).mono fun _ _ hq => hparen.of_kept hq
      refine .ite (fun hquery => ?_) fun _ => hclosed mid (by simpa [areExprs] using h)
      have hp : p.isExpr = false := by
        cases p with
        | form name => rfl
        | _ => cases hquery
      exact .andThen fun _ _ => .andThen fun _ rest => hclosed rest (by simp [hp])
    · exact .andThen fun _ _ => .pure (.of_not_isExpr rfl)
  cases found with
  | some p =>
      have hp : p.isExpr = false := hfound
      exact .bind (.pure (hitems ([p], false) mid (by simp [areExprs, hp])))
  | none =>
      obtain rfl : mid = ls := hfound
      exact .bind ((ensures_listed hg.expression mid).mono hitems)

theorem primary (ls : List Lexeme) : Ensures (primary g) ls (Settled ls) := by
  refine .bind (.peek ?_)
  rcases ls with _ | ⟨l, tail⟩
  · exact .pure .none
  dsimp only [List.head?_cons]
  split
  · rename_i s comments hnext
    cases hnext
    refine .bind (.skip (.bind (.get ?_)))
    refine .bind ((ensures_moreStrings _ tail).mono fun more rest hmore => .pure ?_)
    cases more with
    | zero => exact fun _ => ⟨[⟨.string s, comments⟩], by simp [hmore rfl], .string rfl⟩
    | succ more => exact .of_not_isExpr (isExpr_call_foreign (by decide) [])
  · rename_i n comments hnext
    cases hnext
    exact .bind (.skip (.pure fun _ => ⟨[⟨.number n, comments⟩], rfl, .number rfl⟩))
  · exact .andThen fun _ _ => .pure (.of_not_isExpr rfl)
  · rename_i comments hnext
    cases hnext
    refine .bind (.peekSecond ?_)
    split
    · rename_i n comments' hsecond
      cases tail with
      | nil => cases hsecond
      | cons m rest =>
          cases hsecond
          exact .bind (.skip (.bind (.skip (.pure fun _ => ⟨[_, _], rfl, .fraction rfl rfl⟩))))
    · exact .pure .none
  · refine .bind (.peekSecond ?_)
    split
    · exact .andThen fun _ _ => .andThen fun _ _ => .pure (.of_not_isExpr rfl)
    · exact .pure .none
  · refine .bind (.skip (.bind (.key (.bind (.secondAtMark (.ite (fun h => ?_) fun _ => ?_))))))
    · rcases tail with _ | ⟨l', _ | ⟨m, after⟩⟩
      · simp at h
      · simp at h
      · simp only [List.drop_succ_cons, List.drop_zero, List.head?_cons, Option.map_some,
          Option.getD_some, Bool.and_eq_true, decide_eq_true_eq] at h
        refine (ensures_call_columns h.1 h.2).mono ?_
        rintro _ rest ⟨p, rfl, hp⟩
        exact .of_not_isExpr hp
    · exact .andThen fun _ _ => .andThen fun _ _ => .andThen fun _ _ => .pure (.of_not_isExpr rfl)
  · rename_i comments hnext
    cases hnext
    exact .bind (.skip (.bind ((hg.parenthesized rfl tail).mono fun _ _ h => .pure h)))
  · refine .ifWord (by decide) (fun l rest hls hl => .pure fun _ => ⟨[l], hls, .null hl⟩) ?_
    refine .ifWord (by decide)
      (fun l rest hls hl => .pure fun _ => ⟨[l], hls, .bool (by simpa using hl)⟩) ?_
    exact .ifWord (by decide)
      (fun l rest hls hl => .pure fun _ => ⟨[l], hls, .bool (by simpa using hl)⟩) (.pure .none)
  · exact .pure .none

theorem field (ls : List Lexeme) : Ensures (field g) ls (Settled ls) :=
  Settled.either (hg.primary ls) (Settled.either (hg.call ls) (settled_nameOf ls))

theorem reference (ls : List Lexeme) : Ensures (reference g) ls (Settled ls) := by
  refine .bind ((hg.field ls).mono fun found rest hfound => ?_)
  cases found with
  | some p => exact .pure hfound
  | none =>
      obtain rfl : rest = ls := hfound
      refine .bind (.key (.bind (.secondAtMark ?_)))
      refine .ite (fun hkey => settled_nameIf fun l hl form htoken => ?_) fun _ => .pure .none
      simp only [Bool.and_eq_true, decide_eq_true_eq] at hkey
      simp [Option.mem_def.1 hl, Lexeme.key, htoken, Token.key] at hkey

theorem columnRule (ls : List Lexeme) : Ensures (columnRule g) ls (Settled ls) := by
  refine .bind ((hg.reference ls).mono fun found rest hfound => ?_)
  cases found with
  | some p =>
      refine .bind ((kept_suffixes p rest).mono fun q last hq => .pure ?_)
      exact Explained.of_kept hfound hq
  | none =>
      obtain rfl : rest = ls := hfound
      refine .bind ((foreign_bracketed none rest).mono fun found last hfound => ?_)
      cases found with
      | none => exact .pure hfound
      | some p =>
          exact ((barren_brackets hfound).some rest last).mono fun _ _ => .of_foreign

theorem operand (ls : List Lexeme) : Ensures (operand g) ls (Settled ls) := by
  refine .bind ((hg.columnRule ls).mono fun found rest hfound => ?_)
  cases found with
  | none => exact .pure hfound
  | some p =>
      refine .bind ((kept_suffixes p rest).mono fun q last hq => .pure ?_)
      exact Explained.of_kept hfound hq

/-- A value of a type is no expression; a column is one. -/
theorem typed (ls : List Lexeme) : Ensures (typed g) ls (Settled ls) := by
  have hsuffixes {p : Phrase} (hp : p.isExpr = false) (mid : List Lexeme) :
      Ensures (do return some (← suffixes g p)) mid (Settled ls) :=
    ((barren_suffixes hp).some ls mid).mono fun _ _ => .of_foreign
  refine .bind ((foreign_interval ls).mono fun found rest hfound => ?_)
  cases found with
  | some p => exact hsuffixes hfound rest
  | none =>
      obtain rfl : rest = ls := hfound
      refine .bind (.get (.bind ((hg.type true rest).mono fun found mid hfound => ?_)))
      split
      · rename_i name hasParameters
        have hvalue {toDate : Bool} :
            (if name = "JSON" then Phrase.call "parse_json" [] else .cast toDate).isExpr =
              false := by
          split
          · exact isExpr_call_foreign (by decide) []
          · rfl
        refine .bind (.get (.andThen fun value _ => ?_))
        split
        · exact .andThen fun _ _ => .pure (.of_not_isExpr hvalue)
        · exact .andThen fun _ _ => .pure (.of_not_isExpr hvalue)
        · refine .ite (fun _ => .bind (.set (hsuffixes rfl mid))) fun _ => ?_
          exact .bind (.set (hg.operand rest))
      · exact hsuffixes hfound mid
      · exact (show mid = rest from hfound) ▸ hg.operand rest

end Grammar.Explains

end Tabula
