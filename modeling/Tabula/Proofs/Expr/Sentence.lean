import Tabula.Proofs.Expr.Call

/-!
Reading whole expressions: as arguments, between parentheses and as statements. What could also
begin there, a query, a function, an alias or a statement with a word of its own, is looked for
first and not found.
-/

namespace Tabula

open Reader

/-! ### Readers that never fail -/

/-- The reader never fails, and takes from the front. -/
def Takes {α : Type} (r : Reader α) : Prop := ∀ ls, ∃ a rest, r ls = some (a, rest) ∧ rest <:+ ls

section Takes

variable {α β : Type} {r : Reader α}

theorem takes_pure (a : α) : Takes (pure a : Reader α) := fun ls => ⟨a, ls, rfl, List.suffix_rfl⟩

theorem takes_bind {f : α → Reader β} (h : Takes r) (hf : ∀ a, Takes (f a)) : Takes (r >>= f) := by
  intro ls
  obtain ⟨a, next, hr, hnext⟩ := h ls
  obtain ⟨b, rest, hb, hrest⟩ := hf a next
  exact ⟨b, rest, by simp [hr, hb], hrest.trans hnext⟩

theorem takes_ite {c : Prop} [Decidable c] {s : Reader α} (h : Takes r) (hs : Takes s) :
    Takes (if c then r else s) := by
  split
  · exact h
  · exact hs

theorem takes_get : Takes (get : Reader (List Lexeme)) := fun ls => ⟨ls, ls, rfl, List.suffix_rfl⟩

theorem takes_peek : Takes peek := takes_bind takes_get fun _ => takes_pure _

theorem takes_peekSecond : Takes peekSecond := takes_bind takes_get fun _ => takes_pure _

theorem takes_atMark (m : String) : Takes (atMark m) := takes_bind takes_peek fun _ => takes_pure _

theorem takes_skip : Takes skip := fun ls => ⟨⟨⟩, ls.drop 1, rfl, List.drop_suffix 1 ls⟩

theorem takes_mark (m : String) : Takes (mark m) :=
  takes_bind (takes_atMark m) fun _ =>
    takes_ite (takes_bind takes_skip fun _ => takes_pure _) (takes_pure _)

theorem takes_placeholder : Takes placeholder := by
  refine takes_bind takes_peekSecond fun _ => takes_bind takes_peekSecond fun _ => ?_
  refine takes_bind (takes_mark "?") fun _ => takes_ite (takes_pure _) ?_
  refine takes_bind (takes_atMark "$") fun _ => takes_bind (takes_atMark ":") fun _ => ?_
  refine takes_ite (takes_bind takes_skip fun _ => takes_bind takes_peek fun _ => ?_) (takes_pure _)
  exact takes_bind takes_skip fun _ => takes_pure _

theorem takes_nameOf (must : Bool) : Takes (nameOf must) := by
  refine takes_bind takes_peek fun l => ?_
  rcases l with _ | ⟨t, comments⟩
  · exact takes_pure _
  cases t with
  | name n => exact takes_bind takes_skip fun _ => takes_pure _
  | _ =>
      refine takes_bind takes_placeholder fun found => ?_
      cases found with
      | some p => exact takes_pure _
      | none => exact takes_ite (takes_bind takes_skip fun _ => takes_pure _) (takes_pure _)

theorem takes_moreItems {item : Reader (Option α)} (h : Takes item) (bound : Nat) :
    Takes (moreItems item bound) := by
  induction bound with
  | zero => exact takes_pure _
  | succ bound ih =>
      refine takes_bind (takes_mark ",") fun _ => takes_ite ?_ (takes_pure _)
      exact takes_bind h fun _ => takes_bind ih fun _ => takes_pure _

theorem takes_separated {item : Reader (Option α)} (h : Takes item) : Takes (separated item) := by
  refine takes_bind (takes_bind h fun _ => takes_bind takes_get fun _ => ?_) fun _ => takes_pure _
  exact takes_bind (takes_moreItems h _) fun _ => takes_pure _

theorem takes_parameters : Takes parameters := by
  intro ls
  obtain ⟨isOpen, next, hopen, hnext⟩ := takes_mark "(" ls
  cases isOpen with
  | false =>
      obtain ⟨name, rest, hname, hrest⟩ := takes_nameOf true next
      exact ⟨name.toList, rest, by simp [parameters, hopen, hname], hrest.trans hnext⟩
  | true =>
      obtain ⟨names, after, hnames, hafter⟩ := takes_separated (takes_nameOf true) next
      obtain ⟨isClosed, rest, hclosed, hrest⟩ := takes_mark ")" after
      cases isClosed with
      | true =>
          exact ⟨names, rest, by simp [parameters, hopen, hnames, hclosed],
            hrest.trans (hafter.trans hnext)⟩
      | false => exact ⟨[], ls, by simp [parameters, hopen, hnames, hclosed], List.suffix_rfl⟩

end Takes

variable {g : Grammar} {k d : Nat} {ts us rest : List Token} {p : Phrase}

/-! ### Arguments -/

/-- Without an arrow no argument is a function or given by its name. -/
theorem abstraction_none (g : Grammar) (husual : ∀ t ∈ ts, t.Usual) :
    abstraction g (lexed ts) = some (none, lexed ts) := by
  obtain ⟨names, next, hnames, hnext⟩ := takes_parameters (lexed ts)
  obtain ⟨us, hus, rfl⟩ := List.suffix_map_iff.1 hnext
  have hne {m : String} (hm : ¬ (Token.mark m).Usual) : us.head? ≠ some (.mark m) := by
    intro hhead
    exact hm (husual _ (hus.mem (List.mem_of_head? hhead)))
  have hmark {m : String} (hm : ¬ (Token.mark m).Usual) :
      mark m (us.map fun t => ⟨t, []⟩) = some (false, us.map fun t => ⟨t, []⟩) :=
    mark_of_ne (hne hm)
  simp [abstraction, hnames, hmark (m := "->") (by decide), hmark (m := "=>") (by decide)]

theorem argument_of_plain {found : Option Phrase} {named : Bool} (husual : ∀ t ∈ us, t.Usual)
    (hkey : headKey us ≠ "LAMBDA") (hrest : MayFollow 0 rest)
    (h : plainArgument g named (lexed us) = some (found, lexed rest)) :
    argumentRule g named (lexed us) = some (found, lexed rest) := by
  have hhaving : word "HAVING" (lexed rest) = some (false, lexed rest) := hrest.word rfl
  have hordering : ordering g (lexed rest) = some (false, lexed rest) := by
    simp [ordering, hrest.word (w := "ORDER BY") rfl]
  have hlimit : limitForm g (lexed rest) = some (none, lexed rest) := by
    simp [limitForm, hrest.word (w := "LIMIT") rfl, hrest.word (w := "FETCH") rfl]
  simp [argumentRule, hkey, abstraction_none g husual, h, hrest.nullChoice, hhaving, hordering,
    hlimit]

theorem misses_argument (hselect : Misses (g (.select false))) (h : Misses (g .assignment))
    (named : Bool) : Misses (argumentRule g named) := by
  intro rest hrest
  refine argument_of_plain hrest.usual (hrest.headKey_ne rfl) hrest ?_
  cases named <;>
    simp [plainArgument, hrest.word (w := "DISTINCT") rfl, hselect rest hrest, h rest hrest,
      hrest.aliasOf]

theorem Opens.select (h : Opens ts) (g : Grammar) (rest : List Token) :
    selectRule g false (lexed (ts ++ rest)) = some (none, lexed (ts ++ rest)) := by
  refine select_none fun w hw => h.headKey_ne rest ?_
  revert w
  decide

theorem finds_argument (hopens : Opens ts)
    (hselect : g (.select false) = selectRule (Grammar.ofDepth d) false)
    (h : Finds 0 (g .assignment) ts p) (named : Bool) : Finds 0 (argumentRule g named) ts p := by
  intro rest hrest
  have husual := List.forall_mem_append.2 ⟨hopens.usual, hrest.usual⟩
  refine argument_of_plain husual (hopens.headKey_ne rest (by decide)) hrest ?_
  have hdistinct : word "DISTINCT" (lexed (ts ++ rest)) = some (false, lexed (ts ++ rest)) :=
    word_of_ne (hopens.headKey_ne rest (by decide))
  cases named <;>
    simp [plainArgument, hdistinct, hselect, hopens.select, h rest hrest, hrest.aliasOf]

/-! ### Expressions and statements -/

theorem finds_assignment (h : Finds 0 (g .disjunction) ts p) : Finds 0 (assignmentRule g) ts p := by
  intro rest hrest
  simp [assignmentRule, h rest hrest, hrest.mark (m := ":=") rfl]

theorem finds_expression (husual : ∀ t ∈ ts, t.Usual) (h : Finds 0 (g .assignment) ts p) :
    Finds 0 (expressionRule g) ts p := by
  intro rest hrest
  have hsecond : (ts ++ rest)[1]? ≠ some (.mark ":") := by
    intro heq
    have husual := List.forall_mem_append.2 ⟨husual, hrest.usual⟩
    exact (husual _ (List.mem_of_getElem? heq)).1 rfl
  have hbefore : aliasBefore g (lexed (ts ++ rest)) = some (none, lexed (ts ++ rest)) := by
    simp [aliasBefore, hsecond]
  simp [expressionRule, hbefore, h rest hrest, hrest.aliasOf]

theorem statementOf_none {key : String} (h : key ∉ openingWords) : statementOf g key = none := by
  have hcommand : key ∉ commandWords := fun hmem =>
    h ((by decide : ∀ w ∈ commandWords, w ∈ openingWords) key hmem)
  unfold statementOf
  split
  all_goals first | exact absurd (by decide) h | simp [hcommand]

/-- An expression is a statement, if it is all there is. -/
theorem finds_statement (hopens : Opens ts) (h : Finds 0 (g .expression) ts p)
    (hform : ∀ name, p ≠ .form name) : statementRule g (lexed ts) = some (some p, []) := by
  obtain ⟨t, tail, rfl⟩ := List.exists_cons_of_ne_nil hopens.ne_nil
  have hkey {w : String} (hw : w ∈ openingWords) : t.key ≠ w := by
    rintro rfl
    exact hopens.key hw
  have hmark : t ≠ .mark ";" := by
    rintro rfl
    simpa using hopens.mark ";" rfl
  have hstatement : statementOf g t.key = none := statementOf_none hopens.key
  have hfound : g .expression (lexed (t :: tail)) = some (some p, []) := by
    have hwhole := h [] (.nil 0)
    rwa [List.append_nil] at hwhole
  have hoperations : setOperations g p [] = some (p, []) := rfl
  have hquery : p.isQuery = false := by
    cases p with
    | form name => exact absurd rfl (hform name)
    | _ => rfl
  simp [statementRule, Lexeme.key, hmark, hkey (w := "IF") (by decide),
    hkey (w := "TRUNCATE") (by decide), hkey (w := "TABLE") (by decide), hstatement, hfound,
    hoperations, withClauses, hquery]

end Tabula
