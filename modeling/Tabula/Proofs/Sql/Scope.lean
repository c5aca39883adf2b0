import Tabula.Proofs.Sql.Query

/-!
Scopes of queries. Every level of a query above the lowest stands for one operator, has the columns
that come out of it, and names only columns of the level below it: the checks of an operator ask for
its columns in what comes out before, and lowering brings no names of its own. The levels are named
after the places of their operators, so no two have the same name.
-/

namespace Tabula.Sql

/-! ### The names that are mentioned -/

mutual
/-- The columns that a scalar mentions. -/
def Scalar.mentions : Scalar → List String
  | column name => [name]
  | null | bool _ | integer _ | double _ | string _ => []
  | paren e | not e | isNull e => e.mentions
  | compare _ l r | arith _ l r | junction _ l r | nullIf l r => l.mentions ++ r.mentions
  | call _ args => Scalar.mentionsOf args
def Scalar.mentionsOf : List Scalar → List String
  | [] => []
  | e :: es => e.mentions ++ Scalar.mentionsOf es
end

def Selected.mentions : Selected → List String
  | scalar e => e.mentions
  | ranking _ w => w.columns

def Item.mentions : Item → List String
  | column name => [name]
  | named value _ => value.mentions

/-- One SELECT over another query. -/
structure Level where
  items : List Item
  inner : Query
  /-- The name of the query below. -/
  name : String
  condition : Option Scalar
  order : List OrderTerm

/-- The columns that any clause of the level mentions. -/
def Level.mentions (l : Level) : List String :=
  l.items.flatMap Item.mentions ++ l.condition.elim [] Scalar.mentions ++
    l.order.map OrderTerm.column

/-- The levels of a query above the lowest, from there outwards. -/
def Query.levels : Query → List Level
  | table .. => []
  | nested items inner name condition order =>
      inner.levels ++ [⟨items, inner, name, condition, order⟩]

/-- The columns and the table of the lowest level. -/
def Query.lowest : Query → List String × String
  | table columns name => (columns, name)
  | nested _ inner _ _ _ => inner.lowest

/-- The level stands for the step: it has the columns that come out there, each once, the query
below is named after the place, and only columns that come out of the query below are mentioned. -/
structure Level.IsOf (l : Level) (s : PlanStep) : Prop where
  columns : l.items.map Item.name = s.output
  nodup : (l.items.map Item.name).Nodup
  name : l.name = levelName s.position
  inside : ∀ c ∈ l.mentions, c ∈ l.inner.columns

section Scalars

theorem mentionsOf_eq_flatMap (es : List Scalar) :
    Scalar.mentionsOf es = es.flatMap Scalar.mentions := by
  induction es with
  | nil => rfl
  | cons e es ih => rw [Scalar.mentionsOf, ih, List.flatMap_cons]

@[simp] theorem mentions_wrap (s : Scalar) : s.wrap.mentions = s.mentions := by
  cases s <;> simp [Scalar.wrap, Scalar.mentions]

theorem mentions_ofLiteral (l : Literal) : (Scalar.ofLiteral l).mentions = [] := by
  cases l <;> rfl

theorem mentions_foldl (op : Junction) (others : List Scalar) (s : Scalar) :
    (others.foldl (fun l r => .junction op l r.wrap) s).mentions =
      s.mentions ++ others.flatMap Scalar.mentions := by
  induction others generalizing s with
  | nil => simp
  | cons r others ih => simp [ih, Scalar.mentions]

theorem flatMap_mentions_ofAll {es : List Expr}
    (h : ∀ e ∈ es, (Scalar.of e).mentions = e.columns) :
    (Scalar.ofAll es).flatMap Scalar.mentions = Expr.columnsOf es := by
  rw [Scalar.ofAll_eq_map, Expr.columnsOf_eq_flatMap, List.flatMap_map]
  exact List.flatMap_congr h

attribute [local simp] Scalar.of Scalar.mentions Scalar.mentionsOf Expr.columns

/-- A scalar mentions exactly the columns that the expression reads, in order. -/
theorem mentions_of (e : Expr) : (Scalar.of e).mentions = e.columns := by
  induction e with
  | column | ranking => rfl
  | literal l => exact mentions_ofLiteral l
  | compare _ _ _ ihl ihr | roundTo _ _ ihl ihr => simp [ihl, ihr]
  | arith op _ _ ihl ihr =>
      by_cases hop : op = .div
      · simp [hop, ihl, ihr]
      · simp [hop, ihl, ihr]
  | not _ ih | unary _ _ ih | round _ ih => simp [ih]
  | isNull _ negated ih => cases negated <;> simp [ih]
  | junction _ _ _ _ iha ihb ihrest =>
      rw [Scalar.of, mentions_foldl, flatMap_mentions_ofAll ihrest]
      simp [iha, ihb]
  | coalesce _ _ iha ihrest =>
      have hrest := flatMap_mentions_ofAll ihrest
      simp [mentionsOf_eq_flatMap, iha, hrest]

theorem mentions_ofExpr {d : Dialect} {e : Expr} {s : Scalar} (hs : Scalar.ofExpr d e = .ok s) :
    s.mentions = e.columns := by
  rw [Scalar.eq_of_ofExpr hs, mentions_of]

end Scalars

/-! ### Levels -/

section Levels

variable {d : Dialect} {inner q : Query} {columns : List String} {o : Operator}
  {os : List Operator} {position : Nat}

theorem flatMap_mentions_columns (names : List String) :
    (names.map Item.column).flatMap Item.mentions = names := by
  induction names with
  | nil => rfl
  | cons c names ih =>
      rw [List.map_cons, List.flatMap_cons, ih]
      rfl

theorem mentions_ofValue {name : String} {value : Expr} {window : Option Window}
    (ho : (Operator.extend name value window).Fits columns) {v : Selected}
    (hv : Selected.ofValue d value window = .ok v) : v.mentions ⊆ columns := by
  cases window with
  | none =>
      obtain ⟨s, hs, hv⟩ := bind_eq_ok.1 hv
      cases hv
      exact fun c hc => ho.2 c (mentions_ofExpr hs ▸ hc)
  | some w =>
      obtain ⟨⟨f, rfl⟩, hcolumns⟩ := ho
      rw [Selected.ofValue] at hv
      split at hv
      · cases hv
        exact hcolumns
      · cases hv

/-- The items of a computed column: the other columns were there before. -/
theorem mentions_extend {name : String} {v : Selected} (hv : v.mentions ⊆ columns) :
    (((if columns.contains name then columns else columns ++ [name]).map fun c =>
      if c = name then Item.named v name else Item.column c).flatMap Item.mentions) ⊆ columns := by
  intro c hc
  obtain ⟨i, hi, hc⟩ := List.mem_flatMap.1 hc
  obtain ⟨b, hb, rfl⟩ := List.mem_map.1 hi
  by_cases hname : b = name
  · rw [if_pos hname] at hc
    exact hv hc
  · rw [if_neg hname] at hc
    obtain rfl := List.mem_singleton.1 hc
    split at hb
    · exact hb
    · rcases List.mem_append.1 hb with hb | hb
      · exact hb
      · exact absurd (List.mem_singleton.1 hb) hname

/-- A step puts one level on the query before it and mentions only columns that come out there. -/
theorem exists_level (ho : o.Fits columns) (hgoes : o.isTerminal = false)
    (hq : inner.after d ⟨position, o, columns, o.output columns⟩ = .ok q) :
    ∃ items condition order, q = .nested items inner (levelName position) condition order ∧
      Level.mentions ⟨items, inner, levelName position, condition, order⟩ ⊆ columns := by
  cases o with
  | extend name value window =>
      obtain ⟨v, hv, hq⟩ := bind_eq_ok.1 hq
      cases hq
      refine ⟨_, _, _, rfl, ?_⟩
      simpa [Level.mentions, Operator.output] using mentions_extend (mentions_ofValue ho hv)
  | selectRows condition =>
      obtain ⟨s, hs, hq⟩ := bind_eq_ok.1 hq
      cases hq
      refine ⟨_, _, _, rfl, ?_⟩
      have hmentions : s.mentions ⊆ columns := fun c hc =>
        ho.2 c (mentions_ofExpr hs ▸ hc)
      simpa [Level.mentions, Operator.output, flatMap_mentions_columns] using hmentions
  | orderBy terms =>
      cases hq
      refine ⟨_, _, _, rfl, ?_⟩
      have hterms : terms.map OrderTerm.column ⊆ columns := fun c hc =>
        List.forall_mem_map.2 ho c hc
      simpa [Level.mentions, Operator.output, flatMap_mentions_columns] using hterms
  | selectColumns selected =>
      cases hq
      refine ⟨_, _, _, rfl, ?_⟩
      have hselected : selected ⊆ columns := fun c hc => ho.2 c hc
      simpa [Level.mentions, Operator.output, flatMap_mentions_columns] using hselected
  | dropColumns dropped =>
      cases hq
      refine ⟨_, _, _, rfl, ?_⟩
      simp [Level.mentions, Operator.output, flatMap_mentions_columns]
  | materialize table temporary => cases hgoes

/-- The level of a step. -/
theorem exists_isOf (ho : o.Fits columns) (hnodup : columns.Nodup) (hgoes : o.isTerminal = false)
    (hcolumns : inner.columns = columns)
    (hq : inner.after d ⟨position, o, columns, o.output columns⟩ = .ok q) :
    q.lowest = inner.lowest ∧ ∃ l : Level, q.levels = inner.levels ++ [l] ∧
      l.IsOf ⟨position, o, columns, o.output columns⟩ := by
  obtain ⟨items, condition, order, rfl, hmentions⟩ := exists_level ho hgoes hq
  have hout : items.map Item.name = o.output columns := columns_after hcolumns hq
  refine ⟨rfl, _, rfl, hout, ?_, rfl, ?_⟩
  · rw [hout]
    exact ho.nodup_output hnodup
  · rw [hcolumns]
    exact fun c hc => hmentions hc

/-- Every operator of a chain that goes on puts its level on the query, in order. -/
theorem levels_afterAll (hos : FitChain columns os) (hnodup : columns.Nodup)
    (hcolumns : inner.columns = columns)
    (hq : inner.afterAll d (stepsFrom position columns os) = .ok q) :
    q.lowest = inner.lowest ∧ q.columns = Plan.columnsAfter columns os ∧
      ∃ ls, q.levels = inner.levels ++ ls ∧ List.Forall₂ Level.IsOf ls
        ((stepsFrom position columns os).filter fun s => !s.operator.isTerminal) := by
  induction os generalizing position columns inner with
  | nil =>
      cases hq
      exact ⟨rfl, hcolumns, [], (List.append_nil _).symm, .nil⟩
  | cons o os ih =>
      rw [stepsFrom, Query.afterAll] at hq
      split at hq
      · rename_i next hnext
        obtain ⟨hlowest, hlast, ls, hls, hall⟩ :=
          ih hos.2 (hos.1.nodup_output hnodup) (columns_after hcolumns hnext) hq
        rw [stepsFrom, List.filter_cons]
        cases hgoes : o.isTerminal with
        | false =>
            obtain ⟨hnextLowest, l, hl, hisOf⟩ :=
              exists_isOf hos.1 hnodup hgoes hcolumns hnext
            refine ⟨hlowest.trans hnextLowest, hlast, l :: ls, ?_, ?_⟩
            · rw [hls, hl, List.append_assoc, List.singleton_append]
            · exact .cons hisOf hall
        | true =>
            -- keeping the result adds no level
            have hsame : next = inner := by
              cases o with
              | materialize table temporary =>
                  cases hnext
                  rfl
              | _ => cases hgoes
            subst hsame
            exact ⟨hlowest, hlast, ls, hls, hall⟩
      · cases hq

/-- Levels of different places have different names. -/
theorem levelName_injective : Function.Injective levelName := by
  intro m n h
  have hdigits : Nat.toDigits 10 m = Nat.toDigits 10 n := by
    have htext := congrArg String.toList ((String.append_right_inj _).1 h)
    rwa [Nat.toString_eq_ofList_toDigits, Nat.toString_eq_ofList_toDigits, String.toList_ofList,
      String.toList_ofList] at htext
  rw [← Nat.ofDigitChars_ten_toDigits (n := m), hdigits, Nat.ofDigitChars_ten_toDigits]

theorem map_position_stepsFrom :
    (stepsFrom position columns os).map PlanStep.position = List.range' position os.length := by
  induction os generalizing position columns with
  | nil => rfl
  | cons o os ih => rw [stepsFrom, List.map_cons, ih, List.length_cons, List.range'_succ]

theorem nodup_names {ls : List Level} {steps : List PlanStep}
    (h : List.Forall₂ Level.IsOf ls steps) (hsteps : (steps.map PlanStep.position).Nodup) :
    (ls.map Level.name).Nodup := by
  have hnames : ls.map Level.name = (steps.map PlanStep.position).map levelName := by
    rw [List.map_map]
    induction h with
    | nil => rfl
    | cons hl _ ih =>
        rw [List.map_cons, List.map_cons, hl.name, ih (List.Nodup.of_cons hsteps)]
        rfl
  rw [hnames]
  exact hsteps.map levelName_injective

end Levels

end Tabula.Sql

namespace Tabula

/-- Statements are well scoped. Each level of the query above the lowest belongs to one operator
that does not keep the result, has the columns that come out there, each once, and names the query
below it after the place of the operator; whatever column any of its clauses mentions comes out of
the query below. No two levels use the same name. The lowest level selects the declared columns from
the table, and the columns of the plan come out of the whole. -/
theorem Plan.Made.statement_scoped {p : Plan} (hp : p.Made) {d : Dialect}
    {statement : Sql.Statement} (h : p.statement d = .ok statement) :
    statement.query.lowest = (p.table.columns, p.table.name) ∧
      List.Forall₂ Sql.Level.IsOf statement.query.levels
        (p.steps.filter fun s => !s.operator.isTerminal) ∧
      (statement.query.levels.map Sql.Level.name).Nodup ∧
      statement.query.columns = p.columns := by
  obtain ⟨hlowest, hcolumns, ls, hls, hall⟩ :=
    Sql.levels_afterAll hp.fitChain hp.nodup rfl (Plan.exists_query h)
  rw [Sql.Query.levels, List.nil_append] at hls
  rw [hls]
  have hpositions : ((p.steps.filter fun s => !s.operator.isTerminal).map
      PlanStep.position).Nodup := by
    refine List.Nodup.sublist (List.filter_sublist.map _) ?_
    rw [steps, Sql.map_position_stepsFrom]
    exact List.nodup_range'
  exact ⟨hlowest, hall, Sql.nodup_names hall hpositions, hcolumns⟩

theorem Plan.Made.statement_scoped_placings :
    ∃ statement, placings.statement .extendedWindowTies = .ok statement ∧
      statement.query.lowest = (["team", "points"], "scores") ∧
      List.Forall₂ Sql.Level.IsOf statement.query.levels
        (placings.steps.filter fun s => !s.operator.isTerminal) ∧
      (statement.query.levels.map Sql.Level.name).Nodup ∧
      statement.query.columns = placings.columns := by
  obtain ⟨statement, hstatement⟩ :
      ∃ statement, placings.statement .extendedWindowTies = .ok statement := ⟨_, rfl⟩
  exact ⟨statement, hstatement, made_placings.statement_scoped hstatement⟩

end Tabula
