import Tabula.Proofs.Expr.Unambiguous
import Tabula.Proofs.Plan.Validity
import Tabula.Proofs.Text.Quoted

/-!
Plans told apart by their texts. Table names are quoted, columns are plain identifiers, brackets and
parentheses enclose what is put together from them, and every line of a plan shows the columns that
come out: the text of a plan is that of no other plan, so two plans differ if and where their texts
do.
-/

namespace Tabula

/-! ### Names and lists -/

theorem IsIdentifier.startsOff {name : String} (h : IsIdentifier name) {closers : List Char}
    (hclosers : closers ⊆ separators) : StartsOff closers name.toList := by
  obtain ⟨c, hc, -⟩ := h.begins
  exact ⟨c, hc, fun hmem => h.not_separator c (List.mem_of_head? hc) (hclosers hmem)⟩

/-- A name is told before any separator. -/
theorem tellsApart_name {a b : String} (ha : IsIdentifier a) (hb : IsIdentifier b) :
    TellsApart (StartsIn separators) String.toList a b :=
  tellsApart_of_free ha.not_separator hb.not_separator String.toList_inj.1

/-- One of two words that begin differently. -/
theorem tellsApart_choice (yes no : String) {c d : Char} {cs ds : List Char}
    (hyes : yes.toList = c :: cs) (hno : no.toList = d :: ds) (hne : c ≠ d) (a b : Bool) :
    TellsApart Anything (fun b => (if b = true then yes else no).toList) a b := by
  intro r s _ _ h
  cases a <;> cases b
  · exact ⟨rfl, List.append_cancel_left h⟩
  · simp only [Bool.false_eq_true, if_false, if_true, hyes, hno, List.cons_append] at h
    exact absurd (List.cons.inj h).1.symm hne
  · simp only [Bool.false_eq_true, if_false, if_true, hyes, hno, List.cons_append] at h
    exact absurd (List.cons.inj h).1 hne
  · exact ⟨rfl, List.append_cancel_left h⟩

section Lists

variable {names others : List String} {r s : List Char}

theorem toList_nameList (names : List String) :
    (nameList names).toList = '[' :: (commas String.toList names ++ [']']) := by
  rw [nameList, Text.bracketed, String.toList_append, String.toList_append, toList_intercalate,
    List.append_assoc]
  rfl

theorem tellsApart_nameList (hnames : ∀ n ∈ names, IsIdentifier n)
    (hothers : ∀ n ∈ others, IsIdentifier n) :
    TellsApart Anything (fun names => (nameList names).toList) names others := by
  intro r s _ _ h
  have hfirst : ∀ n ∈ names ++ others, StartsOff [']'] n.toList :=
    List.forall_mem_append.2 ⟨fun n hn => (hnames n hn).startsOff (by decide),
      fun n hn => (hothers n hn).startsOff (by decide)⟩
  simp only [toList_nameList, List.cons_append, List.append_assoc, List.cons.injEq] at h
  have hapart : ∀ a ∈ names, ∀ b ∈ others, TellsApart (StartsIn [',', ']']) String.toList a b :=
    fun a ha b hb =>
      (tellsApart_name (hnames a ha) (hothers b hb)).mono fun _ hcs => hcs.mono (by decide)
  exact commas_append_inj (by decide) hfirst (forall_mem_zip hapart) h.2

end Lists

/-! ### Orderings and windows -/

section Orders

variable {terms others : List OrderTerm} {t u : OrderTerm}

theorem OrderTerm.toList_text (t : OrderTerm) :
    t.text.toList = t.column.toList ++ ' ' :: t.direction.toList := by
  simp [text]

theorem OrderTerm.tellsApart_text (ht : IsIdentifier t.column) (hu : IsIdentifier u.column)
    {closer : Char} : TellsApart (StartsIn [',', closer]) (fun t => t.text.toList) t u := by
  intro r s _ _ h
  obtain ⟨column, descending⟩ := t
  obtain ⟨column', descending'⟩ := u
  simp only [toList_text, List.append_assoc, List.cons_append] at h
  obtain ⟨rfl, hrest⟩ := tellsApart_name ht hu _ _ (startsIn_cons.2 (by decide))
    (startsIn_cons.2 (by decide)) h
  obtain ⟨rfl, rfl⟩ := tellsApart_choice "DESC" "ASC" rfl rfl (by decide)
    descending descending' r s trivial trivial (List.cons.inj hrest).2
  exact ⟨rfl, rfl⟩

theorem toList_orderText (terms : List OrderTerm) :
    (orderText terms).toList = commas (fun t => t.text.toList) terms := by
  rw [orderText, toList_intercalate, commas_map]

theorem orderText_append_inj {closer : Char} (hcloser : closer ∈ [')', ']'])
    (hterms : ∀ t ∈ terms, IsIdentifier t.column)
    (hothers : ∀ t ∈ others, IsIdentifier t.column) {r s : List Char}
    (h : (orderText terms).toList ++ closer :: r = (orderText others).toList ++ closer :: s) :
    terms = others ∧ r = s := by
  have hstarts {t : OrderTerm} (ht : IsIdentifier t.column) :
      StartsOff [closer] t.text.toList := by
    rw [t.toList_text]
    refine (ht.startsOff fun c hc => ?_).append _
    rw [List.mem_singleton.1 hc]
    exact (by decide : [')', ']'] ⊆ separators) hcloser
  rw [toList_orderText, toList_orderText] at h
  refine commas_append_inj ?_ ?_ (forall_mem_zip fun t ht u hu =>
    OrderTerm.tellsApart_text (hterms t ht) (hothers u hu)) h
  · rintro rfl
    exact absurd hcloser (by decide)
  · exact List.forall_mem_append.2 ⟨fun t ht => hstarts (hterms t ht),
      fun t ht => hstarts (hothers t ht)⟩

theorem Window.toList_text (w : Window) :
    w.text.toList = "partition_by=".toList ++ ((nameList w.partitionBy).toList ++
      (", order_by=[".toList ++ ((orderText w.orderBy).toList ++ [']']))) := by
  -- the two words are kept whole
  unfold text
  generalize "partition_by=" = opening, ", order_by=[" = middle
  simp only [String.toList_append, List.append_assoc]
  rfl

theorem Window.tellsApart_text {v w : Window} (hv : ∀ c ∈ v.columns, IsIdentifier c)
    (hw : ∀ c ∈ w.columns, IsIdentifier c) :
    TellsApart Anything (fun w => w.text.toList) v w := by
  intro r s _ _ h
  obtain ⟨partitions, terms⟩ := v
  obtain ⟨partitions', terms'⟩ := w
  simp only [columns, List.forall_mem_append, List.forall_mem_map] at hv hw
  simp only [toList_text] at h
  generalize "partition_by=".toList = opening, ", order_by=[".toList = middle at h
  simp only [List.append_assoc, List.append_cancel_left_eq] at h
  obtain ⟨rfl, hrest⟩ := tellsApart_nameList hv.1 hw.1 _ _ trivial trivial h
  rw [List.append_cancel_left_eq] at hrest
  obtain ⟨rfl, rfl⟩ := orderText_append_inj (by decide : ']' ∈ [')', ']']) hv.2 hw.2 hrest
  exact ⟨rfl, rfl⟩

end Orders

/-! ### Operators -/

namespace Operator

/-- The columns that the operator reads, names or computes. -/
def names : Operator → List String
  | extend name value window => name :: (extend name value window).mentions
  | o => o.mentions

/-- The name that the operator gives to a column. -/
def given? : Operator → Option String
  | extend name _ _ => some name
  | _ => none

theorem names_subset (o : Operator) : o.names ⊆ o.mentions ++ o.given?.toList := by
  cases o <;> simp [names, given?]

theorem output_subset (o : Operator) (columns : List String) :
    o.output columns ⊆ columns ++ o.mentions ++ o.given?.toList := by
  intro c hc
  cases o with
  | extend name value window =>
      rw [output] at hc
      split at hc
      · simp [hc]
      · rcases List.mem_append.1 hc with hc | hc
        · simp [hc]
        · simp [given?, List.mem_singleton.1 hc]
  | selectColumns selected => exact List.mem_append_left _ (List.mem_append_right _ hc)
  | dropColumns dropped => simp [List.mem_of_mem_filter hc]
  | _ => exact List.mem_append_left _ (List.mem_append_left _ hc)

section Texts

variable {o o' : Operator}

theorem toList_text (o : Operator) :
    o.text.toList = o.kind.toList ++ '(' :: (o.parameters.toList ++ [')']) := by
  simp [text]

/-- The window of a computed column, with what separates it. -/
def windowChars : Option Window → List Char
  | none => []
  | some w => ',' :: ' ' :: w.text.toList

theorem startsIn_windowChars (window : Option Window) (r : List Char) :
    StartsIn [',', ')'] (windowChars window ++ ')' :: r) := by
  cases window <;> exact startsIn_cons.2 (by decide)

theorem windowChars_append_inj {window window' : Option Window} {r s : List Char}
    (hw : ∀ w ∈ window, ∀ c ∈ w.columns, IsIdentifier c)
    (hw' : ∀ w ∈ window', ∀ c ∈ w.columns, IsIdentifier c)
    (h : windowChars window ++ ')' :: r = windowChars window' ++ ')' :: s) :
    window = window' ∧ r = s := by
  cases window with
  | none =>
      cases window' with
      | none => exact ⟨rfl, (List.cons.inj h).2⟩
      | some w' => exact absurd (List.cons.inj h).1 (by decide)
  | some w =>
      cases window' with
      | none => exact absurd (List.cons.inj h).1 (by decide)
      | some w' =>
          simp only [windowChars, List.cons_append, List.cons.injEq, true_and] at h
          obtain ⟨rfl, hrest⟩ :=
            Window.tellsApart_text (hw w rfl) (hw' w' rfl) _ _ trivial trivial h
          exact ⟨rfl, (List.cons.inj hrest).2⟩

theorem toList_parameters_extend (name : String) (value : Expr) (window : Option Window) :
    (extend name value window).parameters.toList =
      name.toList ++ '=' :: (value.chars ++ windowChars window) := by
  cases window <;> simp [parameters, windowChars, Expr.chars]

theorem extend_append_inj {name name' : String} {value value' : Expr}
    {window window' : Option Window}
    (h : ∀ c ∈ (extend name value window).names, IsIdentifier c)
    (h' : ∀ c ∈ (extend name' value' window').names, IsIdentifier c) {r s : List Char}
    (heq : (extend name value window).parameters.toList ++ ')' :: r =
      (extend name' value' window').parameters.toList ++ ')' :: s) :
    extend name value window = extend name' value' window' ∧ r = s := by
  have hparts {name : String} {value : Expr} {window : Option Window}
      (h : ∀ c ∈ (extend name value window).names, IsIdentifier c) :
      IsIdentifier name ∧ value.Named ∧ ∀ w ∈ window, ∀ c ∈ w.columns, IsIdentifier c := by
    rw [names, List.forall_mem_cons] at h
    cases window with
    | none => exact ⟨h.1, h.2, by simp⟩
    | some w =>
        obtain ⟨hname, hmentions⟩ := h
        have hall := List.forall_mem_append.1 hmentions
        exact ⟨hname, hall.1, by simpa using hall.2⟩
  obtain ⟨hname, hvalue, hwindow⟩ := hparts h
  obtain ⟨hname', hvalue', hwindow'⟩ := hparts h'
  rw [toList_parameters_extend, toList_parameters_extend, List.append_assoc, List.append_assoc,
    List.cons_append, List.cons_append, List.append_assoc, List.append_assoc] at heq
  obtain ⟨rfl, hafter⟩ := tellsApart_name hname hname' _ _ (startsIn_cons.2 (by decide))
    (startsIn_cons.2 (by decide)) heq
  obtain ⟨rfl, hlast⟩ := (Expr.apart hvalue hvalue').alone _ _ (startsIn_windowChars window r)
    (startsIn_windowChars window' s) (List.cons.inj hafter).2
  obtain ⟨rfl, rfl⟩ := windowChars_append_inj hwindow hwindow' hlast
  exact ⟨rfl, rfl⟩

theorem kind_not_separator (o : Operator) : ∀ c ∈ o.kind.toList, c ∉ separators := by
  cases o <;> simp [kind, separators]

/-- An operator is told whatever follows it. -/
theorem tellsApart_text (ho : ∀ c ∈ o.names, IsIdentifier c)
    (ho' : ∀ c ∈ o'.names, IsIdentifier c) :
    TellsApart Anything (fun o => o.text.toList) o o' := by
  intro r s _ _ h
  simp only [toList_text, List.append_assoc, List.cons_append, List.nil_append] at h
  obtain ⟨hkind, hrest⟩ := append_inj_of_startsIn o.kind_not_separator o'.kind_not_separator
    (startsIn_cons.2 (by decide)) (startsIn_cons.2 (by decide)) h
  rw [String.toList_inj] at hkind
  have hparameters := (List.cons.inj hrest).2
  cases o with
  | extend name value window =>
      cases o' with
      | extend name' value' window' => exact extend_append_inj ho ho' hparameters
      | _ => simp [kind] at hkind
  | selectRows condition =>
      cases o' with
      | selectRows condition' =>
          obtain ⟨rfl, hlast⟩ := (Expr.apart ho ho').alone (')' :: r) (')' :: s) (by simp) (by simp)
            hparameters
          exact ⟨rfl, (List.cons.inj hlast).2⟩
      | _ => simp [kind] at hkind
  | orderBy terms =>
      cases o' with
      | orderBy terms' =>
          obtain ⟨rfl, rfl⟩ := orderText_append_inj (by decide) (List.forall_mem_map.1 ho)
            (List.forall_mem_map.1 ho') hparameters
          exact ⟨rfl, rfl⟩
      | _ => simp [kind] at hkind
  | selectColumns columns =>
      cases o' with
      | selectColumns columns' =>
          obtain ⟨rfl, hlast⟩ := tellsApart_nameList ho ho' _ _ trivial trivial hparameters
          exact ⟨rfl, (List.cons.inj hlast).2⟩
      | _ => simp [kind] at hkind
  | dropColumns columns =>
      cases o' with
      | dropColumns columns' =>
          obtain ⟨rfl, hlast⟩ := tellsApart_nameList ho ho' _ _ trivial trivial hparameters
          exact ⟨rfl, (List.cons.inj hlast).2⟩
      | _ => simp [kind] at hkind
  | materialize table temporary =>
      cases o' with
      | materialize table' temporary' =>
          simp only [parameters, String.toList_append, List.append_assoc,
            List.append_cancel_left_eq] at hparameters
          obtain ⟨rfl, hflag⟩ := tellsApart_quoted table table' _ _ trivial trivial hparameters
          obtain ⟨rfl, hlast⟩ := tellsApart_choice "True" "False" rfl rfl
            (by decide) temporary temporary' _ _ trivial trivial (List.append_cancel_left hflag)
          exact ⟨rfl, (List.cons.inj hlast).2⟩
      | _ => simp [kind] at hkind

end Texts

end Operator

/-! ### Plans -/

/-- A table is told with its columns, whatever follows. -/
theorem TableRef.text_append_inj {t u : TableRef} (ht : ∀ c ∈ t.columns, IsIdentifier c)
    (hu : ∀ c ∈ u.columns, IsIdentifier c) {r s : List Char}
    (h : t.text.toList ++ (" -> columns=".toList ++ ((nameList t.columns).toList ++ r)) =
      u.text.toList ++ (" -> columns=".toList ++ ((nameList u.columns).toList ++ s))) :
    t = u ∧ r = s := by
  obtain ⟨name, columns, temporary⟩ := t
  obtain ⟨name', columns', temporary'⟩ := u
  simp only [text, String.toList_append, List.append_assoc, List.append_cancel_left_eq] at h
  obtain ⟨rfl, hflag⟩ := tellsApart_quoted name name' _ _ trivial trivial h
  obtain ⟨rfl, hcolumns⟩ := tellsApart_choice "True" "False" rfl rfl (by decide)
    temporary temporary' _ _ trivial trivial (List.append_cancel_left hflag)
  simp only [List.append_cancel_left_eq] at hcolumns
  obtain ⟨rfl, rfl⟩ := tellsApart_nameList ht hu _ _ trivial trivial hcolumns
  exact ⟨rfl, rfl⟩

namespace Plan

/-- The lines of the steps, each after a line break. -/
def stepChars (steps : List PlanStep) : List Char :=
  ledBy '\n' [] (fun s : PlanStep =>
    (NodeView.line ⟨s.position, s.operator.kind, s.operator.text, s.output⟩).toList) steps

theorem toList_render (p : Plan) : p.render.toList =
    (NodeView.line ⟨0, "Table", p.table.text, p.table.columns⟩).toList ++ stepChars p.steps := by
  rw [render, String.toList_intercalate, nodes, List.map_cons, List.map_cons, intercalate_cons]
  simp [stepChars, ledBy, List.flatMap_map]

theorem toList_line (n : NodeView) : n.line.toList = (toString n.position ++ ": ").toList ++
    (n.label.toList ++ (" -> columns=".toList ++ (nameList n.columns).toList)) := by
  simp [NodeView.line]

/-- The steps after the same steps: where the text goes on alike, so do the operators, if each is
told from the other one at its place. -/
theorem operators_of_stepChars {position : Nat} {columns : List String} {os os' : List Operator}
    (hapart : ∀ i ∈ os.zip os', TellsApart Anything (fun o => o.text.toList) i.1 i.2)
    (h : stepChars (stepsFrom position columns os) =
      stepChars (stepsFrom position columns os')) : os = os' := by
  induction os generalizing position columns os' with
  | nil =>
      cases os' with
      | nil => rfl
      | cons o' os' => cases h
  | cons o os ih =>
      cases os' with
      | nil => cases h
      | cons o' os' =>
          have hcons (o : Operator) (os : List Operator) :
              stepChars (stepsFrom position columns (o :: os)) =
                '\n' :: ((toString position ++ ": ").toList ++ (o.text.toList ++
                  (" -> columns=".toList ++ ((nameList (o.output columns)).toList ++
                    stepChars (stepsFrom (position + 1) (o.output columns) os))))) := by
            simp [stepChars, stepsFrom, ledBy, toList_line]
          rw [List.zip_cons_cons, List.forall_mem_cons] at hapart
          rw [hcons, hcons, List.cons.injEq, List.append_cancel_left_eq] at h
          have hhead : TellsApart Anything (fun o => o.text.toList) o o' := hapart.1
          obtain ⟨rfl, hrest⟩ := hhead _ _ trivial trivial h.2
          rw [List.append_cancel_left_eq, List.append_cancel_left_eq] at hrest
          rw [ih hapart.2 hrest]

/-- The names that are given to columns: those of the table, and those of what is computed. -/
def givenNames (p : Plan) : List String :=
  p.table.columns ++ p.operators.filterMap Operator.given?

/-- No other columns come out of a plan, and its operators read and name no others. -/
theorem Made.names_subset {p : Plan} (hp : p.Made) :
    p.columns ⊆ p.givenNames ∧ ∀ o ∈ p.operators, o.names ⊆ p.givenNames := by
  induction hp with
  | table h => exact ⟨by simp [columns, columnsAfter, givenNames, ofTable], by simp [ofTable]⟩
  | @add p q d hp h ih =>
      obtain ⟨n, hn, hcolumns⟩ := p.exists_last_node
      have hheading : IsHeading p.columns :=
        hcolumns ▸ hp.valid.heading n (List.mem_of_getElem? hn)
      obtain ⟨-, o, hcheck, rfl⟩ := add_eq_ok_iff.1 h
      have hmentions : o.mentions ⊆ p.columns := (valid_of_check hheading hcheck).mentions
      have hgiven : givenNames ⟨p.table, p.operators ++ [o]⟩ = p.givenNames ++ o.given?.toList := by
        cases hname : o.given? <;> simp [givenNames, hname]
      have hold : p.givenNames ⊆ p.givenNames ++ o.given?.toList := List.subset_append_left _ _
      have hcolumns : p.columns ⊆ p.givenNames ++ o.given?.toList := List.Subset.trans ih.1 hold
      have hmentions := List.Subset.trans hmentions hcolumns
      have hnew : o.given?.toList ⊆ p.givenNames ++ o.given?.toList := List.subset_append_right _ _
      rw [columns_append, hgiven, List.forall_mem_append, List.forall_mem_singleton]
      refine ⟨?_, fun a ha => List.Subset.trans (ih.2 a ha) hold, ?_⟩
      · exact List.Subset.trans (o.output_subset p.columns)
          (List.append_subset.2 ⟨List.append_subset.2 ⟨hcolumns, hmentions⟩, hnew⟩)
      · exact List.Subset.trans o.names_subset (List.append_subset.2 ⟨hmentions, hnew⟩)

/-- The text of a plan is that of no other plan, whatever its literals hold and however its table is
called, if the names that are given to columns are plain identifiers. -/
theorem Made.eq_of_render_eq {p q : Plan} (hp : p.Made) (hq : q.Made)
    (hnames : ∀ c ∈ p.givenNames, IsIdentifier c) (hnames' : ∀ c ∈ q.givenNames, IsIdentifier c)
    (h : p.render = q.render) : p = q := by
  have htable {p : Plan} (hnames : ∀ c ∈ p.givenNames, IsIdentifier c) :
      ∀ c ∈ p.table.columns, IsIdentifier c :=
    fun c hc => hnames c (List.mem_append_left _ hc)
  have hoperators {p : Plan} (hp : p.Made) (hnames : ∀ c ∈ p.givenNames, IsIdentifier c) :
      ∀ o ∈ p.operators, ∀ c ∈ o.names, IsIdentifier c :=
    fun o ho c hc => hnames c (hp.names_subset.2 o ho hc)
  have hchars := congrArg String.toList h
  rw [toList_render, toList_render, toList_line, toList_line] at hchars
  simp only [List.append_assoc, List.append_cancel_left_eq] at hchars
  obtain ⟨hsame, hsteps⟩ := TableRef.text_append_inj (htable hnames) (htable hnames') hchars
  obtain ⟨table, operators⟩ := p
  obtain ⟨table', operators'⟩ := q
  obtain rfl : table = table' := hsame
  have hapart := forall_mem_zip fun o ho o' ho' =>
    Operator.tellsApart_text (hoperators hp hnames o ho) (hoperators hq hnames' o' ho')
  exact congrArg (Plan.mk table) (operators_of_stepChars hapart hsteps)

/-- A condition with a text that holds what plans are written with, as an expression and as text. -/
theorem Made.eq_of_render_eq_delimiters :
    let table : TableRef := ⟨"it's", ["team"], false⟩
    let p : Plan := ⟨table, [.selectRows
      (.compare .eq (.column "team") (.literal (.str "', partition_by=['\n2: OrderBy(")))]⟩
    ∃ q, (Plan.ofTable table).selectRows (.text "team = ''', partition_by=[''\n2: OrderBy('") =
        .ok q ∧ p.Made ∧ q.Made ∧ (∀ c ∈ p.givenNames ++ q.givenNames, IsIdentifier c) ∧
      p.render = q.render ∧ p = q := by
  intro table p
  have htable : (Plan.ofTable table).Made := by
    have hmake : TableRef.make "it's" [.str "team"] false = .ok table := rfl
    exact .table hmake
  have hp : p.Made := htable.add
    (Plan.add_of_check rfl (check_selectRows_eq_ok.2 ⟨⟨rfl, by decide⟩, rfl⟩))
  have hseen : ((Plan.ofTable table).selectRows
      (.text "team = ''', partition_by=[''\n2: OrderBy('")).toOption.map
        (fun q => (q.render, q.givenNames)) = some (p.render, ["team"]) := by decide +kernel
  obtain ⟨q, hq, hshown⟩ := Option.map_eq_some_iff.1 hseen
  obtain ⟨hrender, hgiven⟩ := Prod.mk.inj hshown
  rw [toOption_eq_some] at hq
  have hmade : q.Made := Addition.made htable (a := .selectRows (.text _)) hq
  have hteam : IsIdentifier "team" :=
    ⟨List.all_eq_true.1 (by decide +kernel), ⟨'t', by decide⟩, by decide⟩
  have hgiven' : p.givenNames = ["team"] := rfl
  have hnames : ∀ c ∈ p.givenNames, IsIdentifier c := by simpa [hgiven'] using hteam
  have hnames' : ∀ c ∈ q.givenNames, IsIdentifier c := by simpa [hgiven] using hteam
  exact ⟨q, hq, hp, hmade, List.forall_mem_append.2 ⟨hnames, hnames'⟩, hrender.symm,
    Made.eq_of_render_eq hp hmade hnames hnames' hrender.symm⟩

end Plan

end Tabula
