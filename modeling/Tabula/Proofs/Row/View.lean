import Tabula.Proofs.Expr.Eval
import Tabula.Proofs.Row.Relabel
import Tabula.Proofs.Row.Window

/-!
Rows as seen through some columns. Two rows look alike through columns in which they read the same,
whatever else they hold; computing, sorting and ranking tell only rows apart that look different
through the columns they read.
-/

namespace Tabula

namespace Row

variable {columns wider : List String} {r s : Row}

/-- What a row holds in some columns. -/
def pick (columns : List String) (r : Row) : Row :=
  ⟨columns.filterMap fun c => (r.get? c).map (c, ·)⟩

theorem get?_pick (columns : List String) (r : Row) (c : String) :
    (r.pick columns).get? c = if c ∈ columns then r.get? c else none := by
  rw [pick, get?]
  induction columns with
  | nil => simp
  | cons d columns ih =>
      rw [List.filterMap_cons]
      cases hd : r.get? d with
      | none =>
          simp only [Option.map_none, ih, List.mem_cons]
          by_cases hc : c = d
          · subst hc
            simp [hd]
          · simp [hc]
      | some v =>
          simp only [Option.map_some, List.lookup_cons, List.mem_cons]
          by_cases hc : c = d
          · subst hc
            simp [hd]
          · rw [beq_false_of_ne hc]
            simp only [ih, hc, false_or]

theorem get?_pick_of_mem {c : String} (h : c ∈ columns) : (r.pick columns).get? c = r.get? c := by
  rw [get?_pick, if_pos h]

/-- Rows look alike if they read the same in every column. -/
theorem pick_eq_iff : r.pick columns = s.pick columns ↔ ∀ c ∈ columns, r.get? c = s.get? c := by
  constructor
  · intro h c hc
    rw [← get?_pick_of_mem hc, h, get?_pick_of_mem hc]
  · intro h
    exact congrArg Row.mk (List.filterMap_congr fun c hc => by rw [h c hc])

theorem pick_pick (h : ∀ c ∈ columns, c ∈ wider) : (r.pick wider).pick columns = r.pick columns :=
  pick_eq_iff.2 fun _ hc => get?_pick_of_mem (h _ hc)

/-- A projection gives what is seen through its columns. -/
theorem eq_pick_of_project (h : r.project columns = .ok s) : s = r.pick columns := by
  obtain ⟨rfl, hhas⟩ := eq_fill_of_project h
  have hcells : (columns.filterMap fun c => (r.get? c).map (c, ·)) =
      columns.map fun c => (c, r.getD c) := by
    rw [← List.filterMap_eq_map]
    refine List.filterMap_congr fun c hc => ?_
    obtain ⟨v, hv⟩ := hhas c hc
    simp [getD, hv]
  rw [pick, hcells, fill]

/-- A row that holds just these columns is all that is seen through them. -/
theorem pick_columns (h : r.columns.Nodup) : r.pick r.columns = r := by
  have hproject : r.project r.columns = .ok (r.fill r.columns) := project_eq_fill fun _ hc => hc
  rw [← eq_pick_of_project hproject]
  exact fill_columns h

theorem getD_congr {c : String} (h : r.get? c = s.get? c) : r.getD c = s.getD c := by
  rw [getD, getD, h]

theorem get?_set (r : Row) (name : String) (v : Value) (c : String) :
    (r.set name v).get? c = if c = name then some v else r.get? c := by
  by_cases hc : c = name
  · rw [hc, if_pos rfl, get?_set_self]
  · rw [if_neg hc, get?_set_of_ne r v hc]

end Row

theorem Expr.evalAll_congr {r s : Row} {es : List Expr} (h : ∀ e ∈ es, e.eval r = e.eval s) :
    evalAll r es = evalAll s es := by
  rw [evalAll_eq_mapM, evalAll_eq_mapM]
  exact mapM_congr_left h

/-- An expression has the same value, or none for the same reason, in rows that look alike through
its columns. -/
theorem Expr.eval_congr {r s : Row} {e : Expr} (h : ∀ c ∈ e.columns, r.get? c = s.get? c) :
    e.eval r = e.eval s := by
  induction e with
  | column name => rw [eval, eval, h name (List.mem_singleton.2 rfl)]
  | literal l => rw [eval, eval]
  | ranking f => rw [eval, eval]
  | compare op l r ihl ihr =>
      rw [columns, List.forall_mem_append] at h
      rw [eval, eval, ihl h.1, ihr h.2]
  | arith op l r ihl ihr =>
      rw [columns, List.forall_mem_append] at h
      rw [eval, eval, ihl h.1, ihr h.2]
  | not e ih => rw [eval, eval, ih h]
  | junction op a b rest iha ihb ihrest =>
      rw [columns, List.forall_mem_append, List.forall_mem_append] at h
      have hrest := evalAll_congr fun e he => ihrest e he fun c hc =>
        h.2 c (columnsOf_eq_flatMap rest ▸ List.mem_flatMap.2 ⟨e, he, hc⟩)
      rw [eval, eval, iha h.1.1, ihb h.1.2, hrest]
  | isNull e negated ih => rw [eval, eval, ih h]
  | unary f e ih => rw [eval, eval, ih h]
  | round e ih => rw [eval, eval, ih h]
  | roundTo e p ihe ihp =>
      rw [columns, List.forall_mem_append] at h
      rw [eval, eval, ihe h.1, ihp h.2]
  | coalesce a rest iha ihrest =>
      rw [columns, List.forall_mem_append] at h
      have hrest := evalAll_congr fun e he => ihrest e he fun c hc =>
        h.2 c (columnsOf_eq_flatMap rest ▸ List.mem_flatMap.2 ⟨e, he, hc⟩)
      rw [eval, eval, iha h.1, hrest]

/-- The rows look alike one by one. -/
def LookAlike (columns : List String) (rows rows' : List Row) : Prop :=
  rows.map (Row.pick columns) = rows'.map (Row.pick columns)

namespace LookAlike

variable {columns wider : List String} {rows rows' : List Row}

theorem mono (h : LookAlike wider rows rows') (hsub : ∀ c ∈ columns, c ∈ wider) :
    LookAlike columns rows rows' := by
  have hpick (rows : List Row) :
      rows.map (Row.pick columns) = (rows.map (Row.pick wider)).map (Row.pick columns) := by
    rw [List.map_map]
    exact List.map_congr_left fun r _ => (Row.pick_pick hsub).symm
  rw [LookAlike, hpick rows, hpick rows', h]

/-- Maps of rows that look alike give rows that look alike. -/
theorem mapM {ε : Type} {f : Row → Except ε Row} (h : LookAlike wider rows rows')
    (hf : ∀ r r' s s', r.pick wider = r'.pick wider → f r = .ok s → f r' = .ok s' →
      s.pick columns = s'.pick columns) {out out' : List Row}
    (hout : rows.mapM f = .ok out) (hout' : rows'.mapM f = .ok out') :
    LookAlike columns out out' := by
  induction rows generalizing rows' out out' with
  | nil =>
      cases List.map_eq_nil_iff.1 (Eq.symm h)
      cases hout
      cases hout'
      rfl
  | cons r rest ih =>
      obtain ⟨r', rest', rfl, hr, hrest⟩ := List.map_eq_cons_iff.1 (Eq.symm h)
      obtain ⟨s, ss, hs, hss, rfl⟩ := mapM_cons_eq_ok.1 hout
      obtain ⟨s', ss', hs', hss', rfl⟩ := mapM_cons_eq_ok.1 hout'
      exact congrArg₂ List.cons (hf r r' s s' hr.symm hs hs') (ih hrest.symm hss hss')

/-- A sort gives rows that look alike again if its columns are among those looked through. -/
theorem sortRows {terms : List OrderTerm} (h : LookAlike columns rows rows')
    (hterms : ∀ t ∈ terms, t.column ∈ columns) {out out' : List Row}
    (hout : sortRows terms rows = .ok out) (hout' : Tabula.sortRows terms rows' = .ok out') :
    LookAlike columns out out' := by
  have hpicked (rows : List Row) : Tabula.sortRows terms (rows.map (Row.pick columns)) =
      List.map (Row.pick columns) <$> Tabula.sortRows terms rows := by
    refine (sortItems_map (Row.pick columns) id terms rows).trans (congrArg _ ?_)
    exact sortItems_congr rows fun t ht r => Row.get?_pick_of_mem (hterms t ht)
  have heq := hpicked rows'
  rw [← h, hpicked rows, hout, hout'] at heq
  exact Except.ok.inj heq

end LookAlike

/-! ### Rankings -/

theorem Ranking.length_numbersFrom (f : Ranking) (before last : Nat)
    (previous : Option (List Value)) (keys : List (List Value)) :
    (f.numbersFrom before last previous keys).length = keys.length := by
  induction keys generalizing before last previous with
  | nil => rfl
  | cons key keys ih => exact congrArg (· + 1) (ih _ _ _)

namespace RankedWindow

variable {w : RankedWindow}

/-- Changes rows and leaves their places. -/
abbrev onRow (f : Row → Row) : Row × Nat → Row × Nat := Prod.map f id

/-- A row with its number set. -/
def numberedRow (w : RankedWindow) (m : (Row × Nat) × Nat) : Row × Nat :=
  (m.1.1.set w.name (.int m.2), m.1.2)

theorem rankGroup_def (w : RankedWindow) (members : List (Row × Nat)) :
    w.rankGroup members = (do
      let sorted ← (sortItems Prod.fst w.window.orderBy members).mapError (·.at (some w.position))
      let keys := sorted.map fun m => w.window.orderBy.map fun t => m.1.getD t.column
      return (sorted.zip (w.ranking.numbers keys)).map w.numberedRow) := rfl

/-- The rows that come out, from those in the groups. -/
def finish (order : RowOrder) (groups : List (List (Row × Nat))) : List Row :=
  match order with
  | .partition => groups.flatten.map Prod.fst
  | .input => (groups.flatten.mergeSort fun a b => decide (a.2 ≤ b.2)).map Prod.fst

/-- An item with its partition key. -/
def keyedItem (w : RankedWindow) (m : Row × Nat) : Result (List Value × (Row × Nat)) := do
  return (← partitionKey w.window.partitionBy m.1, m)

theorem rows_eq_finish (w : RankedWindow) (order : RowOrder) (rows : List Row) :
    w.rows order rows = (do
      let keyed ← rows.zipIdx.mapM w.keyedItem
      let groups ← (groupsOf keyed).mapM w.rankGroup
      return finish order groups) := by
  cases order <;> rfl

theorem finish_map (g : Row → Row) (order : RowOrder) (groups : List (List (Row × Nat))) :
    (finish order groups).map g = finish order (groups.map (List.map (onRow g))) := by
  cases order with
  | partition => simp [finish, List.map_flatten, Function.comp_def]
  | input =>
      have hsort := List.map_mergeSort (f := onRow g) (l := groups.flatten)
        (r := fun a b => decide (a.2 ≤ b.2)) (s := fun a b => decide (a.2 ≤ b.2))
        fun _ _ _ _ => rfl
      rw [finish, finish, ← List.map_flatten, ← hsort, List.map_map, List.map_map]
      rfl

section Through

variable {f g : Row → Row}

theorem partitionKey_through {columns : List String}
    {r s : Row} (h : ∀ c ∈ columns, r.get? c = s.get? c) :
    partitionKey columns r = partitionKey columns s := by
  have hread : columns.mapM (readColumn r) = columns.mapM (readColumn s) :=
    mapM_congr_left fun c hc => by rw [readColumn, readColumn, h c hc]
  rw [partitionKey_def, partitionKey_def, hread]

/-- A ranking of one group sees its rows through the columns of the window. -/
theorem rankGroup_through (hf : ∀ r, ∀ t ∈ w.window.orderBy, (f r).get? t.column = r.get? t.column)
    (hg : ∀ r v, g ((f r).set w.name v) = g (r.set w.name v)) (members : List (Row × Nat)) :
    List.map (onRow g) <$> w.rankGroup (members.map (onRow f)) =
      List.map (onRow g) <$> w.rankGroup members := by
  have hsort : sortItems Prod.fst w.window.orderBy (members.map (onRow f)) =
      List.map (onRow f) <$> sortItems Prod.fst w.window.orderBy members := by
    rw [sortItems_map]
    exact congrArg _ (sortItems_congr members fun t ht m => hf m.1 t ht)
  rw [rankGroup_def, rankGroup_def, hsort, mapError_map]
  simp only [map_bind, bind_map_left, map_pure]
  refine bind_congr fun sorted => congrArg pure ?_
  have hkeys : ((sorted.map (onRow f)).map fun m => w.window.orderBy.map fun t =>
      m.1.getD t.column) = sorted.map fun m => w.window.orderBy.map fun t => m.1.getD t.column := by
    rw [List.map_map]
    exact List.map_congr_left fun m _ => List.map_congr_left fun t ht => Row.getD_congr (hf m.1 t ht)
  rw [hkeys, List.zip_map_left, List.map_map, List.map_map, List.map_map]
  exact List.map_congr_left fun m _ => Prod.ext (hg m.1.1 _) rfl

/-- A ranking sees its rows through the columns of the window. -/
theorem rows_through (hf : ∀ r, ∀ c ∈ w.window.columns, (f r).get? c = r.get? c)
    (hg : ∀ r v, g ((f r).set w.name v) = g (r.set w.name v)) (order : RowOrder)
    (rows : List Row) :
    List.map g <$> w.rows order (rows.map f) = List.map g <$> w.rows order rows := by
  have hkey (m : Row × Nat) : id <$> w.keyedItem (onRow f m) =
      Prod.map id (onRow f) <$> w.keyedItem m := by
    have hthrough : partitionKey w.window.partitionBy (onRow f m).1 =
        partitionKey w.window.partitionBy m.1 :=
      partitionKey_through fun c hc => hf m.1 c (List.mem_append_left _ hc)
    simp only [keyedItem, map_bind, map_pure, hthrough]
    rfl
  have hkeyed : (rows.map f).zipIdx.mapM w.keyedItem =
      List.map (Prod.map id (onRow f)) <$> rows.zipIdx.mapM w.keyedItem := by
    rw [List.zipIdx_map, ← mapM_map (onRow f) hkey, List.map_id_fun, id_map]
  have hgroup := rankGroup_through (fun r t ht =>
    hf r t.column (List.mem_append_right _ (List.mem_map_of_mem ht))) hg
  rw [rows_eq_finish, rows_eq_finish, hkeyed]
  simp only [map_bind, bind_map_left, map_pure, finish_map, groupsOf_map]
  refine bind_congr fun keyed => ?_
  have hgroups := mapM_map (List.map (onRow f)) hgroup (groupsOf keyed)
  have hfinished := congrArg (fun x => x >>= fun groups => pure (finish order groups)) hgroups
  simpa only [bind_map_left] using hfinished

end Through

/-- A group that is ranked comes out in some order, with nothing but the ranks changed. -/
theorem exists_of_rankGroup {members out : List (Row × Nat)} (h : w.rankGroup members = .ok out) :
    ∃ (sorted : List (Row × Nat)) (numbers : List Nat), sorted.Perm members ∧
      sorted.length = numbers.length ∧ out = (sorted.zip numbers).map w.numberedRow := by
  rw [rankGroup_def] at h
  simp only [bind_eq_ok, mapError_eq_ok, pure_eq_ok] at h
  obtain ⟨sorted, hsorted, rfl⟩ := h
  refine ⟨sorted, _, perm_of_sortItems hsorted, ?_, rfl⟩
  rw [Ranking.numbers, Ranking.length_numbersFrom, List.length_map]

/-- The groups come out, each in some order, with nothing but the ranks changed. -/
theorem exists_of_mapM_rankGroup {g : Row → Row} (hg : ∀ r v, g (r.set w.name v) = g r)
    {groups ranked : List (List (Row × Nat))} (h : groups.mapM w.rankGroup = .ok ranked) :
    ∃ items : List (Row × Nat), items.Perm groups.flatten ∧
      ranked.flatten.map (onRow g) = items.map (onRow g) := by
  induction groups generalizing ranked with
  | nil =>
      cases h
      exact ⟨[], .refl _, rfl⟩
  | cons members rest ih =>
      obtain ⟨out, outs, hout, houts, rfl⟩ := mapM_cons_eq_ok.1 h
      obtain ⟨sorted, numbers, hperm, hlength, rfl⟩ := exists_of_rankGroup hout
      obtain ⟨items, hitems, heq⟩ := ih houts
      refine ⟨sorted ++ items, hperm.append hitems, ?_⟩
      have hsorted : ((sorted.zip numbers).map w.numberedRow).map (onRow g) =
          sorted.map (onRow g) := by
        conv_rhs => rw [← List.map_fst_zip (Nat.le_of_eq hlength), List.map_map]
        rw [List.map_map]
        exact List.map_congr_left fun m _ => Prod.ext (hg m.1.1 _) rfl
      rw [List.flatten_cons, List.map_append, List.map_append, hsorted, heq]

theorem perm_zipIdx_of_keyed {rows : List Row} {keyed : List (List Value × (Row × Nat))}
    (h : rows.zipIdx.mapM w.keyedItem = .ok keyed) :
    (groupsOf keyed).flatten.Perm rows.zipIdx := by
  have hback : keyed.map Prod.snd = rows.zipIdx := by
    refine map_of_mapM_eq_ok (fun m item hitem => ?_) h
    obtain ⟨key, _, heq⟩ := bind_eq_ok.1 hitem
    cases heq
    rfl
  exact hback ▸ perm_flatten_groups keyed

/-- A ranking in the order of the input changes nothing but the column of the ranks. -/
theorem map_of_rows_input {g : Row → Row} (hg : ∀ r v, g (r.set w.name v) = g r)
    {rows out : List Row} (h : w.rows .input rows = .ok out) : out.map g = rows.map g := by
  rw [rows_eq_finish] at h
  simp only [bind_eq_ok, pure_eq_ok] at h
  obtain ⟨keyed, hkeyed, groups, hgroups, rfl⟩ := h
  obtain ⟨items, hperm, hitems⟩ := exists_of_mapM_rankGroup hg hgroups
  rw [finish_map, finish, ← List.map_flatten, hitems]
  have hplaces := mergeSort_places (f := fun m => g m.1)
    (hperm.trans (perm_zipIdx_of_keyed hkeyed))
  rw [map_zipIdx_row] at hplaces
  exact hplaces

/-- A ranking gives rows that have a rank set. -/
theorem exists_of_mem_rows {order : RowOrder} {rows out : List Row}
    (h : w.rows order rows = .ok out) : ∀ s ∈ out, ∃ r ∈ rows, ∃ v, s = r.set w.name v := by
  rw [rows_eq_finish] at h
  simp only [bind_eq_ok, pure_eq_ok] at h
  obtain ⟨keyed, hkeyed, groups, hgroups, rfl⟩ := h
  have hranked : Ends (fun _ => True)
      (fun groups => ∀ members ∈ groups, ∀ m ∈ members, ∃ r ∈ rows, ∃ v, m.1 = r.set w.name v)
      ((groupsOf keyed).mapM w.rankGroup) := by
    refine ends_mapM fun members hmembers => Ends.mono (.self fun _ _ => trivial) ?_
    intro out hout m hm
    obtain ⟨sorted, numbers, hperm, _, rfl⟩ := exists_of_rankGroup hout
    obtain ⟨p, hp, rfl⟩ := List.mem_map.1 hm
    have hmem : p.1 ∈ (groupsOf keyed).flatten :=
      List.mem_flatten.2 ⟨members, hmembers, hperm.subset (List.of_mem_zip hp).1⟩
    exact ⟨p.1.1, mem_of_mem_zipIdx ((perm_zipIdx_of_keyed hkeyed).subset hmem), _, rfl⟩
  intro s hs
  obtain ⟨m, hm, rfl⟩ : ∃ m ∈ groups.flatten, m.1 = s := by
    cases order with
    | partition => exact List.mem_map.1 hs
    | input =>
        obtain ⟨m, hm, heq⟩ := List.mem_map.1 hs
        exact ⟨m, (List.mergeSort_perm _ _).subset hm, heq⟩
  obtain ⟨members, hmembers, hmem⟩ := List.mem_flatten.1 hm
  exact hranked.of_eq_ok hgroups members hmembers m hmem

end RankedWindow

end Tabula
