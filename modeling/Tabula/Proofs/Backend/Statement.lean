import Tabula.Backend
import Tabula.Proofs.Result
import Tabula.Proofs.Text.Delimited

/-!
Statements tell what they are about. A quoted name ends at the first quote that is not doubled, so
whatever characters a name holds, the statement that it stands in can be read in one way only: what
is created, filled or asked for is told by the text of the statement alone.
-/

namespace Tabula

/-! ### What is asked of a connection -/

namespace Talk

variable {α β : Type} {P : Call → Prop}

/-- All calls that are made have `P`, whatever the replies. -/
def Makes (P : Call → Prop) (talk : Talk α) : Prop :=
  ∀ c : Conversation, ∀ call ∈ (talk.run.run c).2.calls, call ∈ c.calls ∨ P call

namespace Makes

theorem pure (a : α) : Makes P (Pure.pure a : Talk α) := fun _ _ hcall => .inl hcall

theorem throw (e : Failure) : Makes P (throw e : Talk α) := fun _ _ hcall => .inl hcall

theorem bind {x : Talk α} {f : α → Talk β} (hx : Makes P x) (hf : ∀ a, Makes P (f a)) :
    Makes P (x >>= f) := by
  intro c call hcall
  rw [ExceptT.run_bind, StateT.run_bind] at hcall
  have hfirst := hx c call
  generalize x.run.run c = out at hcall hfirst
  obtain ⟨r, c'⟩ := out
  cases r with
  | error e => exact hfirst hcall
  | ok a =>
      rcases hf a c' call hcall with hcall | hcall
      · exact hfirst hcall
      · exact .inr hcall

theorem ofResult (r : Result α) : Makes P (Talk.ofResult r) := fun _ _ hcall => .inl hcall

/-- What depends on a result is reached only with that result. -/
theorem bind_ofResult {r : Result α} {f : α → Talk β} (hf : ∀ a, r = .ok a → Makes P (f a)) :
    Makes P (Talk.ofResult r >>= f) := by
  cases r with
  | error e => exact fun _ _ hcall => .inl hcall
  | ok a => exact hf a rfl

theorem say {call : Call} (h : P call) : Makes P (Talk.say call) := by
  intro c call' hcall
  rcases List.mem_append.1 hcall with hcall | hcall
  · exact .inl hcall
  · exact .inr (List.mem_singleton.1 hcall ▸ h)

theorem execute {sql : String} (h : P (.execute sql)) : Makes P (Talk.execute sql) := by
  refine bind (say h) fun _ c call hcall => .inl ?_
  rcases c with ⟨calls, _ | ⟨reply, replies⟩, batches⟩
  · exact hcall
  · cases reply <;> exact hcall

theorem executeMany {sql : String} {rows : List (List Value)} (h : P (.executeMany sql rows)) :
    Makes P (Talk.executeMany sql rows) := by
  refine bind (say h) fun _ c call hcall => .inl ?_
  rcases c with ⟨calls, replies, _ | ⟨batch, batches⟩⟩
  · exact hcall
  · cases batch <;> exact hcall

theorem of_mem_hold {talk : Talk α} (h : Makes P talk) {replies : List Reply} {call : Call}
    (hcall : call ∈ (talk.hold replies).2) : P call :=
  (h ⟨[], replies, []⟩ call hcall).resolve_left List.not_mem_nil

end Makes

end Talk

namespace Backend

open Sql (quotedName)
open Talk (Makes)

/-- Storing a table creates it and then fills it. -/
theorem makes_load (name : String) (t : Table) (temporary : Bool) :
    Makes (fun call => ∃ columns, typedColumns t = .ok columns ∧
      (call = .execute (createText name temporary columns) ∨
        call = .executeMany (insertText name t.columns.length)
          (t.rows.map fun r => t.columns.map r.getD))) (load name t temporary) := by
  refine .bind_ofResult fun columns hcolumns => ?_
  refine .bind (.execute ⟨columns, hcolumns, .inl rfl⟩) fun _ => ?_
  dsimp only
  split
  · exact .bind (.executeMany ⟨columns, hcolumns, .inr rfl⟩) fun _ => .ofResult _
  · exact .ofResult _

/-- Reading a table asks for its columns and then for the rows. -/
theorem makes_read (ref : TableRef) :
    Makes (fun call => call = .execute (probeText ref.name) ∨ call = .execute (selectText ref))
      (read ref) := by
  refine .bind ?_ fun stored => ?_
  · refine .bind (.execute (.inl rfl)) fun answer => ?_
    split
    · exact .throw _
    · exact .pure _
  · split
    · refine .bind ?_ fun _ => .ofResult _
      refine .bind (.execute (.inr rfl)) fun answer => ?_
      split <;> exact .pure _
    · exact .throw _

/-! ### Names and types in statements -/

theorem toList_quotedName (name : String) :
    (quotedName name).toList = '"' :: (doubled '"' name.toList ++ ['"']) := by
  simp [quotedName, doubled]

/-- A quoted name ends at the first quote that no other follows. -/
theorem tellsApart_quotedName (name name' : String) :
    TellsApart (fun cs => cs.head? ≠ some '"') (fun n => (quotedName n).toList) name name' := by
  intro r s hr hs h
  simp only [toList_quotedName, List.cons_append, List.append_assoc, List.nil_append,
    List.cons.injEq, true_and] at h
  obtain ⟨hsame, hrest⟩ := doubled_append_inj hr hs h
  exact ⟨String.toList_inj.1 hsame, hrest⟩

theorem startsOff_quotedName {closers : List Char} (h : '"' ∉ closers) (name : String) :
    StartsOff closers (quotedName name).toList :=
  ⟨'"', by rw [toList_quotedName]; rfl, h⟩

theorem tellsApart_typeName (type type' : ColumnType) :
    TellsApart (StartsIn [',', ')']) (fun t => t.name.toList) type type' := by
  have hfree (t : ColumnType) : ∀ c ∈ t.name.toList, c ∉ [',', ')'] := by
    cases t <;> simp [ColumnType.name]
  refine tellsApart_of_free (hfree type) (hfree type') fun h => ?_
  revert h
  cases type <;> cases type' <;> decide

/-- A column as it is declared. -/
def columnText (c : String × ColumnType) : String := quotedName c.1 ++ " " ++ c.2.name

theorem tellsApart_columnText (c c' : String × ColumnType) :
    TellsApart (StartsIn [',', ')']) (fun c => (columnText c).toList) c c' := by
  intro r s hr hs h
  simp only [columnText, String.toList_append, List.append_assoc] at h
  obtain ⟨hname, hrest⟩ := tellsApart_quotedName c.1 c'.1 _ _ (by simp) (by simp) h
  obtain ⟨htype, hrest⟩ := tellsApart_typeName c.2 c'.2 r s hr hs
    (List.append_cancel_left hrest)
  exact ⟨Prod.ext hname htype, hrest⟩

theorem startsOff_columnText {closers : List Char} (h : '"' ∉ closers) (c : String × ColumnType) :
    StartsOff closers (columnText c).toList := by
  simp only [columnText, String.toList_append, List.append_assoc]
  exact (startsOff_quotedName h c.1).append _

/-! ### Statements -/

/-- What follows the words of a statement that creates a table. -/
def definitionText (name : String) (columns : List (String × ColumnType)) : String :=
  quotedName name ++ (" (" ++ (commaList (columns.map columnText) ++ ")"))

theorem definitionText_inj {name name' : String} {columns columns' : List (String × ColumnType)}
    (h : (definitionText name columns).toList = (definitionText name' columns').toList) :
    name = name' ∧ columns = columns' := by
  simp only [definitionText, commaList, String.toList_append, toList_intercalate, commas_map] at h
  obtain ⟨hname, hrest⟩ := tellsApart_quotedName name name' _ _ (by simp) (by simp) h
  have hcomma : ')' ≠ ',' := by decide
  obtain ⟨hcolumns, -⟩ := commas_append_inj (r := []) (s := []) hcomma
    (fun c _ => startsOff_columnText (by decide) c) (fun i _ => tellsApart_columnText i.1 i.2)
    (List.append_cancel_left hrest)
  exact ⟨hname, hcolumns⟩

theorem toList_createText (name : String) (temporary : Bool)
    (columns : List (String × ColumnType)) :
    (createText name temporary columns).toList = "CREATE OR REPLACE ".toList ++
      ((if temporary then "TEMPORARY TABLE " else "TABLE ").toList ++
        (definitionText name columns).toList) := by
  have hcolumns : (columns.map fun c => quotedName c.1 ++ " " ++ c.2.name) =
      columns.map columnText := rfl
  unfold createText definitionText
  rw [hcolumns]
  simp only [String.toList_append, List.append_assoc]

theorem temporary_ne_kept (r s : List Char) :
    "TEMPORARY TABLE ".toList ++ r ≠ "TABLE ".toList ++ s := by
  have hkept : "TABLE ".toList = ['T', 'A', 'B', 'L', 'E', ' '] := rfl
  have htemporary : "TEMPORARY TABLE ".toList = 'T' :: 'E' :: "MPORARY TABLE ".toList := rfl
  rw [hkept, htemporary]
  intro h
  exact absurd (List.cons.inj (List.cons.inj h).2).1 (by decide)

theorem createText_inj {name name' : String} {temporary temporary' : Bool}
    {columns columns' : List (String × ColumnType)}
    (h : createText name temporary columns = createText name' temporary' columns') :
    temporary = temporary' ∧ name = name' ∧ columns = columns' := by
  have hchars := congrArg String.toList h
  rw [toList_createText, toList_createText, List.append_cancel_left_eq] at hchars
  cases temporary <;> cases temporary'
  · exact ⟨rfl, definitionText_inj (List.append_cancel_left hchars)⟩
  · exact absurd hchars.symm (temporary_ne_kept _ _)
  · exact absurd hchars (temporary_ne_kept _ _)
  · exact ⟨rfl, definitionText_inj (List.append_cancel_left hchars)⟩

theorem insertText_inj {name name' : String} {width width' : Nat}
    (h : insertText name width = insertText name' width') : name = name' ∧ width = width' := by
  have hchars := congrArg String.toList h
  simp only [insertText, commaList, String.toList_append, toList_intercalate, List.append_assoc,
    List.append_cancel_left_eq] at hchars
  obtain ⟨hname, hrest⟩ := tellsApart_quotedName name name' _ _ (by simp) (by simp) hchars
  have hmark {width : Nat} {s : String} (hs : s ∈ List.replicate width "?") : s = "?" :=
    List.eq_of_mem_replicate hs
  have hfirst : ∀ s ∈ List.replicate width "?" ++ List.replicate width' "?",
      StartsOff [')'] s.toList := by
    intro s hs
    rw [(List.mem_append.1 hs).elim hmark hmark]
    exact ⟨'?', rfl, by decide⟩
  have hitem : ∀ i ∈ (List.replicate width "?").zip (List.replicate width' "?"),
      TellsApart (StartsIn [',', ')']) String.toList i.1 i.2 := by
    intro i hi
    rw [hmark (List.of_mem_zip hi).1, hmark (List.of_mem_zip hi).2]
    exact .refl _ _ _
  obtain ⟨hmarks, -⟩ := commas_append_inj (by decide) hfirst hitem (List.append_cancel_left hrest)
  exact ⟨hname, by simpa using congrArg List.length hmarks⟩

theorem selectText_inj {ref ref' : TableRef} (h : selectText ref = selectText ref') :
    ref.name = ref'.name ∧ ref.columns = ref'.columns := by
  have hchars := congrArg String.toList h
  simp only [selectText, commaList, String.toList_append, toList_intercalate, commas_map,
    List.append_assoc] at hchars
  have hstops : '"' ∉ [',', ' '] := by decide
  have hcomma : ',' ∉ [' '] := by decide
  obtain ⟨hcolumns, hrest⟩ := tellsApart_commas hcomma
    (fun c _ => startsOff_quotedName (by decide) c)
    (fun i _ => (tellsApart_quotedName i.1 i.2).mono fun cs hcs => hcs.head?_ne hstops)
    _ _ (by simp) (by simp) (List.append_cancel_left hchars)
  have hname := List.append_cancel_left hrest
  obtain ⟨hname, -⟩ := tellsApart_quotedName ref.name ref'.name [] [] (by simp) (by simp)
    (by simpa using hname)
  exact ⟨hname, hcolumns⟩

/-- The statement that asks for columns is none that asks for rows. -/
theorem probeText_ne_selectText (name : String) (ref : TableRef) :
    probeText name ≠ selectText ref := by
  intro h
  have hchars := congrArg String.toList h
  have hprobe : "SELECT * FROM ".toList = "SELECT ".toList ++ '*' :: " FROM ".toList := rfl
  simp only [probeText, selectText, commaList, String.toList_append, toList_intercalate,
    commas_map, List.append_assoc, hprobe, List.append_cancel_left_eq, List.cons_append] at hchars
  cases hcolumns : ref.columns with
  | nil =>
      rw [hcolumns] at hchars
      exact absurd (List.cons.inj hchars).1 (by decide)
  | cons c columns =>
      rw [hcolumns, commas, toList_quotedName c, List.cons_append, List.cons_append] at hchars
      exact absurd (List.cons.inj hchars).1 (by decide)

theorem probeText_inj {name name' : String} (h : probeText name = probeText name') :
    name = name' := by
  unfold probeText at h
  have hchars := congrArg String.toList h
  simp only [String.toList_append, List.append_assoc, List.append_cancel_left_eq] at hchars
  exact (tellsApart_quotedName name name' _ _ (by simp) (by simp) hchars).1

/-- What is sent tells what it is about, whatever characters the names hold. A statement that
creates a table tells whether the table is temporary, its name, and its columns with their types in
order; a statement that fills one tells its name and the number of columns; and a statement that
asks for rows tells the name and the columns in order, and is no statement that asks for columns. -/
theorem statements_unambiguous :
    (∀ (name name' : String) (temporary temporary' : Bool)
        (columns columns' : List (String × ColumnType)),
      createText name temporary columns = createText name' temporary' columns' ↔
        temporary = temporary' ∧ name = name' ∧ columns = columns') ∧
    (∀ (name name' : String) (t t' : Table) (temporary temporary' : Bool)
        (replies replies' : List Reply) (sql : String),
      .execute sql ∈ (Talk.hold (load name t temporary) replies).2 →
      .execute sql ∈ (Talk.hold (load name' t' temporary') replies').2 →
        temporary = temporary' ∧ name = name' ∧ ∃ columns,
          typedColumns t = .ok columns ∧ typedColumns t' = .ok columns) ∧
    (∀ (name name' : String) (t t' : Table) (temporary temporary' : Bool)
        (replies replies' : List Reply) (sql : String) (rows rows' : List (List Value)),
      .executeMany sql rows ∈ (Talk.hold (load name t temporary) replies).2 →
      .executeMany sql rows' ∈ (Talk.hold (load name' t' temporary') replies').2 →
        name = name' ∧ t.columns.length = t'.columns.length) ∧
    ∀ (ref ref' : TableRef) (replies replies' : List Reply) (sql : String),
      .execute sql ∈ (Talk.hold (read ref) replies).2 →
      .execute sql ∈ (Talk.hold (read ref') replies').2 →
        ref.name = ref'.name ∧
          (sql = selectText ref ∨ sql = selectText ref' → ref.columns = ref'.columns) := by
  refine ⟨fun name name' temporary temporary' columns columns' => ?_,
    fun name name' t t' temporary temporary' replies replies' sql hsql hsql' => ?_,
    fun name name' t t' temporary temporary' replies replies' sql rows rows' hsql hsql' => ?_,
    fun ref ref' replies replies' sql hsql hsql' => ?_⟩
  · refine ⟨createText_inj, ?_⟩
    rintro ⟨rfl, rfl, rfl⟩
    rfl
  · obtain ⟨columns, hcolumns, hcall | hcall⟩ := (makes_load name t temporary).of_mem_hold hsql
    · obtain ⟨columns', hcolumns', hcall' | hcall'⟩ :=
        (makes_load name' t' temporary').of_mem_hold hsql'
      · obtain ⟨htemporary, hname, rfl⟩ := createText_inj (Call.execute.inj (hcall ▸ hcall'))
        exact ⟨htemporary, hname, columns, hcolumns, hcolumns'⟩
      · cases hcall'
    · cases hcall
  · obtain ⟨columns, -, hcall | hcall⟩ := (makes_load name t temporary).of_mem_hold hsql
    · cases hcall
    · obtain ⟨columns', -, hcall' | hcall'⟩ :=
        (makes_load name' t' temporary').of_mem_hold hsql'
      · cases hcall'
      · obtain ⟨rfl, -⟩ := Call.executeMany.inj hcall
        exact insertText_inj (Call.executeMany.inj hcall').1
  · rcases (makes_read ref).of_mem_hold hsql with hcall | hcall <;>
      rcases (makes_read ref').of_mem_hold hsql' with hcall' | hcall' <;>
      rw [Call.execute.injEq] at hcall hcall' <;> subst hcall
    · refine ⟨probeText_inj hcall', ?_⟩
      rintro (h | h)
      · exact absurd h (probeText_ne_selectText _ _)
      · exact absurd h (probeText_ne_selectText _ _)
    · exact absurd hcall' (probeText_ne_selectText _ _)
    · exact absurd hcall'.symm (probeText_ne_selectText _ _)
    · obtain ⟨hname, hcolumns⟩ := selectText_inj hcall'
      exact ⟨hname, fun _ => hcolumns⟩

/-- A table of one column of texts. -/
def textTable (column : String) (texts : List String) : Table :=
  ⟨[column], texts.map fun s => Row.ofList [(column, .str s)]⟩

/-- A name that is written like the declarations of two columns declares one. Tables with the same
types of columns are created by the same statement, tables of the same width are filled by the same
one, and tables of the same name are asked for their columns by the same one. -/
theorem statements_unambiguous_declarations :
    createText "scores" false [("team\" VARCHAR, \"points", .text)] ≠
      createText "scores" false [("team", .text), ("points", .text)] ∧
    (∃ sql, .execute sql ∈ (Talk.hold (load "scores" (textTable "team" []) false) []).2 ∧
      .execute sql ∈ (Talk.hold (load "scores" (textTable "team" ["Owls"]) false) []).2 ∧
        ∃ columns, typedColumns (textTable "team" []) = .ok columns ∧
          typedColumns (textTable "team" ["Owls"]) = .ok columns) ∧
    (∃ sql rows rows',
      .executeMany sql rows ∈ (Talk.hold (load "scores" (textTable "team" ["Owls"]) false) []).2 ∧
      .executeMany sql rows' ∈ (Talk.hold (load "scores" (textTable "club" ["Bats"]) true) []).2 ∧
        (textTable "team" ["Owls"]).columns.length = (textTable "club" ["Bats"]).columns.length) ∧
    ∀ ref ∈ [(⟨"scores", ["team"], false⟩ : TableRef), ⟨"scores", ["points"], false⟩],
      .execute (probeText "scores") ∈ (Talk.hold (read ref) []).2 ∧ ref.name = "scores" := by
  have hempty : .execute (createText "scores" false [("team", .text)]) ∈
      (Talk.hold (load "scores" (textTable "team" []) false) []).2 := by
    with_unfolding_all exact .head _
  have howls : (Talk.hold (load "scores" (textTable "team" ["Owls"]) false) []).2 =
      [.execute (createText "scores" false [("team", .text)]),
        .executeMany (insertText "scores" 1) [[.str "Owls"]]] := by with_unfolding_all rfl
  have hcreated : .execute (createText "scores" false [("team", .text)]) ∈
      (Talk.hold (load "scores" (textTable "team" ["Owls"]) false) []).2 := by
    rw [howls]
    exact .head _
  have hfilled : .executeMany (insertText "scores" 1) [[.str "Owls"]] ∈
      (Talk.hold (load "scores" (textTable "team" ["Owls"]) false) []).2 := by
    rw [howls]
    exact .tail _ (.head _)
  have hbats : .executeMany (insertText "scores" 1) [[.str "Bats"]] ∈
      (Talk.hold (load "scores" (textTable "club" ["Bats"]) true) []).2 := by
    with_unfolding_all exact .tail _ (.head _)
  have hprobe (columns : List String) :
      .execute (probeText "scores") ∈ (Talk.hold (read ⟨"scores", columns, false⟩) []).2 :=
    .head _
  refine ⟨fun h => ?_, ⟨_, hempty, hcreated, ?_⟩, ⟨_, _, _, hfilled, hbats, ?_⟩, fun ref href => ?_⟩
  · have hcolumns := ((statements_unambiguous.1 _ _ _ _ _ _).1 h).2.2
    exact absurd (congrArg List.length hcolumns) (by decide)
  · exact (statements_unambiguous.2.1 _ _ _ _ _ _ _ _ _ hempty hcreated).2.2
  · exact (statements_unambiguous.2.2.1 _ _ _ _ _ _ _ _ _ _ _ hfilled hbats).2
  · have hsql : .execute (probeText "scores") ∈ (Talk.hold (read ref) []).2 := by
      rcases List.mem_pair.1 href with rfl | rfl
      all_goals exact hprobe _
    exact ⟨hsql, (statements_unambiguous.2.2.2 _ _ _ _ _ hsql (hprobe ["team"])).1⟩

end Backend
end Tabula
