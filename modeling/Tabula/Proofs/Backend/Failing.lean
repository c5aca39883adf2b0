import Tabula.Backend
import Tabula.Proofs.Table.Declaring

/-!
Loads that fail. A call that fails is the last one that is made, and its failure is the outcome. As
long as no call fails, a table whose columns have no types is refused before anything is sent. A
reference to the table is built only when the table is stored, so one that cannot be declared is
refused too late: what was stored under the name before is gone.
-/

namespace Tabula

/-! ### What a script answers -/

namespace Script

/-- How the call fails, if it does. -/
def failure? (s : Script) : Call → Option String
  | .execute _ =>
      match s.replies.head? with
      | some (.failure text) => some text
      | _ => none
  | .executeMany _ _ => s.batches.head?.join
  | .connect _ | .close => none

/-- What is left of the script after the call. -/
def next (s : Script) : Call → Script
  | .execute _ => { s with replies := s.replies.tail }
  | .executeMany _ _ => { s with batches := s.batches.tail }
  | .connect _ | .close => s

def after (s : Script) (calls : List Call) : Script := calls.foldl next s

/-- None of the calls fails, made one after the other. -/
def Smooth (s : Script) : List Call → Prop
  | [] => True
  | call :: calls => s.failure? call = none ∧ (s.next call).Smooth calls

variable {s : Script} {call : Call} {calls calls' : List Call}

theorem after_append : s.after (calls ++ calls') = (s.after calls).after calls' :=
  List.foldl_append

theorem smooth_append :
    s.Smooth (calls ++ calls') ↔ s.Smooth calls ∧ (s.after calls).Smooth calls' := by
  induction calls generalizing s with
  | nil => simp [Smooth, after]
  | cons call calls ih => simp only [List.cons_append, Smooth, ih, after, List.foldl_cons, and_assoc]

theorem Smooth.failure?_ne (h : s.Smooth (calls ++ call :: calls')) (text : String) :
    (s.after calls).failure? call ≠ some text := by
  rw [(smooth_append.1 h).2.1]
  exact (Option.some_ne_none text).symm

end Script

/-! ### How a conversation goes -/

namespace Talk

variable {α β : Type}

theorem ofResult_bind_ok (a : α) (f : α → Talk β) : Talk.ofResult (.ok a) >>= f = f a := rfl

/-- The last of the calls fails, the first one that does, and its failure is the outcome. -/
def Stopped (s : Script) (calls : List Call) (r : Result α) : Prop :=
  ∃ earlier call text, calls = earlier ++ [call] ∧ s.Smooth earlier ∧
    (s.after earlier).failure? call = some text ∧ r = .error (.connection text)

theorem Stopped.of_error {s : Script} {calls : List Call} {e : Failure}
    (h : Stopped s calls (.error e : Result α)) : Stopped s calls (.error e : Result β) := by
  obtain ⟨earlier, call, text, hcalls, hsmooth, hcall, he⟩ := h
  cases he
  exact ⟨earlier, call, text, hcalls, hsmooth, hcall, rfl⟩

/-- Calls that went well may come before those that stop. -/
theorem Stopped.append {s : Script} {made calls : List Call} {r : Result α} (hmade : s.Smooth made)
    (h : Stopped (s.after made) calls r) : Stopped s (made ++ calls) r := by
  obtain ⟨earlier, call, text, rfl, hsmooth, hcall, hr⟩ := h
  refine ⟨made ++ earlier, call, text, (List.append_assoc _ _ _).symm,
    Script.smooth_append.2 ⟨hmade, hsmooth⟩, ?_, hr⟩
  rwa [Script.after_append]

/-- Whatever the script, no further call is made after one that fails; and as long as none does, `P`
holds of the calls made and the outcome. -/
def Goes (P : List Call → Result α → Prop) (talk : Talk α) : Prop :=
  ∀ (calls : List Call) (s : Script), ∃ (made : List Call) (left : Script),
    (talk.run.run ⟨calls, s.replies, s.batches⟩).2 =
        ⟨calls ++ made, left.replies, left.batches⟩ ∧
      let r := (talk.run.run ⟨calls, s.replies, s.batches⟩).1
      s.Smooth made ∧ left = s.after made ∧ P made r ∨ Stopped s made r

namespace Goes

variable {P Q : List Call → Result α → Prop}

theorem mono {talk : Talk α} (h : Goes P talk) (hPQ : ∀ made r, P made r → Q made r) :
    Goes Q talk := by
  intro calls s
  obtain ⟨made, left, hrun, hgoes⟩ := h calls s
  refine ⟨made, left, hrun, hgoes.imp_left ?_⟩
  rintro ⟨hsmooth, hleft, hP⟩
  exact ⟨hsmooth, hleft, hPQ made _ hP⟩

theorem ofResult (r : Result α) : Goes (fun made r' => made = [] ∧ r' = r) (Talk.ofResult r) :=
  fun calls s => ⟨[], s, by rw [List.append_nil]; rfl, .inl ⟨trivial, rfl, rfl, rfl⟩⟩

theorem bind {R : List Call → Result β → Prop} {x : Talk α} {f : α → Talk β}
    {S : α → List Call → Result β → Prop} (hx : Goes P x) (hf : ∀ a, Goes (S a) (f a))
    (herror : ∀ made e, P made (.error e) → R made (.error e))
    (hok : ∀ a made made' r, P made (.ok a) → S a made' r → R (made ++ made') r) :
    Goes R (x >>= f) := by
  intro calls s
  obtain ⟨made, left, hrun, hgoes⟩ := hx calls s
  rw [ExceptT.run_bind, StateT.run_bind]
  generalize x.run.run ⟨calls, s.replies, s.batches⟩ = out at hrun hgoes
  obtain ⟨r, c⟩ := out
  obtain rfl : c = _ := hrun
  cases r with
  | error e =>
      refine ⟨made, left, rfl, hgoes.imp ?_ Stopped.of_error⟩
      rintro ⟨hsmooth, hleft, hP⟩
      exact ⟨hsmooth, hleft, herror made e hP⟩
  | ok a =>
      -- a call that fails is no outcome to go on with
      obtain ⟨hsmooth, rfl, hP⟩ : s.Smooth made ∧ left = s.after made ∧ P made (.ok a) := by
        refine hgoes.resolve_right ?_
        rintro ⟨_, _, _, _, _, _, hr⟩
        cases hr
      obtain ⟨made', left', hrun', hgoes'⟩ := hf a (calls ++ made) (s.after made)
      rw [List.append_assoc] at hrun'
      refine ⟨made ++ made', left', hrun', hgoes'.imp ?_ (Stopped.append hsmooth)⟩
      rintro ⟨hsmooth', hleft', hS⟩
      refine ⟨Script.smooth_append.2 ⟨hsmooth, hsmooth'⟩, ?_, hok a made made' _ hP hS⟩
      rw [hleft', Script.after_append]

/-- One call that succeeds or fails as the script has it. -/
theorem of_call {talk : Talk α} {call : Call}
    (h : ∀ (calls : List Call) (s : Script), ∃ r,
      talk.run.run ⟨calls, s.replies, s.batches⟩ =
          (r, ⟨calls ++ [call], (s.next call).replies, (s.next call).batches⟩) ∧
        match s.failure? call with
        | none => ∃ a, r = .ok a
        | some text => r = .error (.connection text)) :
    Goes (fun made r => made = [call] ∧ ∃ a, r = .ok a) talk := by
  intro calls s
  obtain ⟨r, hrun, hr⟩ := h calls s
  rw [hrun]
  refine ⟨[call], s.next call, rfl, ?_⟩
  cases hcall : s.failure? call with
  | none =>
      rw [hcall] at hr
      exact .inl ⟨⟨hcall, trivial⟩, rfl, rfl, hr⟩
  | some text =>
      rw [hcall] at hr
      exact .inr ⟨[], call, text, rfl, trivial, hcall, hr⟩

theorem execute (sql : String) :
    Goes (fun made r => made = [.execute sql] ∧ ∃ a, r = .ok a) (Talk.execute sql) := by
  refine of_call fun calls s => ?_
  rcases s with ⟨_ | ⟨reply, replies⟩, batches⟩
  · exact ⟨_, rfl, none, rfl⟩
  · cases reply with
    | nothing => exact ⟨_, rfl, none, rfl⟩
    | rows columns rows => exact ⟨_, rfl, some (columns, rows), rfl⟩
    | failure text => exact ⟨_, rfl, rfl⟩

theorem executeMany (sql : String) (rows : List (List Value)) :
    Goes (fun made r => made = [.executeMany sql rows] ∧ ∃ a, r = .ok a)
      (Talk.executeMany sql rows) := by
  refine of_call fun calls s => ?_
  rcases s with ⟨replies, _ | ⟨_ | text, batches⟩⟩
  · exact ⟨_, rfl, (), rfl⟩
  · exact ⟨_, rfl, (), rfl⟩
  · exact ⟨_, rfl, rfl⟩

/-- One call, and then what makes the same calls whatever the answer is. -/
theorem call_bind {x : Talk α} {f : α → Talk β} {call : Call} {calls : List Call} {out : Result β}
    (hx : Goes (fun made r => made = [call] ∧ ∃ a, r = .ok a) x)
    (hf : ∀ a, Goes (fun made r => made = calls ∧ r = out) (f a)) :
    Goes (fun made r => made = call :: calls ∧ r = out) (x >>= f) := by
  refine hx.bind hf ?_ ?_
  · rintro made e ⟨-, a, h⟩
    cases h
  · rintro a _ _ _ ⟨rfl, -⟩ ⟨rfl, rfl⟩
    exact ⟨rfl, rfl⟩

variable {talk : Talk α} {s : Script}

theorem follow (h : Goes P talk) (s : Script) :
    s.Smooth (talk.follow s).2 ∧ P (talk.follow s).2 (talk.follow s).1 ∨
      Stopped s (talk.follow s).2 (talk.follow s).1 := by
  obtain ⟨made, left, hrun, hgoes⟩ := h [] s
  have hcalls : (talk.follow s).2 = made := congrArg Conversation.calls hrun
  rw [hcalls]
  exact hgoes.imp_left fun ⟨hsmooth, _, hP⟩ => ⟨hsmooth, hP⟩

theorem of_smooth (h : Goes P talk) (hsmooth : s.Smooth (talk.follow s).2) :
    P (talk.follow s).2 (talk.follow s).1 := by
  rcases h.follow s with ⟨-, hP⟩ | ⟨earlier, call, text, hcalls, -, hcall, -⟩
  · exact hP
  · rw [hcalls] at hsmooth
    exact absurd hcall (hsmooth.failure?_ne text)

theorem of_failure (h : Goes P talk) {earlier later : List Call} {call : Call} {text : String}
    (hcalls : (talk.follow s).2 = earlier ++ call :: later)
    (hcall : (s.after earlier).failure? call = some text) :
    later = [] ∧ (talk.follow s).1 = .error (.connection text) := by
  rcases h.follow s with ⟨hsmooth, -⟩ | ⟨earlier', call', text', hcalls', hsmooth, hcall', hr⟩
  · rw [hcalls] at hsmooth
    exact absurd hcall (hsmooth.failure?_ne text)
  rw [hcalls] at hcalls'
  rcases later.eq_nil_or_concat with rfl | ⟨later', last, rfl⟩
  · obtain ⟨rfl, hsame⟩ := List.append_inj' hcalls' rfl
    cases hsame
    rw [hcall'] at hcall
    cases hcall
    exact ⟨rfl, hr⟩
  · -- a call with others after it is one of those that went well
    rw [List.concat_eq_append, ← List.cons_append, ← List.append_assoc] at hcalls'
    obtain ⟨rfl, -⟩ := List.append_inj' hcalls' rfl
    exact absurd hcall (hsmooth.failure?_ne text)

end Goes

end Talk

/-! ### Storing a table -/

namespace Backend

open Talk (Goes)

/-- The calls that store a table whose columns have types. -/
def storing (name : String) (t : Table) (temporary : Bool) (columns : List (String × ColumnType)) :
    List Call :=
  .execute (createText name temporary columns) ::
    if t.rows.isEmpty then []
    else [.executeMany (insertText name t.columns.length) (t.rows.map fun r => t.columns.map r.getD)]

/-- A table whose columns have no types is not stored; any other is stored, and then declared. -/
theorem goes_load (name : String) (t : Table) (temporary : Bool) :
    Goes (fun made r =>
        (∃ e, typedColumns t = .error e ∧ made = [] ∧ r = .error e) ∨
        ∃ columns, typedColumns t = .ok columns ∧ made = storing name t temporary columns ∧
          r = t.describe name temporary)
      (load name t temporary) := by
  cases hcolumns : typedColumns t with
  | error e =>
      rw [load, hcolumns]
      exact (Goes.ofResult (.error e)).mono fun made r h => .inl ⟨e, rfl, h⟩
  | ok columns =>
      have hstored : Goes (fun made r => made = storing name t temporary columns ∧
          r = t.describe name temporary) (load name t temporary) := by
        rw [load, hcolumns, Talk.ofResult_bind_ok]
        refine Goes.call_bind (.execute _) fun _ => ?_
        cases t.rows.isEmpty with
        | true => exact .ofResult _
        | false => exact Goes.call_bind (.executeMany _ _) fun _ => .ofResult _
      exact hstored.mono fun made r h => .inr ⟨columns, rfl, h⟩

/-- A call that fails is the last one made, and its failure is the outcome. A load that is refused
while no call fails has sent nothing, unless the columns of the table have types though it cannot be
declared: such a table is refused when all that stores it has been sent. -/
theorem load_refused (name : String) (t : Table) (temporary : Bool) (script : Script)
    (ht : t.Made) :
    let out := (load name t temporary).follow script
    (∀ e, script.Smooth out.2 → out.1 = .error e →
      (typedColumns t).isOk = false ∨ t.Declarable name → out.2 = []) ∧
    (∀ (earlier : List Call) (call : Call) (later : List Call) (text : String),
      out.2 = earlier ++ call :: later → (script.after earlier).failure? call = some text →
        later = [] ∧ out.1 = .error (.connection text)) ∧
    ∀ columns, script.Smooth out.2 → typedColumns t = .ok columns → ¬ t.Declarable name →
      out.2 = storing name t temporary columns ∧ ∃ e, out.1 = .error e := by
  intro out
  have hgoes := goes_load name t temporary
  refine ⟨fun e hsmooth he hchecked => ?_, fun earlier call later text hcalls hcall => ?_,
    fun columns hsmooth hcolumns hnot => ?_⟩
  · obtain ⟨-, -, hnone, -⟩ | ⟨columns, hcolumns, -, hdescribe⟩ := hgoes.of_smooth hsmooth
    · exact hnone
    · -- the columns have types, so the table can be declared and the load is not refused
      rw [hcolumns] at hchecked
      have hdeclarable := hchecked.resolve_left Bool.noConfusion
      rw [ht.describe_eq_ok hdeclarable] at hdescribe
      cases hdescribe.symm.trans he
  · exact hgoes.of_failure hcalls hcall
  · obtain ⟨e, he, -⟩ | ⟨columns', hcolumns', hcalls, hdescribe⟩ := hgoes.of_smooth hsmooth
    · rw [hcolumns] at he
      cases he
    · obtain rfl := Except.ok.inj (hcolumns.symm.trans hcolumns')
      obtain ⟨e, he⟩ := Table.describe_eq_error hnot temporary
      exact ⟨hcalls, e, hdescribe.trans he⟩

def clubTable : Table := ⟨["club"], [⟨[("club", .str "Owls")]⟩]⟩

def mixedTable : Table := ⟨["x"], [⟨[("x", .int 1)]⟩, ⟨[("x", .str "one")]⟩]⟩

theorem typedColumns_clubs : typedColumns clubTable = .ok [("club", .text)] := by
  have hforms : sortedNames ["str"] = ["str"] := by
    rw [sortedNames, List.mergeSort_singleton]
    rfl
  have htype : ColumnType.ofValues [.str "Owls"] = .ok .text := by
    have hnames : ([Value.str "Owls"].filter fun v => !v.isNull).map Value.formName = ["str"] := rfl
    rw [ColumnType.ofValues, hnames, hforms]
    rfl
  show (do
    let c ← (do return ("club", ← ColumnType.ofValues [.str "Owls"]))
    return [c]) = _
  rw [htype]
  rfl

theorem typedColumns_mixed :
    typedColumns mixedTable = .error (.argument (.mixedForms ["int", "str"])) := by
  have hforms : sortedNames ["int", "str"] = ["int", "str"] := by
    rw [sortedNames, List.mergeSort_of_pairwise (by decide)]
    rfl
  have htype : ColumnType.ofValues [.int 1, .str "one"] =
      .error (.argument (.mixedForms ["int", "str"])) := by
    have hnames : ([Value.int 1, .str "one"].filter fun v => !v.isNull).map Value.formName =
        ["int", "str"] := rfl
    rw [ColumnType.ofValues, hnames, hforms]
    rfl
  show (do
    let c ← (do return ("x", ← ColumnType.ofValues [.int 1, .str "one"]))
    return [c]) = _
  rw [htype]
  rfl

/-- A column of mixed kinds, rows that are refused by the connection, and a table without a name. -/
theorem load_refused_clubs :
    ((load "mixed" mixedTable false).follow ⟨[], []⟩).2 = [] ∧
      ((load "clubs" clubTable false).follow ⟨[.nothing], [some "disk full"]⟩).1 =
        .error (.connection "disk full") ∧
      ∃ e, ((load "" clubTable false).follow ⟨[], []⟩).1 = .error e := by
  have hmixed : (load "mixed" mixedTable false).follow ⟨[], []⟩ =
      (.error (.argument (.mixedForms ["int", "str"])), []) := by
    rw [load, typedColumns_mixed]
    rfl
  have hclubs : ((load "clubs" clubTable false).follow ⟨[.nothing], [some "disk full"]⟩).2 =
      [.execute (createText "clubs" false [("club", .text)])] ++
        .executeMany (insertText "clubs" 1) [[.str "Owls"]] :: [] := by
    rw [load, typedColumns_clubs]
    rfl
  have hunnamed : ((load "" clubTable false).follow ⟨[], []⟩).2 =
      storing "" clubTable false [("club", .text)] := by
    rw [load, typedColumns_clubs]
    rfl
  refine ⟨?_, ?_, ?_⟩
  · refine (load_refused "mixed" mixedTable false ⟨[], []⟩ ⟨[.str "x"], rfl⟩).1
      (.argument (.mixedForms ["int", "str"])) ?_ (congrArg Prod.fst hmixed) (.inl ?_)
    · rw [hmixed]
      trivial
    · rw [typedColumns_mixed]
      rfl
  · exact ((load_refused "clubs" clubTable false _ ⟨[.str "club"], rfl⟩).2.1 _ _ _ "disk full"
      hclubs rfl).2
  · refine ((load_refused "" clubTable false ⟨[], []⟩ ⟨[.str "club"], rfl⟩).2.2 _ ?_
      typedColumns_clubs (by decide)).2
    rw [hunnamed]
    exact ⟨rfl, rfl, trivial⟩

/-- A table without a name is refused when it has been created and filled, and one without columns
when it has replaced what was stored under the name. -/
theorem load_undeclared_sent :
    let unnamed := (load "" clubTable false).follow ⟨[], []⟩
    let bare := (load "clubs" ⟨[], []⟩ false).follow ⟨[], []⟩
    Script.Smooth ⟨[], []⟩ unnamed.2 ∧ unnamed.1.isOk = false ∧ unnamed.2.length = 2 ∧
      Script.Smooth ⟨[], []⟩ bare.2 ∧ bare.1.isOk = false ∧
      bare.2 = [.execute (createText "clubs" false [])] := by
  rw [load, typedColumns_clubs]
  exact ⟨⟨rfl, rfl, trivial⟩, rfl, rfl, ⟨rfl, trivial⟩, rfl, rfl⟩

end Backend

end Tabula
