import Tabula.Proofs.Expr.Foreign.Query
import Tabula.Proofs.Text.Casing

/-!
Calls that are no expressions: of functions that no expression has, of functions whose arguments
have a grammar of their own, and calls without parentheses. What may follow a call or an operand
leaves it as it is, or makes something of it that is no expression.
-/

namespace Tabula

open Reader Phrase

variable {g : Grammar} {ls : List Lexeme} {p : Phrase}

/-- Names of calls that the grammar makes, of which none is a function of expressions. -/
def foreignNames : List String :=
  ["COLUMNS", "array", "case", "cast_to_str_type", "ceil", "chr", "connect_by_root", "concat",
    "date", "exists", "extract", "floor", "group_concat", "if", "j_s_o_n_b_contains_top_key",
    "j_s_o_n_object", "j_s_o_n_object_agg", "j_s_o_n_table", "json_extract",
    "json_extract_scalar", "jsonb_extract", "jsonb_extract_scalar", "list", "map", "normalize",
    "open_j_s_o_n", "overlay", "parse_json", "str_position", "struct", "time", "timestamp",
    "to_map", "trim", "try_cast", "xmlelement", "array_contains_all", "array_overlaps", "collate",
    "power", "regexp_i_like", "regexp_like", "starts_with", "IF", "SUBSTRING", "DATE_TRUNC", "HEX",
    "LOWER_HEX", "TIMESTAMP_FROM_PARTS", "UNIX_TO_TIME"] ++ bareCalls

/-- Whether no function has the name. -/
def Phrase.Callee.isUnknown : Callee → Bool
  | .unknown _ => true
  | _ => false

/-- A name below the 128 codes is compared letter by letter. -/
theorem callee_isUnknown {name : String} (h : Text.isAscii name = true)
    (hnone : let key := String.ofList (name.toList.map fun c => c.toUpper.toLower)
      Ranking.named? key = none ∧ ScalarFn.named? key = none) :
    (callee name).isUnknown = true := by
  rw [callee, Text.lower_upper_of_isAscii h, hnone.1, hnone.2]
  rfl

theorem foreignNames_unknown : ∀ name ∈ foreignNames, (callee name).isUnknown = true := by
  have hall : ∀ name ∈ foreignNames, Text.isAscii name = true ∧
      let key := String.ofList (name.toList.map fun c => c.toUpper.toLower)
      Ranking.named? key = none ∧ ScalarFn.named? key = none := by decide +kernel
  exact fun name h => callee_isUnknown (hall name h).1 (hall name h).2

theorem isExpr_call_foreign {name : String} (h : name ∈ foreignNames) (args : List Phrase) :
    (Phrase.call name args).isExpr = false := by
  have hunknown := foreignNames_unknown name h
  rw [isExpr]
  cases hname : callee name with
  | unknown n => rfl
  | _ => simp [hname, Callee.isUnknown] at hunknown

/-- A call of a known function: under its main name, or no expression. -/
theorem called?_eq {key : String} {args : List Phrase} (h : called? key args = some p) :
    p = .call (functionName key) args ∨ p.isExpr = false := by
  unfold called? at h
  split at h
  · exact .inr (Option.some.inj h ▸ rfl)
  · obtain ⟨q, -, rfl⟩ := Option.map_eq_some_iff.1 h
    exact .inr rfl
  · obtain ⟨q, -, rfl⟩ := Option.map_eq_some_iff.1 h
    exact .inr rfl
  · rw [← Option.some.inj h]
    split
    · exact .inr (isExpr_call_foreign (by decide) args)
    · exact .inr (isExpr_call_foreign (by decide) args)
  · obtain ⟨q, -, rfl⟩ := Option.map_eq_some_iff.1 h
    exact .inr rfl
  · dsimp only at h
    split at h
    · cases h
    split at h
    · exact .inr (Option.some.inj h ▸ isExpr_call_foreign (by decide) args)
    split at h
    · exact .inr (Option.some.inj h ▸ isExpr_call_foreign (by decide) args)
    split at h
    · exact .inr (Option.some.inj h ▸ isExpr_call_foreign (by decide) args)
    · exact .inl (Option.some.inj h).symm

theorem ensures_nullWords (ls : List Lexeme) :
    Ensures nullWords ls fun found rest => found = none → rest = ls := by
  refine .ifWords (fun _ _ _ _ => .pure nofun) ?_
  exact .ifWords (fun _ _ _ _ => .pure nofun) (.pure fun _ => rfl)

theorem ensures_nullChoice (p : Option Phrase) (ls : List Lexeme) :
    Ensures (nullChoice p) ls fun found rest =>
      found = p ∧ rest = ls ∨ ∃ q, found = some q ∧ q.isExpr = false := by
  refine .bind ((ensures_nullWords ls).mono fun found rest h => ?_)
  cases found with
  | none => exact .pure (.inl ⟨rfl, h rfl⟩)
  | some name =>
      cases p with
      | none => exact .failure
      | some p => exact .pure (.inr ⟨_, rfl, rfl⟩)

theorem foreign_windowed (p : Phrase) (ls : List Lexeme) :
    Ensures (windowed g p) ls (Foreign ls) := by
  refine .ifWord (by decide) (fun _ _ _ _ => ?_) (.pure rfl)
  refine .andThen fun isOpen mid => ?_
  cases isOpen with
  | true => exact .andThen fun _ _ => .andThen fun _ _ => .pure rfl
  | false => exact .andThen fun _ _ => .pure rfl

theorem hoistNulls_eq_or (p : Phrase) : p.hoistNulls = p ∨ p.hoistNulls.isExpr = false := by
  cases p with
  | call name args =>
      simp only [hoistNulls]
      split
      · cases hfound : args.find? choosesNulls with
        | none => exact .inl rfl
        | some q =>
            have hq := List.find?_some hfound
            cases q with
            | form name => exact .inr rfl
            | _ => cases hq
      · exact .inl rfl
  | _ => exact .inl rfl

theorem Kept.refl (p : Phrase) (ls : List Lexeme) : Kept p ls p ls := .inl ⟨rfl, rfl⟩

theorem Kept.trans {q r : Phrase} {ms ns : List Lexeme} (h : Kept p ls q ms) (h' : Kept q ms r ns) :
    Kept p ls r ns := by
  rcases h' with ⟨rfl, rfl⟩ | h'
  · exact h
  · exact .inr h'

theorem kept_afterCall (p : Phrase) (ls : List Lexeme) :
    Ensures (afterCall g p) ls (Kept p ls) := by
  refine .bind (.mono .words_false fun isOrdered mid hmid => ?_)
  extract_lets afterFilter afterOrder
  have hfilter (q : Phrase) (rest : List Lexeme) (hq : Kept p ls q rest) :
      Ensures (afterFilter q) rest (Kept p ls) := by
    refine .bind ((ensures_nullChoice (some q) rest).mono ?_)
    rintro found _ (⟨rfl, rfl⟩ | ⟨r, rfl, hr⟩)
    · exact (kept_goOn foreign_windowed q _).mono fun _ _ h => hq.trans h
    · exact (kept_goOn foreign_windowed r _).mono fun _ _ h => .inr (h.isExpr_eq hr)
  have horder (q : Phrase) (rest : List Lexeme) (hq : Kept p ls q rest) :
      Ensures (afterOrder q) rest (Kept p ls) := by
    refine .bind (.key (.bind (.secondAtMark (.ite (fun _ => ?_) fun _ => ?_))))
    · exact .andThen fun _ _ => .andThen fun _ last => .bind (.pure (hfilter _ last (.inr rfl)))
    · refine .bind (.pure (hfilter _ rest ?_))
      rcases hoistNulls_eq_or q with h | h
      · exact h.symm ▸ hq
      · exact .inr h
  refine .ite (fun _ => .andThen fun _ rest => ?_) fun hno => ?_
  · exact .bind (.pure (horder _ rest (.inr rfl)))
  · obtain rfl := hmid (by simpa using hno)
    exact .bind (.pure (horder p mid (.refl p mid)))

theorem barren_afterCall (hp : p.isExpr = false) : Barren (afterCall g p) :=
  fun ls => (kept_afterCall p ls).mono fun _ _ h => h.isExpr_eq hp

/-- What a function of the grammar's own makes of its arguments is no expression. -/
theorem called?_isExpr {key : String} {args : List Phrase} (hkey : functionName key ∈ foreignNames)
    (h : called? key args = some p) : p.isExpr = false := by
  rcases called?_eq h with rfl | hp
  · exact isExpr_call_foreign hkey args
  · exact hp

theorem barren_call {name : String} (h : name ∈ foreignNames) (args : List Phrase) :
    Barren (return .call name args) :=
  .pure (isExpr_call_foreign h args)

theorem barren_called {key : String} (hkey : functionName key ∈ foreignNames) (args : List Phrase) :
    Barren (do
      match called? key args with
      | some p => return p
      | none => failure) := by
  cases hcalled : called? key args with
  | none => exact .failure
  | some p => exact .pure (called?_isExpr hkey hcalled)

theorem barren_cast (strict toDate : Bool) :
    Barren (return if strict then .cast toDate else .call "try_cast" []) := by
  cases strict with
  | true => exact .pure rfl
  | false => exact barren_call (by decide) []

theorem barren_castOf (strict : Bool) : Barren (castOf g strict) := by
  refine .andThen fun _ => .andThen fun _ => .ite (.andThen fun type => ?_) ?_
  · split
    · exact .andThen fun _ => .ite (.andThen fun _ => barren_cast strict _) (barren_cast strict _)
    · exact barren_cast strict false
  · exact .andThen fun _ => .andThen fun _ => barren_call (by decide) []

theorem barren_convertOf (strict : Bool) : Barren (convertOf g strict) := by
  refine .andThen fun _ => .andThen fun _ => .ite (.andThen fun _ => barren_cast strict _) ?_
  exact .andThen fun _ => .andThen fun _ => barren_cast strict _

theorem barren_extractOf : Barren (extractOf g) := by
  unfold extractOf
  extract_lets afterFrom afterUnit
  have hfrom : Barren (afterFrom ()) := .andThen fun _ => barren_call (by decide) []
  have hunit : Barren (afterUnit ()) :=
    .andThen fun _ => .ite (.andThen fun _ => hfrom) hfrom
  refine .andThen fun unit => ?_
  split
  · exact .andThen fun _ => hunit
  · exact .andThen fun _ => hunit

theorem barren_substringOf : Barren (substringOf g) := by
  refine .andThen fun args => .andThen fun isFrom => ?_
  extract_lets afterStart
  have hstart (start : Option Phrase) : Barren (afterStart start) := by
    refine .andThen fun isFor => ?_
    extract_lets afterLength
    have hlength (length : Option Phrase) : Barren (afterLength length) := by
      unfold afterLength
      extract_lets result
      have hresult (start : Option Phrase) : Barren (result start) := barren_called (by decide) _
      refine .ite (.andThen fun _ => ?_) (.andThen hresult)
      exact .ite (.andThen fun _ => .andThen hresult) (.andThen hresult)
    exact .ite (.andThen fun _ => .andThen hlength) (.andThen hlength)
  exact .ite (.andThen fun _ => .andThen hstart) (.andThen hstart)

theorem barren_trimOf : Barren (trimOf g) := by
  refine .andThen fun _ => .andThen fun first => .andThen fun _ => ?_
  extract_lets afterSecond
  have hsecond (second : Option Phrase) : Barren (afterSecond second) := by
    unfold afterSecond
    extract_lets afterCollate
    have hcollate : Barren (afterCollate ()) := .ite (barren_call (by decide) []) .failure
    exact .andThen fun _ => .ite (.andThen fun _ => hcollate) hcollate
  exact .ite (.andThen hsecond) (.andThen hsecond)

theorem barren_positionOf : Barren (positionOf g) := by
  refine .andThen fun _ => .andThen fun _ => .ite (.andThen fun _ => ?_) ?_
  · exact .ite .failure (barren_call (by decide) [])
  · exact .ite .failure (barren_call (by decide) [])

theorem barren_overlayOf : Barren (overlayOf g) :=
  .andThen fun _ => .andThen fun _ => .andThen fun _ => .andThen fun _ => barren_call (by decide) []

theorem barren_wholeOf {name : String} (h : name ∈ foreignNames) : Barren (wholeOf g name) :=
  .andThen fun _ => .andThen fun _ => .ite (.andThen fun _ => barren_call h []) (barren_call h [])

theorem barren_joinOf : Barren (joinOf g) :=
  .andThen fun _ => .andThen fun _ => .andThen fun _ => .andThen fun _ =>
    .ite .failure (barren_call (by decide) [])

theorem barren_objectOf {name : String} (h : name ∈ foreignNames) : Barren (objectOf g name) :=
  .andThen fun _ => barren_call h []

theorem barren_characterOf : Barren (characterOf g) := by
  have hend (args : List Phrase) :
      Barren (if args.isEmpty then failure else return .call "chr" []) :=
    .ite .failure (barren_call (by decide) [])
  exact .andThen fun args => .andThen fun _ => .ite (.andThen fun _ => hend args) (hend args)

theorem barren_normalizeOf : Barren (normalizeOf g) := by
  have hend : Barren (return .call "normalize" []) := barren_call (by decide) []
  exact .andThen fun _ => .andThen fun _ => .ite (.andThen fun _ => hend) hend

theorem barren_dataTableOf : Barren (dataTableOf g) := by
  unfold dataTableOf
  extract_lets column afterItems afterWord
  have hitems (u : Unit) : Barren (afterItems u) := barren_call (by decide) []
  have hword : Barren (afterWord ()) :=
    .andThen fun _ => .ite (.andThen fun _ => .andThen hitems) (.andThen fun _ => hitems ())
  exact .andThen fun _ => .andThen fun _ => .ite hword hword

theorem barren_elementOf : Barren (elementOf g) := by
  have hend : Barren (return .call "xmlelement" []) := barren_call (by decide) []
  exact .andThen fun _ => .andThen fun _ => .andThen fun _ => .ite (.andThen fun _ => hend) hend

/-- What functions with a grammar of their own make is no expression. -/
theorem barren_ownArguments {key : String} {r : Reader Phrase} (h : ownArguments g key = some r) :
    Barren r := by
  unfold ownArguments at h
  split at h
  case h_22 =>
    split at h
    · exact Option.some.inj h ▸ barren_joinOf
    · cases h
  all_goals obtain rfl := Option.some.inj h
  · exact barren_castOf true
  · exact barren_castOf false
  · exact barren_castOf false
  · exact barren_convertOf true
  · exact barren_convertOf false
  · exact barren_extractOf
  · exact barren_substringOf
  · exact barren_trimOf
  · exact barren_positionOf
  · exact barren_overlayOf
  · exact barren_wholeOf (by decide)
  · exact barren_wholeOf (by decide)
  · exact .failure
  · exact barren_characterOf
  · exact barren_characterOf
  · exact barren_normalizeOf
  · exact .andThen fun _ => barren_call (by decide) []
  · exact barren_dataTableOf
  · exact barren_elementOf
  · exact barren_objectOf (by decide)
  · exact barren_objectOf (by decide)

theorem isExpr_of_rowsAsked {key : String} (h : rowsAsked key = some p) : p.isExpr = false := by
  unfold rowsAsked at h
  split at h
  · exact Option.some.inj h ▸ isExpr_call_foreign (by decide) []
  · exact Option.some.inj h ▸ rfl
  · exact Option.some.inj h ▸ rfl
  · cases h

/-- What a reader may find is no expression; it may have taken lexemes without finding anything. -/
def BarrenIfAny (r : Reader (Option Phrase)) : Prop :=
  ∀ ls, Ensures r ls fun found _ => ∀ p ∈ found, p.isExpr = false

namespace BarrenIfAny

variable {α : Type} {r s : Reader (Option Phrase)}

theorem some (hp : p.isExpr = false) : BarrenIfAny (pure (some p)) :=
  fun _ => .pure fun _ hq => Option.some.inj hq ▸ hp

theorem none : BarrenIfAny (pure none) := fun _ => .pure nofun

theorem failure : BarrenIfAny failure := fun _ => .failure

theorem andThen {x : Reader α} {f : α → Reader (Option Phrase)} (h : ∀ a, BarrenIfAny (f a)) :
    BarrenIfAny (x >>= f) :=
  fun _ => .andThen fun a mid => h a mid

theorem ite {c : Prop} [Decidable c] (h : BarrenIfAny r) (h' : BarrenIfAny s) :
    BarrenIfAny (if c then r else s) := by
  split
  · exact h
  · exact h'

end BarrenIfAny

theorem barrenIfAny_bareCall {key : String} {r : Reader (Option Phrase)}
    (h : bareCall g key = some r) : BarrenIfAny r := by
  unfold bareCall at h
  split at h
  case h_6 => cases h
  all_goals obtain rfl := Option.some.inj h
  · exact .andThen fun _ => .ite .none (.andThen fun _ => .andThen fun _ => .andThen fun _ =>
      .andThen fun _ => .ite .failure (.some (isExpr_call_foreign (by decide) [])))
  · exact .andThen fun _ => .some rfl
  · exact .andThen fun _ => .some (isExpr_call_foreign (by decide) [])
  · refine .andThen fun _ => .ite (.andThen fun args => .andThen fun _ => ?_) ?_
    · cases hcalled : called? "IF" args with
      | none => exact .failure
      | some p => exact .some (called?_isExpr (by decide) hcalled)
    · refine .andThen fun found => ?_
      cases found with
      | none => exact .none
      | some p =>
          have hend : BarrenIfAny (do
              let _ ← word "END"
              return some (.call "if" [])) :=
            .andThen fun _ => .some (isExpr_call_foreign (by decide) [])
          exact .andThen fun _ => .andThen fun _ => .andThen fun _ =>
            .ite (.andThen fun _ => hend) hend
  · exact .andThen fun _ => .ite (.andThen fun _ => .some (isExpr_call_foreign (by decide) []))
      (.andThen fun _ => .some (isExpr_call_foreign (by decide) []))

/-! ### What follows an operand -/

theorem mem_of_lookup {β : Type} {table : List (String × β)} {key : String} {b : β}
    (h : table.lookup key = some b) : (key, b) ∈ table := by
  obtain ⟨before, after, rfl, -⟩ := List.lookup_eq_some_iff.1 h
  simp

theorem barren_braced : Barren (braced g) := by
  refine .andThen fun key => ?_
  split
  · rename_i name hname
    have hname : name ∈ foreignNames :=
      (by decide : ∀ e ∈ timeMarks, e.2 ∈ foreignNames) _ (mem_of_lookup hname)
    have hend : Barren (do expect (mark "\x7d"); return .call name []) :=
      .andThen fun _ => barren_call hname []
    refine .andThen fun _ => .andThen fun next => ?_
    extract_lets
    split
    · exact .andThen fun _ => hend
    · exact hend
  · exact .andThen fun _ => .andThen fun _ => barren_call (by decide) []

theorem foreign_bracketed (left : Option Phrase) (ls : List Lexeme) :
    Ensures (bracketed g left) ls (Foreign ls) := by
  refine .ifMark (fun _ tail _ _ => barren_braced.some ls tail) ?_
  refine .ifMark (fun _ _ _ _ => .andThen fun items _ => .andThen fun _ _ => ?_) (.pure rfl)
  have hcall {name : String} (h : name ∈ foreignNames) {rest : List Lexeme} :
      Foreign ls (some (.call name [])) rest := isExpr_call_foreign h []
  cases left with
  | none => exact .pure (hcall (by decide))
  | some p =>
      dsimp only
      split
      · exact .pure (hcall (by decide))
      · exact .pure (hcall (by decide))
      · exact .ite (fun _ => .failure) fun _ => .pure rfl

theorem kept_brackets (p : Phrase) (ls : List Lexeme) : Ensures (brackets g p) ls (Kept p ls) :=
  kept_goOn (fun p ls => foreign_bracketed (some p) ls) p ls

theorem barren_brackets (hp : p.isExpr = false) : Barren (brackets g p) :=
  fun ls => (kept_brackets p ls).mono fun _ _ h => h.isExpr_eq hp

theorem dotted_isExpr (left member : Phrase) (comments : List String) :
    (left.dotted member comments).isExpr = false := by
  unfold dotted
  split
  · rfl
  · rfl
  · rfl
  · split
    · simp [isExpr]
    · rfl
  · rfl

theorem foreign_suffixStep (left : Phrase) (ls : List Lexeme) :
    Ensures (suffixStep g left) ls (Foreign ls) := by
  refine .bind (.peek ?_)
  split
  · rename_i m comments hnext
    refine .ite (fun _ => ?_) fun _ => .ite (fun _ => ?_) fun _ => ?_
    · exact .andThen fun _ _ => .andThen fun _ _ => .andThen fun _ mid =>
        (barren_brackets (dotted_isExpr ..)).some ls mid
    · exact .andThen fun _ _ => .andThen fun _ mid => (barren_brackets rfl).some ls mid
    · split
      · rename_i name hname
        have hname : name ∈ foreignNames :=
          (by decide : ∀ e ∈ lookUps, e.2 ∈ foreignNames) _ (mem_of_lookup hname)
        have hend (p : Phrase) (mid : List Lexeme) :
            Ensures (do return some (← brackets g (.call name [left, p]))) mid (Foreign ls) :=
          (barren_brackets (isExpr_call_foreign hname [left, p])).some ls mid
        refine .andThen fun _ _ => .andThen fun found _ => ?_
        cases found with
        | none => exact .andThen fun p mid => hend p mid
        | some p =>
            exact .andThen fun _ _ => .ite (fun _ => .andThen fun _ mid => hend p mid)
              fun _ => hend p _
      · exact .pure rfl
  · exact .pure rfl

theorem kept_suffixes (p : Phrase) (ls : List Lexeme) : Ensures (suffixes g p) ls (Kept p ls) :=
  .bind ((kept_brackets p ls).mono fun q mid hq =>
    (kept_goOn foreign_suffixStep q mid).mono fun _ _ h => hq.trans h)

theorem barren_suffixes (hp : p.isExpr = false) : Barren (suffixes g p) :=
  fun ls => (kept_suffixes p ls).mono fun _ _ h => h.isExpr_eq hp

end Tabula
