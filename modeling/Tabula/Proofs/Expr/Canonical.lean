import Tabula.Proofs.Expr.Nodes
import Tabula.Proofs.Expr.Numeral

/-!
Canonical text read back. The canonical text of an expression is parsed as the expression if its
columns have plain names, its connectives join two operands each and its integers can be read.
-/

namespace Tabula

open Scan Scanner

/-! ### Plain names -/

/-- Classes of characters whose ranges have nothing in common share no character. -/
theorem covered_of_disjoint (rs ss : List Text.CodeRange)
    (h : ∀ r ∈ rs, ∀ s ∈ ss, r.2 < s.1 ∨ s.2 < r.1) {c : Char} (hc : Text.covered rs c = true) :
    Text.covered ss c = false := by
  rw [Text.covered, List.any_eq_true] at hc
  obtain ⟨r, hr, hin⟩ := hc
  rw [Text.covered, List.any_eq_false]
  intro s hs
  have hapart := h r hr s hs
  simp only [Bool.and_eq_true, decide_eq_true_eq] at hin ⊢
  omega

section Words

variable {c : Char}

theorem isBlank_of_isWord (h : Text.isWord c = true) : Text.isBlank c = false :=
  covered_of_disjoint Text.wordRanges Text.blankRanges (by decide +kernel) h

/-- The marks among the first characters, and the null character. -/
def markRanges : List Text.CodeRange :=
  [(0, 0), (0x21, 0x2F), (0x3A, 0x40), (0x5B, 0x5E), (0x60, 0x60), (0x7B, 0x7E)]

theorem ne_of_isWord (h : Text.isWord c = true) {d : Char}
    (hd : Text.covered markRanges d = true) : c ≠ d := by
  rintro rfl
  rw [covered_of_disjoint Text.wordRanges markRanges (by decide +kernel) h] at hd
  cases hd

theorem covered_of_isPunctuation (h : isPunctuation c = true) :
    Text.covered markRanges c = true := by
  rw [isPunctuation, List.contains_iff_mem] at h
  exact List.all_eq_true.1 (by decide +kernel) c h

theorem isWordChar_of_isWord (h : Text.isWord c = true) : isWordChar c = true := by
  have hpunctuation : isPunctuation c = false := by
    rw [← Bool.not_eq_true]
    exact fun hmark => ne_of_isWord h (covered_of_isPunctuation hmark) rfl
  have hspace : Text.isSpace c = false := by
    rw [Text.isSpace, isBlank_of_isWord h, Bool.false_and]
  have hnull : c ≠ '\x00' := ne_of_isWord h (by decide)
  simp [isWordChar, hspace, hpunctuation, hnull]

end Words

/-- The name of a column that the text of an expression can hold as it is: the tokenizer reads it as
one word, which consists of letters, digits and underscores and is no keyword. -/
structure IsPlainName (name : String) : Prop where
  scanned : Piece.scan name = some [.token (.word name)]
  word : ∀ c ∈ name.toList, Text.isWord c = true
  free : (Token.word name).isFree = true

/-- What has been begun is a number. -/
inductive BeginsNumber : Scan → Prop
  | number (back : List Char) (point : Bool) (exponent : Nat) :
      BeginsNumber (.number back point exponent)
  | line (back : List Char) (point : Bool) (exponent : Nat) :
      BeginsNumber (.numberLine back point exponent)

/-- A number goes on, or it is a token. -/
theorem BeginsNumber.step {s : Scan} (hs : BeginsNumber s) {c : Char} (hc : Text.isWord c = true) :
    (∃ next, s.step c = ([], next) ∧ BeginsNumber next) ∨
      ∃ text next, s.step c = ([.token (.number text)], next) := by
  have hword := isWordChar_of_isWord hc
  have hne {d : Char} (hd : Text.covered markRanges d = true) : c ≠ d := ne_of_isWord hc hd
  by_cases hdigit : c.isDigit = true
  · cases hs with
    | number back point exponent =>
        exact .inl ⟨_, by simp only [Scan.step, hdigit, if_true],
          .number (c :: back) point exponent⟩
    | line back point exponent =>
        exact .inl ⟨_, by simp only [Scan.step, hdigit, if_true],
          .number (c :: back) point exponent⟩
  · have hbegin : begin false c = ([], .word [c]) :=
      begin_word hword (by simpa using hdigit) (hne (by decide)) false
    cases hs with
    | number back point exponent =>
        have hpoint := hne (d := '.') (by decide)
        have hplus := hne (d := '+') (by decide)
        have hminus := hne (d := '-') (by decide)
        by_cases hline : c = '_'
        · exact .inl ⟨_, by simp [Scan.step, hline], .line back point exponent⟩
        · by_cases hmark : (c = 'e' ∨ c = 'E') ∧ exponent = 0
          · refine .inl ⟨_, ?_, .number (c :: back) point 1⟩
            simp [Scan.step, hdigit, hline, hpoint, hplus, hminus, hmark]
          · refine .inr ⟨ofBack back, .word [c], ?_⟩
            simp [Scan.step, hdigit, hline, hpoint, hplus, hminus, hmark, andBegin, hbegin,
              marksParameter]
    | line back point exponent =>
        exact .inr ⟨ofBack back, .word [c, '_'], by simp [Scan.step, hdigit, hword]⟩

/-- What has begun as a number gives a number first. -/
theorem BeginsNumber.head?_run {s : Scan} (hs : BeginsNumber s) {cs : List Char}
    (h : ∀ c ∈ cs, Text.isWord c = true) {ps : List Piece} (hrun : (plain s).run cs = some ps) :
    ∃ text, ps.head? = some (.token (.number text)) := by
  induction cs generalizing s ps with
  | nil => cases hs <;> cases hrun <;> exact ⟨_, rfl⟩
  | cons c cs ih =>
      rw [List.forall_mem_cons] at h
      rcases hs.step h.1 with ⟨next, hstep, hnext⟩ | ⟨text, next, hstep⟩
      · have hgo : (plain s).run (c :: cs) = (plain next).run cs := by
          simp [run, Scanner.step, hstep]
        exact ih hnext h.2 (hgo ▸ hrun)
      · have hgo : (plain s).run (c :: cs) =
            (.token (.number text) :: ·) <$> (plain next).run cs := by
          simp [run, Scanner.step, hstep, dollar]
        rw [hgo] at hrun
        obtain ⟨rest, -, rfl⟩ := Option.map_eq_some_iff.1 hrun
        exact ⟨text, rfl⟩

namespace IsPlainName

variable {name : String}

theorem exists_cons (h : IsPlainName name) : ∃ c cs, name.toList = c :: cs := by
  cases hname : name.toList with
  | nil =>
      have hscan := h.scanned
      rw [Piece.scan, hname] at hscan
      cases hscan
  | cons c cs => exact ⟨c, cs, rfl⟩

theorem isOneWord (h : IsPlainName name) : isOneWord name = true := by
  obtain ⟨c, cs, hname⟩ := h.exists_cons
  have hword := h.word
  rw [hname] at hword
  have hfirst := hword c List.mem_cons_self
  have hdigit : c.isDigit = false := by
    by_contra hdigit
    rw [Bool.not_eq_false] at hdigit
    have hscan := h.scanned
    have hgo : (plain (gap false)).run (c :: cs) = (plain (.number [c] false 0)).run cs := by
      simp [run, Scanner.step, Scan.step, begin_digit hdigit]
    rw [Piece.scan, hname, hgo] at hscan
    obtain ⟨text, htext⟩ := (BeginsNumber.number [c] false 0).head?_run
      (fun d hd => hword d (List.mem_cons_of_mem c hd)) hscan
    cases htext
  have hdollar : c ≠ '$' := ne_of_isWord hfirst (by decide)
  have hall : (c :: cs).all isWordChar = true :=
    List.all_eq_true.2 fun d hd => isWordChar_of_isWord (hword d hd)
  simp only [Tabula.isOneWord, hname, hall, List.head?_cons, Option.map_some, Option.getD_some,
    hdigit, Bool.not_false, Bool.true_and, decide_eq_true_eq]
  exact hdollar

theorem endsVisibly (h : IsPlainName name) : EndsVisibly name.toList := by
  obtain ⟨c, cs, hname⟩ := h.exists_cons
  have hne : name.toList ≠ [] := by simp [hname]
  exact ⟨_, List.getLast?_eq_some_getLast hne, isBlank_of_isWord (h.word _ (List.getLast_mem hne))⟩

end IsPlainName

namespace Expr

/-- What the canonical text of an expression keeps: plain names of columns, connectives of two
operands, and integers that are not too long to be read. -/
structure IsPlain (e : Expr) : Prop where
  named : ∀ name, .column name ∈ e.nodes → IsPlainName name
  paired : ∀ op a b rest, .junction op a b rest ∈ e.nodes → rest = []
  short : ∀ n, .literal (.int n) ∈ e.nodes →
    Number.digitCount n.natAbs ≤ Number.maxIntegerDigits

/-- No column is called by a word that the grammar gives a use of its own. -/
def AvoidsOwnWords (e : Expr) : Prop :=
  ∀ name, .column name ∈ e.nodes → Text.upper name ∉ ownWords

/-- The canonical text tells the expression, alone and as an operand. -/
structure Restored (e : Expr) : Prop where
  alone : Tells Whole e.text.toList e
  operand : Tells Operand (enclose e.isCompound e.text).toList e

namespace Restored

variable {e l r : Expr}

attribute [local simp] text joinedText listedText

theorem of_operand (h : Tells Operand e.text.toList e) (hcompound : e.isCompound = false) :
    e.Restored :=
  ⟨h.whole, by rwa [hcompound]⟩

theorem of_whole (h : Tells Whole e.text.toList e) (hcompound : e.isCompound = true) :
    e.Restored := by
  refine ⟨h, ?_⟩
  have hparen : (enclose true e.text).toList = '(' :: (e.text.toList ++ [')']) := by
    simp [enclose]
  rw [hcompound, hparen]
  exact h.paren

theorem column {name : String} (h : IsPlainName name) (hown : Text.upper name ∉ ownWords) :
    (column name).Restored := by
  refine of_operand ?_ rfl
  rw [text]
  exact .bareColumn h.isOneWord h.free hown h.endsVisibly

theorem literal {x : Literal}
    (hshort : ∀ n, x = .int n → Number.digitCount n.natAbs ≤ Number.maxIntegerDigits) :
    (literal x).Restored := by
  refine of_operand ?_ rfl
  rw [text]
  cases x with
  | null => exact .null
  | bool b => exact .bool b
  | int n => exact .int (hshort n rfl)
  | float x finite => exact .float x finite
  | str s =>
      have hchars : (Literal.str s).text.toList = '\'' :: (doubled '\'' s.toList ++ ['\'']) := by
        simp [Literal.text, quoteString, doubled]
      rw [hchars]
      exact .string s

theorem ranking (f : Ranking) : (ranking f).Restored := by
  refine of_operand ?_ rfl
  have hchars : (Expr.ranking f).text.toList = f.name.toList ++ ['(', ')'] := by simp
  rw [hchars]
  exact .ranking f

theorem compare (hl : l.Restored) (hr : r.Restored) (op : CompareOp) :
    (compare op l r).Restored := by
  refine of_whole ?_ rfl
  have hchars : (Expr.compare op l r).text.toList = (enclose l.isCompound l.text).toList ++
      (' ' :: (op.symbol.toList ++ [' ']) ++ (enclose r.isCompound r.text).toList) := by
    simp
  rw [hchars]
  exact hl.operand.compare hr.operand (.inl rfl)

theorem arith (hl : l.Restored) (hr : r.Restored) (op : ArithOp) : (arith op l r).Restored := by
  refine of_whole ?_ rfl
  have hchars : (Expr.arith op l r).text.toList = (enclose l.isCompound l.text).toList ++
      (' ' :: (op.symbol.toList ++ [' ']) ++ (enclose r.isCompound r.text).toList) := by
    simp
  rw [hchars]
  exact hl.operand.arith hr.operand op

theorem not (h : e.Restored) : (not e).Restored := by
  refine of_whole ?_ rfl
  have hchars : (Expr.not e).text.toList =
      "NOT".toList ++ ' ' :: (enclose e.isCompound e.text).toList := by
    simp
  rw [hchars]
  exact h.operand.not

theorem isNull (h : e.Restored) (negated : Bool) : (isNull e negated).Restored := by
  refine of_whole ?_ rfl
  have hchars : (Expr.isNull e negated).text.toList =
      (enclose e.isCompound e.text).toList ++ Tells.nullText negated := by
    cases negated <;> simp [Tells.nullText]
  rw [hchars]
  exact h.operand.isNull negated

theorem junction (hl : l.Restored) (hr : r.Restored) (op : Junction) :
    (junction op l r []).Restored := by
  refine of_whole ?_ rfl
  have htold := hl.operand.junction op [((enclose r.isCompound r.text).toList, r)] (by
    simpa using hr.operand)
  simpa using htold

theorem toList_listedText (es : List Expr) :
    (listedText es).toList = es.flatMap fun e => [',', ' '] ++ e.text.toList := by
  induction es with
  | nil => simp
  | cons e es ih => simp [ih]

theorem call {f : ScalarFn} (h : e.Restored) (others : List Expr)
    (hothers : ∀ o ∈ others, o.Restored) (hcount : f.admitted.admits (others.length + 1) = true)
    {result : Expr} (hcall : Expr.call? f (e :: others) = some result)
    (htext : result.text = f.name ++ "(" ++ e.text ++ listedText others ++ ")")
    (hcompound : result.isCompound = false) : result.Restored := by
  refine of_operand ?_ hcompound
  have hitems : ∀ i ∈ others.map fun o => (o.text.toList, o), Tells Whole i.1 i.2 := by
    rw [List.forall_mem_map]
    exact fun o ho => (hothers o ho).alone
  have htold := Tells.call (isNameOf_name f) h.alone _ hitems (by simpa using hcount)
    (by simpa [Function.comp_def] using hcall)
  rw [htext]
  simpa [toList_listedText, List.flatMap_map] using htold

end Restored

/-- The canonical text restores every expression. -/
theorem restored (e : Expr) (h : e.IsPlain ∧ e.AvoidsOwnWords) : e.Restored := by
  have hsub {e a : Expr} (h : e.IsPlain ∧ e.AvoidsOwnWords) (ha : a ∈ e.operands) :
      a.IsPlain ∧ a.AvoidsOwnWords := by
    obtain ⟨⟨hnamed, hpaired, hshort⟩, hown⟩ := h
    exact ⟨⟨fun name hn => hnamed name (nodes_subset ha hn),
      fun op b c rest hj => hpaired op b c rest (nodes_subset ha hj),
      fun n hn => hshort n (nodes_subset ha hn)⟩, fun name hn => hown name (nodes_subset ha hn)⟩
  induction e with
  | column name => exact .column (h.1.named name (mem_nodes_self _)) (h.2 name (mem_nodes_self _))
  | literal l => exact .literal fun n hn => h.1.short n (hn ▸ mem_nodes_self _)
  | ranking f => exact .ranking f
  | compare op l r ihl ihr =>
      exact (ihl (hsub h (by simp [operands]))).compare (ihr (hsub h (by simp [operands]))) op
  | arith op l r ihl ihr =>
      exact (ihl (hsub h (by simp [operands]))).arith (ihr (hsub h (by simp [operands]))) op
  | not a ih => exact (ih (hsub h (by simp [operands]))).not
  | junction op a b rest iha ihb ihrest =>
      obtain rfl : rest = [] := h.1.paired op a b rest (mem_nodes_self _)
      exact (iha (hsub h (by simp [operands]))).junction (ihb (hsub h (by simp [operands]))) op
  | isNull a negated ih => exact (ih (hsub h (by simp [operands]))).isNull negated
  | unary f a ih =>
      refine (ih (hsub h (by simp [operands]))).call (f := .unary f) [] (by simp) rfl rfl ?_ rfl
      simp [text, listedText, ScalarFn.name]
  | round a ih =>
      refine (ih (hsub h (by simp [operands]))).call (f := .round) [] (by simp) rfl rfl ?_ rfl
      simp [text, listedText, ScalarFn.name]
  | roundTo a p iha ihp =>
      have hp := ihp (hsub h (by simp [operands]))
      refine (iha (hsub h (by simp [operands]))).call (f := .round) [p] (by simpa using hp)
        rfl rfl ?_ rfl
      simp [text, listedText, ScalarFn.name, String.append_assoc]
  | coalesce a rest iha ihrest =>
      refine (iha (hsub h (by simp [operands]))).call (f := .coalesce) rest (fun e he => ?_) ?_
        rfl ?_ rfl
      · exact ihrest e he (hsub h (by simp [operands, he]))
      · simp [ScalarFn.admitted, Arity.admits]
      · simp [text, ScalarFn.name]

/-- The canonical text of an expression is parsed as the expression, whatever it is put together
from, if the names of its columns can stand as they are, each connective joins two operands and each
integer can be read. -/
theorem parse_text (e : Expr) (h : e.IsPlain) (hown : e.AvoidsOwnWords) (position : Option Int) :
    Expr.parse e.text position = .ok e :=
  (restored e ⟨h, hown⟩).alone.parse position

/-- A text with a quote, a negative double in exponent notation, and a ranking. -/
theorem parse_text_quote :
    let e := junction .or (compare .eq (column "team") (literal (.str "it's")))
      (compare (.order .le) (ranking .denseRank)
        (arith .sub (unary .abs (column "points"))
          (literal (.float (-1e-7) (by decide +kernel))))) []
    e.text = "(team = 'it''s') OR (dense_rank() <= (abs(points) - -1e-07))" ∧
      e.IsPlain ∧ e.AvoidsOwnWords ∧ Expr.parse e.text none = .ok e := by
  intro e
  have hteam : IsPlainName "team" :=
    ⟨by decide +kernel, List.all_eq_true.1 (by decide +kernel), by decide +kernel⟩
  have hpoints : IsPlainName "points" :=
    ⟨by decide +kernel, List.all_eq_true.1 (by decide +kernel), by decide +kernel⟩
  have hcolumns : ∀ name, column name ∈ e.nodes → name = "team" ∨ name = "points" := by
    simp [e, nodes, nodesOf]
  have hplain : e.IsPlain := by
    refine ⟨fun name hname => ?_, ?_, ?_⟩
    · rcases hcolumns name hname with rfl | rfl
      · exact hteam
      · exact hpoints
    · simp [e, nodes, nodesOf]
    · simp [e, nodes, nodesOf]
  have hown : e.AvoidsOwnWords := fun name hname => by
    rcases hcolumns name hname with rfl | rfl <;> decide +kernel
  exact ⟨by decide +kernel, hplain, hown, parse_text e hplain hown none⟩

/-- Words that the tokenizer reads like any name and the grammar does not: such columns are not
parsed back, wherever a use of the word can stand. -/
theorem parse_text_ownWords :
    ((column "connect_by_root").IsPlain ∧
      (Expr.parse (column "connect_by_root").text none).isOk = false) ∧
    ((compare .eq (literal (.int 1)) (compare .eq (column "if") (literal (.int 2)))).IsPlain ∧
      (Expr.parse (compare .eq (literal (.int 1))
        (compare .eq (column "if") (literal (.int 2)))).text none).isOk = false) ∧
    ((unary .abs (column "lambda")).IsPlain ∧
      (Expr.parse (unary .abs (column "lambda")).text none).isOk = false) := by
  have hconnect : IsPlainName "connect_by_root" :=
    ⟨by decide +kernel, List.all_eq_true.1 (by decide +kernel), by decide +kernel⟩
  have hif : IsPlainName "if" :=
    ⟨by decide +kernel, List.all_eq_true.1 (by decide +kernel), by decide +kernel⟩
  have hlambda : IsPlainName "lambda" :=
    ⟨by decide +kernel, List.all_eq_true.1 (by decide +kernel), by decide +kernel⟩
  refine ⟨⟨?_, by decide +kernel⟩, ⟨?_, by decide +kernel⟩, ⟨?_, by decide +kernel⟩⟩
  · exact ⟨by simpa [nodes] using hconnect, by simp [nodes], by simp [nodes]⟩
  · exact ⟨by simpa [nodes] using hif, by simp [nodes], by simpa [nodes] using by decide⟩
  · exact ⟨by simpa [nodes] using hlambda, by simp [nodes], by simp [nodes]⟩

end Expr

end Tabula
