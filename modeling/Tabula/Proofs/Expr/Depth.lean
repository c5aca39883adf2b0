import Tabula.Proofs.Expr.Sentence

/-!
Reading to a depth that the number of tokens bounds. Operands and whole expressions are read as
parts of the grammar, each built from those inside it.
-/

namespace Tabula

open Reader

variable {part : Part} {k l c : Nat} {ts us : List Token} {p q : Phrase}
  {items : List (List Token × Phrase)}

/-- The tokens are read as a part, whatever follows at level `k`, by rules that may ask for parts
eight levels deep for every token and `c` levels beyond. -/
def Reads (part : Part) (k c : Nat) (ts : List Token) (p : Phrase) : Prop :=
  ∀ d, 8 * ts.length + c ≤ d → Finds k (Grammar.ofDepth d part) ts p

/-- A part is read if its rule finds it from what is read one level less deep. -/
theorem Reads.of_rule (hne : ts ≠ [])
    (h : ∀ d, 8 * ts.length + c ≤ d + 1 → Finds k (part.rule (Grammar.ofDepth d)) ts p) :
    Reads part k c ts p := by
  intro d hd
  have hlength := List.length_pos_iff.2 hne
  obtain ⟨d, rfl⟩ : ∃ e, d = e + 1 := Nat.exists_eq_add_one_of_ne_zero (by omega)
  exact h d hd

/-! ### From tight to loose -/

theorem Reads.bits (h : Reads .signed k 0 ts p) (hne : ts ≠ []) (hlk : l ≤ k) (hk : k ≤ 7)
    (hl : l ≤ 5) : Reads .bits l 1 ts p :=
  .of_rule hne fun d hd =>
    have hproduct := finds_product (finds_power (h d (by omega)) hk) hlk (by omega : l ≤ 6)
    finds_bits (finds_sum hproduct (Nat.le_refl l) hl) hl

theorem Reads.range {d : Nat} (h : Reads .bits k 1 ts p) (hk : k ≤ 5)
    (hd : 8 * ts.length + 1 ≤ d) : Finds k (rangeFrom (Grammar.ofDepth d) none) ts p :=
  finds_range (h d hd) hk

theorem Reads.condition (h : Reads .bits k 1 ts p) (hne : ts ≠ []) (hlk : l ≤ k) (hk : k ≤ 5)
    (hl : l ≤ 2) : Reads .condition l 2 ts p :=
  .of_rule hne fun d hd =>
    have hcomparison := finds_comparison (h.range hk (by omega)) hlk (by omega : l ≤ 4)
    finds_condition (finds_equality hcomparison (Nat.le_refl l) (by omega)) (Nat.le_refl l) hl _

theorem Reads.disjunction (h : Reads .condition k 2 ts p) (hne : ts ≠ []) :
    Reads .disjunction 0 3 ts p :=
  .of_rule hne fun d hd => finds_disjunction (h d (by omega))

theorem Reads.assignment (h : Reads .disjunction 0 3 ts p) (hne : ts ≠ []) :
    Reads .assignment 0 4 ts p :=
  .of_rule hne fun d hd => finds_assignment (h d (by omega))

/-! ### Operands -/

/-- The tokens are those of an operand, which is read as the phrase. -/
structure Operand (ts : List Token) (p : Phrase) : Prop where
  isOperand : IsOperand ts
  reads : Reads .signed 7 0 ts p
  notTest : ∀ q, p ≠ .isNull q

/-- The tokens are those of an expression, which is read as the phrase. -/
structure Whole (ts : List Token) (p : Phrase) : Prop where
  opens : Opens ts
  reads : Reads .disjunction 0 3 ts p

theorem Opens.append (h : Opens ts) (hus : ∀ t ∈ us, t.Usual) : Opens (ts ++ us) where
  ne_nil := List.append_ne_nil_of_left_ne_nil h.ne_nil us
  mark m hm := h.mark m (by rwa [h.head?_append] at hm)
  key := by
    rw [h.headKey_append]
    exact h.key
  usual := List.forall_mem_append.2 ⟨h.usual, hus⟩

namespace Operand

theorem bits (h : Operand ts p) : Reads .bits 5 1 ts p :=
  h.reads.bits h.isOperand.ne_nil (by decide) (by decide) (by decide)

theorem condition (h : Operand ts p) : Reads .condition 2 2 ts p :=
  h.bits.condition h.isOperand.ne_nil (by decide) (by decide) (by decide)

theorem whole (h : Operand ts p) : Whole ts p :=
  ⟨h.isOperand.toOpens, h.condition.disjunction h.isOperand.ne_nil⟩

/-! Operands that are joined. -/

theorem arith (h : Operand ts p) (h' : Operand us q) (op : ArithOp) :
    Whole (ts ++ .mark op.symbol :: us) (.arith op p q) := by
  have hmark : (Token.mark op.symbol).Usual := by cases op <;> decide
  have hopens := h.isOperand.append (List.forall_mem_cons.2 ⟨hmark, h'.isOperand.usual⟩)
  have hbits : Reads .bits 0 1 (ts ++ .mark op.symbol :: us) (.arith op p q) := by
    refine .of_rule hopens.ne_nil fun d hd => ?_
    rw [List.length_append, List.length_cons] at hd
    have hleft := finds_power (h.reads d (by omega)) (Nat.le_refl 7)
    have hright := finds_power (h'.reads d (by omega)) (Nat.le_refl 7)
    have hop : (op = .mul ∨ op = .div) ∨ op = .add ∨ op = .sub := by cases op <;> simp
    rcases hop with hop | hop
    · have hproduct := finds_product_joined hleft hright h'.isOperand hop
      exact finds_bits (finds_sum hproduct (Nat.le_refl 0) (by decide)) (by decide)
    · have hpass {ts : List Token} {p : Phrase} (h : Finds 7 (power (Grammar.ofDepth d)) ts p) :=
        finds_product h (by decide : 6 ≤ 7) (Nat.le_refl 6)
      exact finds_bits (finds_sum_joined (hpass hleft) (hpass hright) h'.isOperand hop) (by decide)
  have hcondition := hbits.condition hopens.ne_nil (Nat.le_refl 0) (by decide) (by decide)
  exact ⟨hopens, hcondition.disjunction hopens.ne_nil⟩

theorem compare (h : Operand ts p) (h' : Operand us q) {m : String} {op : CompareOp}
    (hm : (m, op) ∈ equalityMarks ∨ ∃ o : Order, m = o.symbol ∧ op = .order o) :
    Whole (ts ++ .mark m :: us) (.compare op p q) := by
  have hmark : (Token.mark m).Usual := by
    rcases hm with hm | ⟨o, rfl, -⟩
    · exact (by decide : ∀ e ∈ equalityMarks, (Token.mark e.1).Usual) _ hm
    · cases o <;> decide
  have hopens := h.isOperand.append (List.forall_mem_cons.2 ⟨hmark, h'.isOperand.usual⟩)
  have hcondition : Reads .condition 0 2 (ts ++ .mark m :: us) (.compare op p q) := by
    refine .of_rule hopens.ne_nil fun d hd => ?_
    rw [List.length_append, List.length_cons] at hd
    have hleft := h.bits.range (by decide) (by omega : _ ≤ d)
    have hright := h'.bits.range (by decide) (by omega : _ ≤ d)
    rcases hm with hm | ⟨o, rfl, rfl⟩
    · have hpass {ts : List Token} {p : Phrase}
          (h : Finds 5 (rangeFrom (Grammar.ofDepth d) none) ts p) :=
        finds_comparison h (by decide : 4 ≤ 5) (Nat.le_refl 4)
      have hequality := finds_equality_joined (hpass hleft) (hpass hright) h'.isOperand hm
      exact finds_condition hequality (Nat.le_refl 0) (by decide) _
    · have hcomparison := finds_comparison_joined hleft hright h'.isOperand o
      have hequality := finds_equality hcomparison (Nat.le_refl 0) (by decide)
      exact finds_condition hequality (Nat.le_refl 0) (by decide) _
  exact ⟨hopens, hcondition.disjunction hopens.ne_nil⟩

theorem tested (h : Operand ts p) (negated : Bool) :
    Reads .condition 0 2 (ts ++ nullTokens negated) (p.nullTested negated) := by
  have hne := List.append_ne_nil_of_left_ne_nil h.isOperand.ne_nil (nullTokens negated)
  refine .of_rule hne fun d hd => ?_
  rw [List.length_append] at hd
  have hcomparison := finds_comparison (h.bits.range (by decide) (by omega : _ ≤ d))
    (by decide : 4 ≤ 5) (Nat.le_refl 4)
  exact finds_isNull (finds_equality hcomparison (by decide) (Nat.le_refl 3)) negated

theorem isNull (h : Operand ts p) (negated : Bool) :
    Whole (ts ++ nullTokens negated) (p.nullTested negated) :=
  have hopens := h.isOperand.append (usual_nullTokens negated)
  ⟨hopens, (h.tested negated).disjunction hopens.ne_nil⟩

/-- Operands joined by one connective are read from left to right. -/
theorem junction (op : Junction) (h : Operand ts p) (items : List (List Token × Phrase))
    (hitems : ∀ i ∈ items, Operand i.1 i.2) :
    Whole (ts ++ joined (.word op.symbol) items)
      (items.foldl (fun left i => .junction op left i.2) p) := by
  have husual := usual_joined (t := .word op.symbol) (by simp [Token.Usual])
    fun i hi => (hitems i hi).isOperand.usual
  have hopens := h.isOperand.append husual
  refine ⟨hopens, .of_rule hopens.ne_nil fun d hd => ?_⟩
  rw [List.length_append] at hd
  refine finds_junction op (h.condition d (by omega)) (fun i hi => ?_)
    fun i hi => (hitems i hi).isOperand.usual
  have hlength := length_le_of_mem_joined (.word op.symbol) hi
  exact (hitems i hi).condition d (by omega)

theorem opens_not (husual : ∀ t ∈ ts, t.Usual) : Opens (.word "NOT" :: ts) where
  ne_nil := List.cons_ne_nil _ _
  mark m hm := by simp at hm
  key := by
    rw [headKey_word (by simp)]
    decide
  usual := List.forall_mem_cons.2 ⟨by decide, husual⟩

/-- What is read as a condition is an expression after a NOT. -/
theorem whole_not (husual : ∀ t ∈ ts, t.Usual) (h : Reads .condition k 2 ts p) (hk : k ≤ 2) :
    Whole (.word "NOT" :: ts) (.not p) := by
  have hopens := opens_not husual
  have hsigned : Reads .signed k 0 (.word "NOT" :: ts) (.not p) := by
    refine .of_rule hopens.ne_nil fun d hd => ?_
    rw [List.length_cons] at hd
    exact finds_not (h d (by omega)) _
  have hbits := hsigned.bits hopens.ne_nil (Nat.le_refl k) (by omega) (by omega)
  have hcondition := hbits.condition hopens.ne_nil (Nat.le_refl k) (by omega) hk
  exact ⟨hopens, hcondition.disjunction hopens.ne_nil⟩

/-- A NOT before an operand. -/
theorem not (h : Operand ts p) : Whole (.word "NOT" :: ts) (.not p) :=
  whole_not h.isOperand.usual h.condition (Nat.le_refl 2)

/-- A NOT before a test for a null. -/
theorem notNull (h : Operand ts p) (negated : Bool) :
    Whole (.word "NOT" :: (ts ++ nullTokens negated)) (.not (p.nullTested negated)) :=
  whole_not (List.forall_mem_append.2 ⟨h.isOperand.usual, usual_nullTokens negated⟩)
    (h.tested negated) (Nat.zero_le 2)

end Operand

/-! ### What operands are made of -/

/-- The tokens after a first one that is neither a sign nor a type are read by what field they
are. -/
theorem reads_of_field {t : Token} (hmark : ∀ m ∈ ["+", "-", "~"], t ≠ .mark m)
    (hkey : ∀ w ∈ ["NOT", "INTERVAL"], t.key ≠ w) (htype : t.isType = false)
    (h : ∀ d, 8 * (t :: ts).length ≤ d + 2 →
      Finds 7 (field (Grammar.ofDepth (d + 1))) (t :: ts) p) :
    Reads .signed 7 0 (t :: ts) p := by
  intro d hd
  have hlength : 8 ≤ d := by
    rw [List.length_cons] at hd
    omega
  obtain ⟨d, rfl⟩ : ∃ e, d = e + 2 := ⟨d - 2, by omega⟩
  exact finds_signed hmark (hkey "NOT" (by simp))
    (finds_typed htype (hkey "INTERVAL" (by simp)) (h d hd))

/-- The words of what a star leaves out or changes, and of columns by a pattern. -/
def starWords : List String := ["EXCEPT", "REPLACE", "RENAME", "COLUMNS", "EXCLUDE"]

theorem isOperand_of_key {t : Token} (hmark : ∀ m, t = .mark m → m = "(" ∨ m = "-")
    (hkey : t.key ∉ openingWords ++ starWords) (husual : ∀ u ∈ t :: ts, u.Usual) :
    IsOperand (t :: ts) where
  ne_nil := List.cons_ne_nil t ts
  mark m hm := hmark m (Option.some.inj hm)
  key hmem := hkey (List.mem_append_left starWords hmem)
  usual := husual
  star rest _ := by
    have hne {w : String} (hw : w ∈ starWords) : headKey (t :: (ts ++ rest)) ≠ w := by
      rintro rfl
      exact hkey (List.mem_append_right openingWords hw)
    refine ⟨⟨hne ?_, hne ?_, hne ?_⟩, fun h => absurd h (hne ?_), fun h => absurd h (hne ?_)⟩
    all_goals decide

/-- What has no word begins an operand. -/
theorem isOperand_of_no_key {t : Token} (hmark : ∀ m, t = .mark m → m = "(" ∨ m = "-")
    (hkey : t.key = "") (husual : ∀ u ∈ t :: ts, u.Usual) : IsOperand (t :: ts) :=
  isOperand_of_key hmark (by rw [hkey]; decide) husual

namespace Operand

theorem number (n : String) : Operand [.number n] (.number n) where
  isOperand := isOperand_of_no_key (by simp) rfl (by simp [Token.Usual])
  reads := reads_of_field (by simp) (by simp [Token.key]) rfl fun _ _ => finds_number _ n
  notTest := by simp

theorem string (s : String) : Operand [.string s] (.string s) where
  isOperand := isOperand_of_no_key (by simp) rfl (by simp [Token.Usual])
  reads := reads_of_field (by simp) (by simp [Token.key]) rfl fun _ _ => finds_string _ s
  notTest := by simp

theorem quotedName (n : String) : Operand [.name n] (.path [] (.quoted n) []) where
  isOperand := isOperand_of_no_key (by simp) rfl (by simp [Token.Usual])
  reads := reads_of_field (by simp) (by simp [Token.key]) rfl fun _ _ => finds_quotedName _ n
  notTest := by simp

/-- A number with a minus before it. -/
theorem minus (n : String) : Operand [.mark "-", .number n] (.minus (.number n)) where
  isOperand := isOperand_of_no_key (by simp) rfl (by simp [Token.Usual])
  reads := .of_rule (by simp) fun d hd =>
    finds_minus ((number n).reads d (by simp at hd; simp; omega)) _
  notTest := by simp

theorem bool (b : Bool) : Operand [.word (boolWord b)] (.bool b) where
  isOperand := isOperand_of_key (by simp) (by cases b <;> decide +kernel) (by simp [Token.Usual])
  reads := reads_of_field (by simp) (by cases b <;> decide +kernel) (by cases b <;> decide +kernel)
    fun _ _ => finds_bool _ b
  notTest := by simp

theorem null : Operand [.word "NULL"] .null where
  isOperand := isOperand_of_key (by simp) (by decide +kernel) (by simp [Token.Usual])
  reads d hd := by
    obtain ⟨d, rfl⟩ : ∃ e, d = e + 8 := ⟨d - 8, by simp at hd; omega⟩
    exact finds_signed (by simp) (by decide +kernel) finds_null
  notTest := by simp

/-- A word without any other use names a column. -/
theorem bareName {w : String} (hfree : (Token.word w).isFree = true)
    (hown : Text.upper w ∉ ownWords) : Operand [.word w] (.path [] (.bare w) []) := by
  have hlisted : ∀ k ∈ openingWords ++ ["EXCEPT", "REPLACE", "RENAME", "NOT"],
      k ∈ ownWords ∨ k ∈ listedWords.flatten := by decide +kernel
  have hkey {k : String} (hk : k ∈ openingWords ++ ["EXCEPT", "REPLACE", "RENAME", "NOT"]) :
      (Token.word w).key ≠ k := by
    rcases hlisted k hk with hk | hk
    · rintro rfl
      exact hown hk
    · exact key_ne_of_isFree hfree hk
  have htype : (Token.word w).isType = false := by
    have hnot : Text.upper w ∉ typeWords := not_mem_of_isFree hfree (by simp [listedWords])
    simpa [Token.isType, Token.isPlain, Token.key] using hnot
  refine ⟨⟨⟨by simp, by simp, ?_, by simp [Token.Usual]⟩, fun rest hrest => ?_⟩, ?_, by simp⟩
  · exact fun hmem => hkey (List.mem_append_left _ hmem) rfl
  · refine ⟨⟨hkey (by decide), hkey (by decide), hkey (by decide)⟩, fun _ => ?_, fun _ t ht => ?_⟩
    · simpa [← List.head?_eq_getElem?] using hrest.head?_ne (m := "(") rfl
    · rw [List.singleton_append, List.getElem?_cons_succ, ← List.head?_eq_getElem?] at ht
      exact (mayFollow_end_iff.1 hrest).1 t ht
  · have hfield (d : Nat) := finds_bareName (Grammar.ofDepth (d + 1)) hfree hown
    refine reads_of_field (by simp) (fun k hk => hkey ?_) htype fun d _ => hfield d
    revert k
    decide

/-- A name with arguments in parentheses. -/
theorem call {w : String} (hkey : Text.upper w ∈ calledNames) (items : List (List Token × Phrase))
    (hitems : ∀ i ∈ items, Whole i.1 i.2)
    (hcalled : Phrase.calledBy? w (items.map Prod.snd) = some p) (hp : p.hoistNulls = p)
    (hnot : ∀ q, p ≠ .isNull q) :
    Operand (.word w :: .mark "(" :: (commaSeparated items ++ [.mark ")"])) p := by
  have husual : ∀ i ∈ items, ∀ t ∈ i.1, t.Usual := fun i hi => (hitems i hi).opens.usual
  have hnames : ∀ k ∈ calledNames, k ∉ openingWords ++ starWords ∧ k ≠ "NOT" ∧ k ∉ typeWords := by
    decide +kernel
  obtain ⟨hopening, hword, htype⟩ := hnames _ hkey
  refine ⟨isOperand_of_key (by simp) hopening ?_, ?_, hnot⟩
  · simp only [List.forall_mem_cons, List.forall_mem_append]
    exact ⟨by simp [Token.Usual], by decide, usual_commaSeparated husual, by decide, by simp⟩
  refine reads_of_field (by simp) ?_ (by simp [Token.isType, Token.isPlain, Token.key, htype])
    fun d hd => ?_
  · simp only [List.forall_mem_cons]
    refine ⟨hword, ?_, by simp⟩
    rintro heq
    exact hopening (by rw [show Text.upper w = "INTERVAL" from heq]; decide)
  · simp only [List.length_cons, List.length_append, List.length_nil] at hd
    obtain ⟨d, rfl⟩ : ∃ e, d = e + 6 := ⟨d - 6, by omega⟩
    have hnone (named : Bool) : Misses (Grammar.ofDepth (d + 7) (.argument named)) :=
      misses_argument (misses_select_ofDepth (d + 5)) (misses_assignment_ofDepth d) named
    refine finds_call hkey hnone (fun named i hi => ?_) husual hcalled hp
    have hwhole := hitems i hi
    have hlength := length_le_commaSeparated hi
    have hassignment : Reads .assignment 0 4 i.1 i.2 :=
      hwhole.reads.assignment hwhole.opens.ne_nil
    exact finds_argument hwhole.opens rfl (hassignment (d + 6) (by omega)) named

end Operand

/-- An expression in parentheses is an operand. -/
theorem Whole.paren (h : Whole ts p) (hform : ∀ name, p ≠ .form name) :
    Operand (.mark "(" :: (ts ++ [.mark ")"])) (.paren p) where
  isOperand := isOperand_of_no_key (by simp) rfl
    (List.forall_mem_cons.2 ⟨by decide, List.forall_mem_append.2 ⟨h.opens.usual, by decide⟩⟩)
  reads := by
    refine reads_of_field (by simp) (by simp [Token.key]) rfl fun d hd => ?_
    simp only [List.length_cons, List.length_append, List.length_nil] at hd
    have hassignment : Reads .assignment 0 4 ts p := h.reads.assignment h.opens.ne_nil
    have hexpression : Reads .expression 0 5 ts p := .of_rule h.opens.ne_nil fun d hd =>
      finds_expression h.opens.usual (hassignment d (by omega))
    exact finds_paren rfl h.opens (hexpression (d + 1) (by omega)) hform
  notTest := by simp

/-- Lexemes of an expression and nothing else are its phrase. -/
theorem Whole.ofLexemes? (h : Whole ts p) (hform : ∀ name, p ≠ .form name) :
    Phrase.ofLexemes? (lexed ts) = some (some p) := by
  have hassignment : Reads .assignment 0 4 ts p := h.reads.assignment h.opens.ne_nil
  have hexpression : Reads .expression 0 5 ts p := .of_rule h.opens.ne_nil fun d hd =>
    finds_expression h.opens.usual (hassignment d (by omega))
  have hdepth : depthFor (lexed ts).length = 16 * ts.length + 15 + 1 := by
    simp only [depthFor, lexed, List.length_map]
    omega
  have hstatement : (Grammar.ofDepth (depthFor (lexed ts).length) .statement).run (lexed ts) =
      some (some p, []) := by
    rw [hdepth]
    exact finds_statement h.opens (hexpression _ (by omega)) hform
  simp [Phrase.ofLexemes?, hstatement]

end Tabula
