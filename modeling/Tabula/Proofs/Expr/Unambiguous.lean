import Tabula.Proofs.Expr.Nodes
import Tabula.Proofs.Expr.Wording
import Tabula.Proofs.Text.Delimited

/-!
Expressions told apart by their texts. A word that is no literal shows that it is a column, the
parentheses around operands and around arguments show where these end, and blanks around operators
show what joins the operands: no text could be that of two expressions.
-/

namespace Tabula

/-! ### Parts of texts -/

/-- What stands between two operands, or after the only one. -/
inductive Link
  | compare (op : CompareOp)
  | arith (op : ArithOp)
  | junction (op : Junction)
  | null (negated : Bool)
  deriving DecidableEq

namespace Link

/-- Its characters after the blank before it. -/
def gap : Link → List Char
  | compare op => op.symbol.toList ++ [' ']
  | arith op => op.symbol.toList ++ [' ']
  | junction op => op.symbol.toList ++ [' ']
  | null negated => if negated then "IS NOT NULL".toList else "IS NULL".toList

def all : List Link :=
  CompareOp.all.map compare ++ ArithOp.all.map arith ++ [.and, .or].map junction ++
    [false, true].map null

theorem mem_all (j : Link) : j ∈ all := by
  rcases j with (_ | _ | o) | op | op | negated
  · decide
  · decide
  · cases o <;> decide
  · cases op <;> decide
  · cases op <;> decide
  · cases negated <;> decide

/-- None of them begins like another one. -/
theorem append_inj {j k : Link} {r s : List Char} (h : j.gap ++ r = k.gap ++ s) :
    j = k ∧ r = s := by
  have hbegins : ∀ j ∈ all, ∀ k ∈ all, j.gap <+: k.gap → j = k := by decide
  obtain rfl : j = k := by
    rcases List.append_eq_append_iff.1 h with ⟨more, hk, -⟩ | ⟨more, hj, -⟩
    · exact hbegins j j.mem_all k k.mem_all ⟨more, hk.symm⟩
    · exact (hbegins k k.mem_all j j.mem_all ⟨more, hj.symm⟩).symm
  exact ⟨rfl, List.append_cancel_left h⟩

end Link

namespace Expr

def chars (e : Expr) : List Char := e.text.toList

/-- The characters of an operand. -/
def operandChars (e : Expr) : List Char := (enclose e.isCompound e.text).toList

/-- The name of what is called, and the arguments. -/
def called? : Expr → Option (String × List Expr)
  | ranking f => some (f.name, [])
  | e => e.callee?.map fun c => (c.1.name, c.2)

/-- The call with a name and arguments. -/
def recalled? (c : String × List Expr) : Option Expr :=
  ((Ranking.named? c.1).map ranking).or ((ScalarFn.named? c.1).bind fun f => call? f c.2)

/-- The names of what can be called. -/
def callNames : List String := Ranking.all.map Ranking.name ++ ScalarFn.all.map ScalarFn.name

theorem mem_callNames {e : Expr} {name : String} {args : List Expr}
    (h : e.called? = some (name, args)) : name ∈ callNames := by
  have hscalar (f : ScalarFn) : f.name ∈ callNames :=
    List.mem_append_right _ (List.mem_map_of_mem f.mem_all)
  cases e with
  | ranking f =>
      cases h
      cases f <;> decide
  | unary f a =>
      cases h
      exact hscalar (.unary f)
  | round a =>
      cases h
      exact hscalar .round
  | roundTo a p =>
      cases h
      exact hscalar .round
  | coalesce a rest =>
      cases h
      exact hscalar .coalesce
  | _ => cases h

theorem recalled?_called? {e : Expr} {c : String × List Expr} (h : e.called? = some c) :
    recalled? c = some e := by
  cases e with
  | ranking f =>
      cases h
      cases f <;> rfl
  | unary f a =>
      cases h
      cases f <;> rfl
  | round a =>
      cases h
      rfl
  | roundTo a p =>
      cases h
      rfl
  | coalesce a rest =>
      cases h
      rfl
  | _ => cases h

/-- The text of a column, or of a literal without quotes. -/
def word? : Expr → Option String
  | column name => some name
  | literal (.str _) => none
  | literal l => some l.text
  | _ => none

theorem word?_eq_some {e : Expr} {w : String} (h : e.word? = some w) :
    e = column w ∨ ∃ l : Literal, (∀ s, l ≠ .str s) ∧ e = literal l ∧ l.text = w := by
  unfold word? at h
  split at h
  · exact .inl (congrArg column (Option.some.inj h))
  · cases h
  · rename_i l hl
    exact .inr ⟨l, hl, rfl, Option.some.inj h⟩
  · cases h

/-- The text of an operand is a word, and more after it that begins with a quote or a
parenthesis. -/
inductive Split : Expr → List Char → List Char → Prop
  | word {e : Expr} {w : String} (h : e.word? = some w) : Split e w.toList []
  | string (s : String) : Split (literal (.str s)) [] ('\'' :: (doubled '\'' s.toList ++ ['\'']))
  | call {e : Expr} {name : String} {args : List Expr} (h : e.called? = some (name, args)) :
      Split e name.toList ('(' :: (commas chars args ++ [')']))
  | group {e : Expr} (h : e.isCompound = true) : Split e [] ('(' :: (e.chars ++ [')']))

theorem operandChars_eq (e : Expr) :
    e.operandChars = if e.isCompound then '(' :: (e.chars ++ [')']) else e.chars := by
  cases h : e.isCompound <;> simp [operandChars, chars, enclose, h]

theorem chars_called {e : Expr} {name : String} {args : List Expr}
    (h : e.called? = some (name, args)) :
    e.chars = name.toList ++ '(' :: (commas chars args ++ [')']) := by
  cases e with
  | coalesce a rest =>
      cases h
      simp [chars, text, commas, ledBy, ScalarFn.name, Restored.toList_listedText]
  | ranking | unary | round | roundTo =>
      cases h
      simp [chars, text, commas, ledBy, ScalarFn.name]
  | _ => cases h

theorem exists_split (e : Expr) :
    ∃ word more, Split e word more ∧ e.operandChars = word ++ more := by
  have hcall {e : Expr} {c : String × List Expr} (h : e.called? = some c)
      (hcompound : e.isCompound = false) :
      ∃ word more, Split e word more ∧ e.operandChars = word ++ more :=
    ⟨_, _, .call h, by rw [operandChars_eq, if_neg (by simp [hcompound]), chars_called h]⟩
  cases e with
  | column name => exact ⟨_, _, .word rfl, by simp [operandChars, enclose, isCompound, text]⟩
  | literal l =>
      cases l with
      | str s =>
          refine ⟨_, _, .string s, ?_⟩
          simp [operandChars, enclose, isCompound, text, Literal.text, quoteString, doubled]
      | _ => exact ⟨_, _, .word rfl, by simp [operandChars, enclose, isCompound, text]⟩
  | ranking | unary | round | roundTo | coalesce => exact hcall rfl rfl
  | _ => exact ⟨_, _, .group rfl, operandChars_eq _⟩

/-- The first operand where an operator or a test follows it; the expression itself elsewhere. -/
def lead : Expr → Expr
  | compare _ a _ | arith _ a _ | junction _ a _ _ | isNull a _ => a
  | e => e

/-- What follows the first operand. -/
def link? : Expr → Option Link
  | compare op _ _ => some (.compare op)
  | arith op _ _ => some (.arith op)
  | junction op _ _ _ => some (.junction op)
  | isNull _ negated => some (.null negated)
  | _ => none

/-- The operands after the first. -/
def others : Expr → List Expr
  | compare _ _ b | arith _ _ b => [b]
  | junction _ _ b rest => b :: rest
  | _ => []

/-- The expression of a first operand with what follows it. -/
def relinked (a : Expr) : Option Link → List Expr → Expr
  | some (.compare op), [b] => compare op a b
  | some (.arith op), [b] => arith op a b
  | some (.junction op), b :: rest => junction op a b rest
  | some (.null negated), _ => isNull a negated
  | _, _ => a

theorem relinked_lead (e : Expr) : relinked e.lead e.link? e.others = e := by
  cases e <;> rfl

/-- The characters after the first operand. -/
def tail (e : Expr) : List Char :=
  match e.link?, e.others with
  | none, _ => []
  | some j, [] => ' ' :: j.gap
  | some j, others => ledBy ' ' j.gap operandChars others

theorem toList_joinedText (op : Junction) (es : List Expr) :
    (joinedText op es).toList = ledBy ' ' (Link.junction op).gap operandChars es := by
  induction es with
  | nil => simp [joinedText, ledBy]
  | cons e es ih => simp [joinedText, ledBy, ih, operandChars, Link.gap]

theorem chars_eq {e : Expr} (h : ∀ a, e ≠ not a) : e.chars = e.lead.operandChars ++ e.tail := by
  cases e with
  | compare op a b => simp [chars, text, lead, tail, link?, others, ledBy, operandChars, Link.gap]
  | arith op a b => simp [chars, text, lead, tail, link?, others, ledBy, operandChars, Link.gap]
  | not a => exact absurd rfl (h a)
  | junction op a b rest =>
      simp [chars, text, lead, tail, link?, others, ledBy, operandChars, Link.gap,
        toList_joinedText]
  | isNull a negated =>
      cases negated <;> simp [chars, text, lead, tail, link?, others, operandChars, Link.gap]
  | _ => simp [chars, lead, tail, link?, operandChars, enclose, isCompound]

theorem chars_not (a : Expr) : (not a).chars = "NOT".toList ++ ' ' :: a.operandChars := by
  simp [chars, text, operandChars]

/-! ### Operands -/

/-- All columns have plain identifiers for names. -/
def Named (e : Expr) : Prop := ∀ c ∈ e.columns, IsIdentifier c

theorem Named.operand {e a : Expr} (h : e.Named) (ha : a ∈ e.operands) : a.Named :=
  fun c hc => h c (columns_subset ha hc)

theorem args_subset {e : Expr} {name : String} {args : List Expr}
    (h : e.called? = some (name, args)) : args ⊆ e.operands := by
  cases e <;> cases h <;> simp [operands]

theorem Named.lead {e : Expr} (h : e.Named) : e.lead.Named := by
  cases e with
  | compare | arith | junction | isNull => exact h.operand (by simp [Expr.lead, operands])
  | _ => exact h

theorem others_subset (e : Expr) : e.others ⊆ e.operands := by
  cases e <;> simp [others, operands]

section Splits

variable {e f : Expr} {word word' more more' r s : List Char}

theorem Split.not_separator (h : Split e word more) (he : e.Named) :
    ∀ c ∈ word, c ∉ separators := by
  have hnames : (callNames.all fun w => w.toList.all fun c => !separators.contains c) = true := by
    decide
  cases h with
  | word h =>
      rcases word?_eq_some h with rfl | ⟨l, hl, rfl, rfl⟩
      · exact (he _ (by simp [columns])).not_separator
      · exact Literal.not_separator hl
  | string s => simp
  | call h => simpa using List.all_eq_true.1 hnames _ (mem_callNames h)
  | group h => simp

/-- What comes after the word begins with a separator, whatever follows it. -/
theorem Split.startsIn (h : Split e word more) (hr : StartsIn [' ', ',', ')'] r) :
    StartsIn separators (more ++ r) := by
  cases h with
  | word h => exact hr.mono (by decide)
  | _ => exact startsIn_cons.2 (by decide)

/-- No operand begins with a closing parenthesis. -/
theorem Split.startsOff (h : Split e word more) (he : e.Named) :
    StartsOff [')'] (word ++ more) := by
  have hcons {cs : List Char} (hne : cs ≠ []) (hfree : ∀ c ∈ cs, c ∉ separators) :
      StartsOff [')'] (cs ++ more) := by
    obtain ⟨c, cs, rfl⟩ := List.exists_cons_of_ne_nil hne
    refine ⟨c, rfl, fun hc => hfree c List.mem_cons_self ?_⟩
    rw [List.mem_singleton.1 hc]
    decide
  have hfree := h.not_separator he
  cases h with
  | @word _ w h =>
      refine hcons ?_ hfree
      rcases word?_eq_some h with rfl | ⟨l, hl, rfl, rfl⟩
      · obtain ⟨c, hc, -⟩ := (he w (by simp [columns])).begins
        exact List.ne_nil_of_mem (List.mem_of_head? hc)
      · exact l.toList_text_ne_nil
  | string s => exact ⟨'\'', rfl, by decide⟩
  | call h =>
      have hnames : "" ∉ callNames := by decide
      refine hcons (fun hnil => hnames ?_) hfree
      rw [← String.toList_eq_nil_iff.1 hnil]
      exact mem_callNames h
  | group h => exact ⟨'(', rfl, by decide⟩

theorem startsOff_operandChars (he : e.Named) : StartsOff [')'] e.operandChars := by
  obtain ⟨word, more, hsplit, heq⟩ := e.exists_split
  rw [heq]
  exact hsplit.startsOff he

theorem startsOff_chars (he : e.Named) : StartsOff [')'] e.chars := by
  by_cases hnot : ∃ a, e = not a
  · obtain ⟨a, rfl⟩ := hnot
    rw [chars_not]
    exact ⟨'N', rfl, by decide⟩
  · rw [chars_eq (not_exists.1 hnot)]
    exact (startsOff_operandChars he.lead).append _

/-- Words are those of one column or literal. -/
theorem word?_injective {w : String} (he : e.Named) (hf : f.Named) (h : e.word? = some w)
    (h' : f.word? = some w) : e = f := by
  rcases word?_eq_some h with rfl | ⟨l, hl, rfl, htext⟩ <;>
    rcases word?_eq_some h' with rfl | ⟨l', hl', rfl, htext'⟩
  · rfl
  · exact absurd htext'.symm ((he w (by simp [columns])).ne_literal hl')
  · exact absurd htext.symm ((hf w (by simp [columns])).ne_literal hl)
  · exact congrArg literal (Literal.text_injective (htext.trans htext'.symm))

/-- What goes on after the same word. -/
theorem Split.append_inj (he : e.Named) (hf : f.Named) (hsplit : Split e word more)
    (hsplit' : Split f word' more') (hword : word = word')
    (hargs : ∀ a ∈ e.operands, ∀ b : Expr, b.Named → TellsApart (StartsIn [',', ')']) chars a b)
    (hgroup : e.isCompound = true → TellsApart (StartsIn [',', ')']) chars e f)
    (hr : StartsIn [' ', ',', ')'] r) (hs : StartsIn [' ', ',', ')'] s)
    (h : more ++ r = more' ++ s) : e = f ∧ r = s := by
  -- the character after the word says what goes on, and only what is called has a name
  have hends {c : Char} {cs r : List Char} (hr : StartsIn [' ', ',', ')'] r)
      (hc : c ∉ [' ', ',', ')']) : r ≠ c :: cs := by
    rintro rfl
    exact hc (startsIn_cons.1 hr)
  have hcalled {name : String} (hname : name ∈ callNames) : name.toList ≠ [] := fun hnil =>
    absurd (String.toList_eq_nil_iff.1 hnil ▸ hname) (by decide)
  cases hsplit with
  | word hw =>
      cases hsplit' with
      | word hw' =>
          rw [String.toList_inj] at hword
          exact ⟨word?_injective he hf hw (hword ▸ hw'), h⟩
      | string t => exact absurd h (hends hr (by decide))
      | call hc => exact absurd h (hends hr (by decide))
      | group hc => exact absurd h (hends hr (by decide))
  | string t =>
      cases hsplit' with
      | word hw => exact absurd h.symm (hends hs (by decide))
      | string t' =>
          rw [List.cons_append, List.cons_append, List.cons.injEq, List.append_assoc,
            List.append_assoc] at h
          obtain ⟨hsame, hrest⟩ := doubled_append_inj (hr.head?_ne (by decide))
            (hs.head?_ne (by decide)) h.2
          exact ⟨by rw [String.toList_inj.1 hsame], hrest⟩
      | call hc => exact absurd (List.cons.inj h).1 (by decide)
      | group hc => exact absurd (List.cons.inj h).1 (by decide)
  | @call _ name args hc =>
      cases hsplit' with
      | word hw => exact absurd h.symm (hends hs (by decide))
      | string t => exact absurd (List.cons.inj h).1 (by decide)
      | @call _ name' args' hc' =>
          rw [String.toList_inj] at hword
          subst hword
          rw [List.cons_append, List.cons_append, List.cons.injEq, List.append_assoc,
            List.append_assoc] at h
          have hfirst : ∀ a ∈ args ++ args', StartsOff [')'] a.chars :=
            List.forall_mem_append.2
              ⟨fun a ha => startsOff_chars (he.operand (args_subset hc ha)),
                fun a ha => startsOff_chars (hf.operand (args_subset hc' ha))⟩
          have hapart := forall_mem_zip fun a ha b hb =>
            hargs a (args_subset hc ha) b (hf.operand (args_subset hc' hb))
          obtain ⟨rfl, rfl⟩ := commas_append_inj (by decide) hfirst hapart h.2
          exact ⟨Option.some.inj ((recalled?_called? hc).symm.trans (recalled?_called? hc')), rfl⟩
      | group hc' => exact absurd hword (hcalled (mem_callNames hc))
  | group hc =>
      cases hsplit' with
      | word hw => exact absurd h.symm (hends hs (by decide))
      | string t => exact absurd (List.cons.inj h).1 (by decide)
      | call hc' => exact absurd hword.symm (hcalled (mem_callNames hc'))
      | group hc' =>
          rw [List.cons_append, List.cons_append, List.cons.injEq, List.append_assoc,
            List.append_assoc] at h
          obtain ⟨hsame, hrest⟩ := hgroup hc (')' :: r) (')' :: s) (by simp) (by simp) h.2
          exact ⟨hsame, (List.cons.inj hrest).2⟩

theorem tellsApart_operandChars (he : e.Named) (hf : f.Named)
    (hargs : ∀ a ∈ e.operands, ∀ b : Expr, b.Named → TellsApart (StartsIn [',', ')']) chars a b)
    (hgroup : e.isCompound = true → TellsApart (StartsIn [',', ')']) chars e f) :
    TellsApart (StartsIn [' ', ',', ')']) operandChars e f := by
  intro r s hr hs h
  obtain ⟨word, more, hsplit, heq⟩ := e.exists_split
  obtain ⟨word', more', hsplit', heq'⟩ := f.exists_split
  rw [heq, heq', List.append_assoc, List.append_assoc] at h
  obtain ⟨hword, hmore⟩ := append_inj_of_startsIn (hsplit.not_separator he)
    (hsplit'.not_separator hf) (hsplit.startsIn hr) (hsplit'.startsIn hs) h
  exact hsplit.append_inj he hf hsplit' hword hargs hgroup hr hs hmore

end Splits

/-! ### Whole expressions -/

section Wholes

variable {e f : Expr} {r s : List Char}

/-- A test for a null has no more operands, an operator has. -/
theorem others_eq_nil_iff {j : Link} (h : e.link? = some j) :
    e.others = [] ↔ ∃ negated, j = .null negated := by
  cases e with
  | compare | arith | junction | isNull =>
      cases h
      simp [others]
  | _ => cases h

theorem startsIn_tail (hr : StartsIn [',', ')'] r) : StartsIn [' ', ',', ')'] (e.tail ++ r) := by
  unfold tail
  split
  · exact hr.mono (by decide)
  · exact startsIn_cons.2 (by decide)
  · exact startsIn_ledBy hr

theorem tail_of_none (h : e.link? = none) : e.tail = [] ∧ e.others = [] := by
  cases e with
  | compare | arith | junction | isNull => cases h
  | _ => exact ⟨rfl, rfl⟩

theorem tail_of_some {j : Link} (h : e.link? = some j) : e.tail = ' ' :: (j.gap ++
    match e.others with
    | [] => []
    | a :: others => a.operandChars ++ ledBy ' ' j.gap operandChars others) := by
  unfold tail
  rw [h]
  cases e.others with
  | nil => simp
  | cons a others => simp [ledBy]

theorem tail_of_cons {j : Link} {a : Expr} {others : List Expr} (h : e.link? = some j)
    (ho : e.others = a :: others) : e.tail = ledBy ' ' j.gap operandChars (a :: others) := by
  unfold tail
  rw [h, ho]

/-- What follows the first operand tells the operator and the other operands. -/
theorem tail_append_inj
    (hothers : ∀ i ∈ e.others.zip f.others,
      TellsApart (StartsIn [' ', ',', ')']) operandChars i.1 i.2)
    (hr : StartsIn [',', ')'] r) (hs : StartsIn [',', ')'] s) (h : e.tail ++ r = f.tail ++ s) :
    e.link? = f.link? ∧ e.others = f.others ∧ r = s := by
  have hend {r cs : List Char} (hr : StartsIn [',', ')'] r) : r ≠ ' ' :: cs := by
    rintro rfl
    exact absurd (startsIn_cons.1 hr) (by decide)
  cases hj : e.link? with
  | none =>
      obtain ⟨htail, hnone⟩ := tail_of_none hj
      cases hk : f.link? with
      | none =>
          obtain ⟨htail', hnone'⟩ := tail_of_none hk
          rw [htail, htail'] at h
          exact ⟨rfl, hnone.trans hnone'.symm, h⟩
      | some k =>
          rw [htail, tail_of_some hk] at h
          exact absurd h (hend hr)
  | some j =>
      cases hk : f.link? with
      | none =>
          rw [(tail_of_none hk).1, tail_of_some hj] at h
          exact absurd h.symm (hend hs)
      | some k =>
          have htail := h
          rw [tail_of_some hj, tail_of_some hk, List.cons_append, List.cons_append,
            List.cons.injEq, List.append_assoc, List.append_assoc] at htail
          obtain ⟨rfl, hmore⟩ := Link.append_inj htail.2
          have hnil := (others_eq_nil_iff hj).trans (others_eq_nil_iff hk).symm
          cases ho : e.others with
          | nil =>
              rw [ho, hnil.1 ho] at hmore
              exact ⟨rfl, (hnil.1 ho).symm, hmore⟩
          | cons a others =>
              cases ho' : f.others with
              | nil =>
                  rw [hnil.2 ho'] at ho
                  cases ho
              | cons b others' =>
                  rw [ho, ho'] at hothers
                  rw [tail_of_cons hj ho, tail_of_cons hk ho'] at h
                  obtain ⟨hsame, hrest⟩ := tellsApart_ledBy (by decide) hothers r s hr hs h
                  exact ⟨rfl, hsame, hrest⟩

/-- No operand is the word that begins a negation. -/
theorem Split.word_ne_not {word more : List Char} (h : Split e word more) (he : e.Named)
    (hmore : more ++ r = ' ' :: s) : word ≠ "NOT".toList := by
  cases h with
  | @word _ w hw =>
      rw [ne_eq, String.toList_inj]
      rcases word?_eq_some hw with rfl | ⟨l, hl, -, rfl⟩
      · rintro rfl
        exact (he "NOT" (by simp [columns])).free (by decide)
      · intro hnot
        rcases l.text_cases with ⟨s, rfl⟩ | hword | ⟨-, hall⟩
        · exact hl s rfl
        · rw [hnot] at hword
          exact absurd hword (by decide)
        · rw [hnot] at hall
          exact absurd (hall 'N' (by simp)) (by decide)
  | _ => exact absurd (List.cons.inj hmore).1 (by decide)

theorem not_append_ne {a : Expr} (hf : f.Named) (hs : StartsIn [',', ')'] s)
    (hnot : ∀ a, f ≠ not a) : (not a).chars ++ r ≠ f.chars ++ s := by
  intro h
  obtain ⟨word, more, hsplit, heq⟩ := f.lead.exists_split
  have hfollow : StartsIn [' ', ',', ')'] (f.tail ++ s) := startsIn_tail hs
  rw [chars_not, chars_eq hnot, heq, List.append_assoc, List.append_assoc, List.append_assoc,
    List.cons_append] at h
  have hfree : ∀ c ∈ "NOT".toList, c ∉ separators := by simp [separators]
  obtain ⟨hword, hmore⟩ := append_inj_of_startsIn hfree (hsplit.not_separator hf.lead)
    (startsIn_cons.2 (by decide)) (hsplit.startsIn hfollow) h
  exact hsplit.word_ne_not hf.lead hmore.symm hword.symm

theorem lead_cases (hnot : ∀ a, e ≠ not a) :
    e.lead ∈ e.operands ∨ e.lead = e ∧ e.isCompound = false := by
  cases e with
  | not a => exact absurd rfl (hnot a)
  | compare | arith | junction | isNull => exact .inl (by simp [lead, operands])
  | _ => exact .inr ⟨rfl, rfl⟩

/-- Negations of operands that are told apart. -/
theorem tellsApart_not {a b : Expr}
    (h : TellsApart (StartsIn [' ', ',', ')']) operandChars a b) :
    TellsApart (StartsIn [',', ')']) chars (not a) (not b) := by
  intro r s hr hs heq
  have hfollow {r : List Char} (hr : StartsIn [',', ')'] r) : StartsIn [' ', ',', ')'] r :=
    hr.mono (List.subset_cons_self _ _)
  rw [chars_not, chars_not, List.append_assoc, List.append_assoc, List.append_cancel_left_eq,
    List.cons_append, List.cons_append, List.cons.injEq] at heq
  obtain ⟨rfl, rfl⟩ := h r s (hfollow hr) (hfollow hs) heq.2
  exact ⟨rfl, rfl⟩

/-- What are no negations are told by their first operands and what follows these. -/
theorem tellsApart_linked (hnot : ∀ a, e ≠ not a) (hnot' : ∀ a, f ≠ not a)
    (hlead : TellsApart (StartsIn [' ', ',', ')']) operandChars e.lead f.lead)
    (hothers : ∀ i ∈ e.others.zip f.others,
      TellsApart (StartsIn [' ', ',', ')']) operandChars i.1 i.2) :
    TellsApart (StartsIn [',', ')']) chars e f := by
  intro r s hr hs h
  rw [chars_eq hnot, chars_eq hnot', List.append_assoc, List.append_assoc] at h
  obtain ⟨hlead, h⟩ := hlead _ _ (startsIn_tail hr) (startsIn_tail hs) h
  obtain ⟨hlink, hothers, rfl⟩ := tail_append_inj hothers hr hs h
  exact ⟨by rw [← e.relinked_lead, hlead, hlink, hothers, f.relinked_lead], rfl⟩

theorem tellsApart_chars (he : e.Named) (hf : f.Named)
    (hoperands : ∀ a ∈ e.operands, ∀ b : Expr, b.Named →
      TellsApart (StartsIn [' ', ',', ')']) operandChars a b)
    (hself : e.isCompound = false → ∀ b : Expr, b.Named →
      TellsApart (StartsIn [' ', ',', ')']) operandChars e b) :
    TellsApart (StartsIn [',', ')']) chars e f := by
  by_cases hnot : ∃ a, e = not a
  · obtain ⟨a, rfl⟩ := hnot
    by_cases hnot' : ∃ b, f = not b
    · obtain ⟨b, rfl⟩ := hnot'
      exact tellsApart_not
        (hoperands a (by simp [operands]) b (hf.operand (by simp [operands])))
    · exact fun r s _ hs h => absurd h (not_append_ne hf hs (not_exists.1 hnot'))
  · by_cases hnot' : ∃ b, f = not b
    · obtain ⟨b, rfl⟩ := hnot'
      exact fun r s hr _ h => absurd h.symm (not_append_ne he hr (not_exists.1 hnot))
    · refine tellsApart_linked (not_exists.1 hnot) (not_exists.1 hnot') ?_
        (forall_mem_zip fun a ha b hb =>
          hoperands a (e.others_subset ha) b (hf.operand (f.others_subset hb)))
      rcases lead_cases (not_exists.1 hnot) with hmem | ⟨hsame, hcompound⟩
      · exact hoperands _ hmem _ hf.lead
      · rw [hsame]
        exact hself hcompound _ hf.lead

end Wholes

/-- The texts of expressions whose columns have plain identifiers tell them apart, alone before a
comma or a closing parenthesis, and as operands also before a blank. -/
structure Apart (e f : Expr) : Prop where
  alone : TellsApart (StartsIn [',', ')']) chars e f
  operand : TellsApart (StartsIn [' ', ',', ')']) operandChars e f

theorem apart {e : Expr} (he : e.Named) {f : Expr} (hf : f.Named) : Apart e f := by
  induction e using induct_operands generalizing f with
  | h e ih =>
      have hargs : ∀ a ∈ e.operands, ∀ b : Expr, b.Named →
          TellsApart (StartsIn [',', ')']) chars a b :=
        fun a ha b hb => (ih a ha (he.operand ha) hb).alone
      have hoperands : ∀ a ∈ e.operands, ∀ b : Expr, b.Named →
          TellsApart (StartsIn [' ', ',', ')']) operandChars a b :=
        fun a ha b hb => (ih a ha (he.operand ha) hb).operand
      cases hcompound : e.isCompound with
      | false =>
          -- the text of an operand is the whole text
          have hself (b : Expr) (hb : b.Named) :
              TellsApart (StartsIn [' ', ',', ')']) operandChars e b :=
            tellsApart_operandChars he hb hargs (by simp [hcompound])
          exact ⟨tellsApart_chars he hf hoperands fun _ => hself, hself f hf⟩
      | true =>
          have hwhole : TellsApart (StartsIn [',', ')']) chars e f :=
            tellsApart_chars he hf hoperands (by simp [hcompound])
          exact ⟨hwhole, tellsApart_operandChars he hf hargs fun _ => hwhole⟩

end Expr

end Tabula
