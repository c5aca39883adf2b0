import Tabula.Proofs.Expr.Reading

/-!
The levels of operators, from tight to loose. Each level finds what the next tighter one finds, if
none of its own operators follows, and joins operands at its operators.
-/

namespace Tabula

open Reader

/-! ### The operators of the levels -/

def powerJoints : Joints := marked [("^", .call "power"), ("**", .call "power")]

def productJoints (g : Grammar) : Joints :=
  either
    (marked [("*", .arith .mul), ("/", .arith .div), ("//", .form "IntDiv"),
      ("<->", .form "Distance")])
    (integerDivision g)

def sumJoints : Joints :=
  either (marked [("+", .arith .add), ("-", .arith .sub), ("%", .form "Mod")])
    (worded "COLLATE" (.call "collate"))

def bitsJoints : Joints :=
  either
    (marked [("&", .form "BitwiseAnd"), ("|", .form "BitwiseOr"), ("||", .form "DPipe"),
      ("??", .coalesce)])
    (either (shift "<" "BitwiseLeftShift") (shift ">" "BitwiseRightShift"))

def comparisonJoints : Joints :=
  marked [("<", .compare (.order .lt)), ("<=", .compare (.order .le)),
    (">", .compare (.order .gt)), (">=", .compare (.order .ge))]

def equalityJoints : Joints :=
  marked [("=", .compare .eq), ("==", .compare .eq), ("<>", .compare .ne), ("!=", .compare .ne),
    ("<=>", .form "NullSafeEQ")]

variable {g : Grammar} {k l : Nat} {ts us rest : List Token} {p q : Phrase}

theorem product_def (g : Grammar) : product g = (do
    match ← power g with
    | some p => do chainFrom (power g) (productJoints g) (some (← goOn (zoned g) p))
    | none => chainFrom (power g) (productJoints g) none) := by
  funext ls
  simp only [product, productJoints, bind_apply]
  cases power g ls with
  | none => rfl
  | some found =>
      obtain ⟨_ | p, next⟩ := found
      · rfl
      · rfl

theorem comparisonFrom_def (g : Grammar) (left : Option Phrase) : comparisonFrom g left = (do
    chainFrom (rangeFrom g none) comparisonJoints (← rangeFrom g left)) := rfl

theorem equalityFrom_def (g : Grammar) (left : Option Phrase) : equalityFrom g left = (do
    chainFrom (comparisonFrom g none) equalityJoints (← comparisonFrom g left)) := rfl

/-! ### What is not found -/

namespace MayFollow

theorem integerDivision (h : MayFollow 7 rest) (g : Grammar) :
    Tabula.integerDivision g (lexed rest) = some (none, lexed rest) := by
  have hword := h.word (w := "DIV") rfl
  rcases rest with _ | ⟨t, tail⟩
  · rfl
  · cases t with
    | word w => simp [Tabula.integerDivision, hword]
    | _ => rfl

theorem powerJoints (h : MayFollow 7 rest) :
    Tabula.powerJoints (lexed rest) = some (none, lexed rest) := h.marked rfl

theorem productJoints (h : MayFollow 6 rest) (g : Grammar) :
    Tabula.productJoints g (lexed rest) = some (none, lexed rest) := by
  rw [Tabula.productJoints, either_of_none (h.marked rfl), (h.mono (by decide)).integerDivision]

theorem worded (h : MayFollow k rest) {w : String} (hw : isStopWord k w = false) (j : Joint) :
    Tabula.worded w j (lexed rest) = some (none, lexed rest) := by
  simp [Tabula.worded, h.word hw]

theorem sumJoints (h : MayFollow 5 rest) :
    Tabula.sumJoints (lexed rest) = some (none, lexed rest) := by
  rw [Tabula.sumJoints, either_of_none (h.marked rfl), h.worded rfl]

theorem shift (h : MayFollow k rest) {m : String} (hm : m ∈ ["<", ">"]) (name : String) :
    Tabula.shift m name (lexed rest) = some (none, lexed rest) := by
  by_cases hhead : rest.head? = some (.mark m)
  · simp [Tabula.shift, hhead, h.unshifted m hm hhead]
  · simp [Tabula.shift, hhead]

theorem bitsJoints (h : MayFollow 5 rest) :
    Tabula.bitsJoints (lexed rest) = some (none, lexed rest) := by
  rw [Tabula.bitsJoints, either_of_none (h.marked rfl), either_of_none (h.shift (by simp) _),
    h.shift (by simp)]

theorem comparisonJoints (h : MayFollow 4 rest) :
    Tabula.comparisonJoints (lexed rest) = some (none, lexed rest) := h.marked rfl

theorem equalityJoints (h : MayFollow 3 rest) :
    Tabula.equalityJoints (lexed rest) = some (none, lexed rest) := h.marked rfl

theorem zoned (h : MayFollow 7 rest) (g : Grammar) (p : Phrase) :
    goOn (Tabula.zoned g) p (lexed rest) = some (p, lexed rest) := by
  have hwords : Reader.words ["AT", "TIME", "ZONE"] (lexed rest) = some (false, lexed rest) :=
    h.words rfl
  exact goOn_of_none (by simp [Tabula.zoned, hwords])

theorem rangeOperator (h : MayFollow 5 rest) (g : Grammar) (p : Phrase) :
    Tabula.rangeOperator g p (lexed rest) = some (none, lexed rest) := by
  have hmarks : Tabula.marked rangeMarks (lexed rest) = some (none, lexed rest) := h.marked rfl
  have hwords : rangeWords.lookup (headKey rest) = none := h.lookup_headKey rfl
  simp [Tabula.rangeOperator, hmarks, hwords]

theorem rangeStep (h : MayFollow 5 rest) (g : Grammar) (p : Phrase) :
    Tabula.rangeStep g p (lexed rest) = some (none, lexed rest) := by
  have hbetween : between g (lexed rest) = some (none, lexed rest) := by
    simp [between, h.word (w := "BETWEEN") rfl]
  have hmembership : membership g (lexed rest) = some (none, lexed rest) := by
    simp [membership, h.word (w := "IN") rfl]
  have hcomprehension : comprehension g (lexed rest) = some (none, lexed rest) := by
    simp [comprehension, h.word (w := "FOR") rfl]
  rw [Tabula.rangeStep, either_of_none (h.rangeOperator g p), either_of_none hbetween,
    either_of_none hmembership, either_of_none hcomprehension]
  simp [writtenOperator, h.word (w := "OPERATOR") rfl]

theorem rangeTail (h : MayFollow 5 rest) (g : Grammar) (p : Phrase) :
    Tabula.rangeTail g p (lexed rest) = some (none, lexed rest) := by
  simp [Tabula.rangeTail, h.word (w := "NOT") rfl, h.rangeStep g p]

theorem testTail (h : MayFollow 2 rest) (g : Grammar) (suffix : Phrase → Reader Phrase)
    (p : Phrase) : Tabula.testTail g suffix p (lexed rest) = some (none, lexed rest) := by
  have htest : isTest g suffix p (lexed rest) = some (none, lexed rest) := by
    simp [isTest, h.word (w := "IS") rfl]
  have hnot : Reader.words ["NOT", "NULL"] (lexed rest) = some (false, lexed rest) := h.words rfl
  have hnull : nullTest p (lexed rest) = some (none, lexed rest) := by
    simp [nullTest, h.word (w := "ISNULL") rfl, h.word (w := "NOTNULL") rfl, hnot]
  simp [Tabula.testTail, either_of_none htest, hnull]

/-! What may follow an operand does not change it. -/

theorem bracketed (h : MayFollow 7 rest) (g : Grammar) (p : Option Phrase) :
    Tabula.bracketed g p (lexed rest) = some (none, lexed rest) := by
  simp [Tabula.bracketed, h.mark (m := "\x7b") rfl, h.mark (m := "[") rfl]

theorem brackets (h : MayFollow 7 rest) (g : Grammar) (p : Phrase) :
    Tabula.brackets g p (lexed rest) = some (p, lexed rest) :=
  goOn_of_none (h.bracketed g (some p))

theorem suffixStep (h : MayFollow 7 rest) (g : Grammar) (p : Phrase) :
    Tabula.suffixStep g p (lexed rest) = some (none, lexed rest) := by
  rcases rest with _ | ⟨t, tail⟩
  · rfl
  · cases t with
    | mark m =>
        have hpoint : m ≠ "." := fun heq => h.head?_ne (m := ".") rfl (by rw [heq]; rfl)
        have hcolons : m ≠ "::" := fun heq => h.head?_ne (m := "::") rfl (by rw [heq]; rfl)
        have hlookup : lookUps.lookup m = none := h.lookup_mark rfl
        simp [Tabula.suffixStep, hpoint, hcolons, hlookup]
    | _ => rfl

theorem suffixes (h : MayFollow 7 rest) (g : Grammar) (p : Phrase) :
    Tabula.suffixes g p (lexed rest) = some (p, lexed rest) := by
  simp [Tabula.suffixes, h.brackets g p, goOn_of_none (h.suffixStep g p)]

theorem rangeFrom (h : MayFollow 5 rest) (g : Grammar) (p : Phrase) :
    Tabula.rangeFrom g (some p) (lexed rest) = some (some p, lexed rest) := by
  simp [Tabula.rangeFrom, h.rangeTail g p]

theorem comparisonFrom (h : MayFollow 4 rest) (g : Grammar) (p : Phrase) :
    Tabula.comparisonFrom g (some p) (lexed rest) = some (some p, lexed rest) := by
  simp [comparisonFrom_def, (h.mono (by decide : 4 ≤ 5)).rangeFrom g p,
    chainFrom_of_none h.comparisonJoints]

theorem equalityFrom (h : MayFollow 3 rest) (g : Grammar) (p : Phrase) :
    Tabula.equalityFrom g (some p) (lexed rest) = some (some p, lexed rest) := by
  simp [equalityFrom_def, (h.mono (by decide : 3 ≤ 4)).comparisonFrom g p,
    chainFrom_of_none h.equalityJoints]

end MayFollow

/-! ### What is passed on -/

theorem finds_power (h : Finds k (g .signed) ts p) (hk : k ≤ 7) : Finds k (power g) ts p :=
  h.chain (Nat.le_refl k) fun _ hrest => (hrest.mono hk).powerJoints

theorem finds_product (h : Finds k (power g) ts p) (hlk : l ≤ k) (hl : l ≤ 6) :
    Finds l (product g) ts p := by
  intro rest hrest
  have hzoned := (hrest.mono (Nat.le_trans hl (by decide))).zoned g p
  simp [product_def, h rest (hrest.mono hlk), hzoned,
    chainFrom_of_none ((hrest.mono hl).productJoints g)]

theorem finds_sum (h : Finds k (product g) ts p) (hlk : l ≤ k) (hl : l ≤ 5) :
    Finds l (sum g) ts p :=
  h.chain hlk fun _ hrest => (hrest.mono hl).sumJoints

theorem finds_bits (h : Finds k (sum g) ts p) (hk : k ≤ 5) : Finds k (bits g) ts p :=
  h.chain (Nat.le_refl k) fun _ hrest => (hrest.mono hk).bitsJoints

theorem finds_range (h : Finds k (g .bits) ts p) (hk : k ≤ 5) :
    Finds k (rangeFrom g none) ts p := by
  intro rest hrest
  simp [rangeFrom, h rest hrest, (hrest.mono hk).rangeTail g p]

theorem finds_comparison (h : Finds k (rangeFrom g none) ts p) (hlk : l ≤ k) (hl : l ≤ 4) :
    Finds l (comparisonFrom g none) ts p :=
  h.chain hlk fun _ hrest => (hrest.mono hl).comparisonJoints

theorem finds_equality (h : Finds k (comparisonFrom g none) ts p) (hlk : l ≤ k) (hl : l ≤ 3) :
    Finds l (equalityFrom g none) ts p :=
  h.chain hlk fun _ hrest => (hrest.mono hl).equalityJoints

theorem finds_condition (h : Finds k (equalityFrom g none) ts p) (hlk : l ≤ k) (hl : l ≤ 2)
    (suffix : Phrase → Reader Phrase) : Finds l (conditionRule g suffix) ts p := by
  intro rest hrest
  simp [conditionRule, h rest (hrest.mono hlk), goOn_of_none ((hrest.mono hl).testTail g suffix p)]

/-- AND passes on a condition that none follows. -/
theorem finds_conjunction (h : Finds k (g .condition) ts p) (hlk : l ≤ k) (hl : l ≤ 1) :
    Finds l (chain (g .condition) (worded "AND" (.junction .and))) ts p :=
  h.chain hlk fun _ hrest => (hrest.mono hl).worded rfl _

theorem finds_disjunction (h : Finds k (g .condition) ts p) :
    Finds 0 (disjunctionRule g) ts p :=
  (finds_conjunction h (Nat.zero_le k) (Nat.zero_le 1)).chain (Nat.le_refl 0)
    fun _ hrest => hrest.worded rfl _

/-! ### What is joined -/

section Joined

theorem marked_of_lookup {table : List (String × Joint)} {m : String} {j : Joint}
    (h : table.lookup m = some j) (rest : List Token) :
    marked table (lexed (.mark m :: rest)) = some (some j, lexed rest) := by
  simp [marked, h]

theorem finds_product_joined (h : Finds 7 (power g) ts p) (h' : Finds 7 (power g) us q)
    (hus : IsOperand us) {op : ArithOp} (hop : op = .mul ∨ op = .div) :
    Finds 0 (product g) (ts ++ .mark op.symbol :: us) (.arith op p q) := by
  intro rest hrest
  have hnext : MayFollow 7 (.mark op.symbol :: (us ++ rest)) :=
    .of_mark (by rcases hop with rfl | rfl <;> decide) hus hrest
  have hjoint (vs : List Token) : productJoints g (lexed (.mark op.symbol :: vs)) =
      some (some (Joint.both (.arith op)), lexed vs) :=
    either_of_some (marked_of_lookup (by rcases hop with rfl | rfl <;> rfl) vs)
  have hjoints := (hrest.mono (Nat.zero_le 6)).productJoints g
  have hchain := chainFrom_join (p := p) h' hjoint hjoints (hrest.mono (Nat.zero_le 7)) hnext
  simp [product_def, List.append_assoc, h _ hnext, hnext.zoned g p, hchain]

/-- A level that is a chain joins two operands at a mark of its own. -/
theorem Finds.joined {operand : Reader (Option Phrase)} {joints : Joints} {m : String}
    {f : Phrase → Phrase → Phrase} (h : Finds k operand ts p) (h' : Finds k operand us q)
    (hus : IsOperand us) (hm : (k, m) ∈ stopMarks)
    (hjoint : ∀ vs, joints (lexed (.mark m :: vs)) = some (some (Joint.both f), lexed vs))
    (hjoints : ∀ rest, MayFollow 0 rest → joints (lexed rest) = some (none, lexed rest)) :
    Finds 0 (Tabula.chain operand joints) (ts ++ .mark m :: us) (f p q) := by
  intro rest hrest
  have hnext : MayFollow k (.mark m :: (us ++ rest)) := .of_mark hm hus hrest
  have hend : MayFollow k rest := hrest.mono (Nat.zero_le k)
  have hchain := chainFrom_join (p := p) h' hjoint (hjoints rest hrest) hend hnext
  simp [Tabula.chain, List.append_assoc, h _ hnext, hchain]

theorem finds_sum_joined (h : Finds 6 (product g) ts p) (h' : Finds 6 (product g) us q)
    (hus : IsOperand us) {op : ArithOp} (hop : op = .add ∨ op = .sub) :
    Finds 0 (sum g) (ts ++ .mark op.symbol :: us) (.arith op p q) := by
  refine h.joined h' hus ?_ (fun vs => either_of_some (marked_of_lookup ?_ vs)) fun _ hrest =>
    (hrest.mono (Nat.zero_le 5)).sumJoints
  · rcases hop with rfl | rfl <;> decide
  · rcases hop with rfl | rfl <;> rfl

theorem finds_comparison_joined (h : Finds 5 (rangeFrom g none) ts p)
    (h' : Finds 5 (rangeFrom g none) us q) (hus : IsOperand us) (o : Order) :
    Finds 0 (comparisonFrom g none) (ts ++ .mark o.symbol :: us) (.compare (.order o) p q) := by
  refine h.joined h' hus ?_ (marked_of_lookup ?_) fun _ hrest =>
    (hrest.mono (Nat.zero_le 4)).comparisonJoints
  · cases o <;> decide
  · cases o <;> rfl

/-- The marks of equality and of inequality. -/
def equalityMarks : List (String × CompareOp) := [("=", .eq), ("!=", .ne), ("<>", .ne)]

theorem finds_equality_joined (h : Finds 4 (comparisonFrom g none) ts p)
    (h' : Finds 4 (comparisonFrom g none) us q) (hus : IsOperand us) {m : String} {op : CompareOp}
    (hop : (m, op) ∈ equalityMarks) :
    Finds 0 (equalityFrom g none) (ts ++ .mark m :: us) (.compare op p q) := by
  simp only [equalityMarks, List.mem_cons, Prod.mk.injEq, List.not_mem_nil, or_false] at hop
  refine h.joined h' hus ?_ (marked_of_lookup ?_) fun _ hrest =>
    (hrest.mono (Nat.zero_le 3)).equalityJoints
  · rcases hop with ⟨rfl, -⟩ | ⟨rfl, -⟩ | ⟨rfl, -⟩ <;> decide
  · rcases hop with ⟨rfl, rfl⟩ | ⟨rfl, rfl⟩ | ⟨rfl, rfl⟩ <;> rfl

end Joined

/-! ### Tests for a null -/

theorem headKey_of_mem : ∀ w ∈ ["AND", "OR", "IS", "NOT", "NULL"], headKey [.word w] = w := by
  decide +kernel

theorem headKey_word {w : String} (hw : w ∈ ["AND", "OR", "IS", "NOT", "NULL"])
    (rest : List Token) : headKey (.word w :: rest) = w :=
  headKey_of_mem w hw

/-- The tokens of a test for a null, with or without a NOT in it. -/
def nullTokens (negated : Bool) : List Token :=
  .word "IS" :: (if negated then [.word "NOT", .word "NULL"] else [.word "NULL"])

/-- What a test for a null says. -/
def Phrase.nullTested (negated : Bool) (p : Phrase) : Phrase :=
  if negated then .not (.isNull p) else .isNull p

theorem usual_nullTokens (negated : Bool) : ∀ t ∈ nullTokens negated, t.Usual := by
  cases negated <;> decide

theorem testedFor_null (g : Grammar) (p : Phrase) (rest : List Token) :
    testedFor g p (lexed (.word "NULL" :: rest)) = some (some (.isNull p), lexed rest) := by
  have hone : oneOf ["NULL", "UNKNOWN"] (lexed (.word "NULL" :: rest)) = some (true, lexed rest) :=
    oneOf_of_mem (by simp [headKey_word])
  simp [testedFor, hone]

theorem isTest_null (hrest : MayFollow 0 rest) (negated : Bool) :
    isTest g (suffixes g) p (lexed (nullTokens negated ++ rest)) =
      some (some (p.nullTested negated), lexed rest) := by
  have hsuffix (q : Phrase) := (hrest.mono (Nat.zero_le 7)).suffixes g q
  have hword {w : String} (hw : w ∈ ["AND", "OR", "IS", "NOT", "NULL"]) (ts : List Token) :
      Reader.word w (lexed (.word w :: ts)) = some (true, lexed ts) :=
    word_of_eq (headKey_word hw ts)
  have hnot : Reader.word "NOT" (lexed (.word "NULL" :: rest)) =
      some (false, lexed (.word "NULL" :: rest)) := word_of_ne (by simp [headKey_word])
  have hwords : words ["DISTINCT", "FROM"] (lexed (.word "NULL" :: rest)) =
      some (false, lexed (.word "NULL" :: rest)) := words_of_ne (by simp [headKey_word])
  cases negated <;>
    simp [nullTokens, Phrase.nullTested, isTest, hword, hnot, hwords, testedFor_null, hsuffix]

theorem finds_isNull (h : Finds 3 (equalityFrom g none) ts p) (negated : Bool) :
    Finds 0 (conditionRule g (suffixes g)) (ts ++ nullTokens negated) (p.nullTested negated) := by
  intro rest hrest
  have husual : ∀ t ∈ nullTokens negated ++ rest, t.Usual :=
    List.forall_mem_append.2 ⟨usual_nullTokens negated, hrest.usual⟩
  have hnext : MayFollow 3 (nullTokens negated ++ rest) :=
    .of_word (s := (3, "IS")) (by decide) (Nat.le_refl 3) (List.forall_mem_cons.1 husual).2
  have htest : testTail g (suffixes g) p (lexed (nullTokens negated ++ rest)) =
      some (some (p.nullTested negated), lexed rest) := by
    simp [testTail, either_of_some (isTest_null hrest negated),
      (hrest.mono (Nat.zero_le 3)).equalityFrom]
  have hend := (hrest.mono (Nat.zero_le 2)).testTail g (suffixes g) (p.nullTested negated)
  have hgo : goOn (testTail g (suffixes g)) p (lexed (nullTokens negated ++ rest)) =
      some (p.nullTested negated, lexed rest) :=
    goOn_of_some (by simp [nullTokens, lexed]) htest hend
  rw [List.append_assoc]
  simp [conditionRule, h _ hnext, hgo]

/-! ### Conditions joined by words -/

section Junction

variable {items : List (List Token × Phrase)}

theorem worded_self {w : String} (hw : w ∈ ["AND", "OR", "IS", "NOT", "NULL"]) (j : Joint)
    (rest : List Token) : worded w j (lexed (.word w :: rest)) = some (some j, lexed rest) := by
  have hword : Reader.word w (lexed (.word w :: rest)) = some (true, lexed rest) :=
    word_of_eq (headKey_word hw rest)
  simp [worded, hword]

theorem mayFollow_joined {s : Nat × String} (hs : s ∈ stopWords)
    (husual : ∀ i ∈ items, ∀ t ∈ i.1, t.Usual) (hrest : MayFollow 0 rest) :
    MayFollow s.1 (joined (.word s.2) items ++ rest) := by
  cases items with
  | nil => exact hrest.mono (Nat.zero_le s.1)
  | cons i items =>
      have hjoined := usual_joined (usual_stopWord s) husual
      rw [joined_cons] at hjoined ⊢
      refine .of_word hs (Nat.le_refl s.1) ?_
      exact List.forall_mem_append.2 ⟨(List.forall_mem_cons.1 hjoined).2, hrest.usual⟩

/-- A level that joins by a connective joins its operands from left to right. -/
theorem finds_chain_worded {operand : Reader (Option Phrase)} (op : Junction)
    (hs : (k, op.symbol) ∈ stopWords) (h : Finds k operand ts p)
    (hitems : ∀ i ∈ items, Finds k operand i.1 i.2) (husual : ∀ i ∈ items, ∀ t ∈ i.1, t.Usual) :
    Finds 0 (chain operand (worded op.symbol (.junction op)))
      (ts ++ joined (.word op.symbol) items)
      (items.foldl (fun left i => .junction op left i.2) p) := by
  intro rest hrest
  have hword : op.symbol ∈ ["AND", "OR", "IS", "NOT", "NULL"] := by cases op <;> decide
  have hnone : worded op.symbol (.junction op) (lexed rest) = some (none, lexed rest) :=
    hrest.worded (by cases op <;> rfl) _
  have hchain := chainFrom_joined (p := p) hitems (fun vs => worded_self hword (.junction op) vs)
    hnone fun done left heq => mayFollow_joined hs (fun i hi => husual i (by simp [heq, hi])) hrest
  rw [List.append_assoc]
  simp [chain, h _ (mayFollow_joined hs husual hrest), hchain]

/-- Conditions joined by one connective, from left to right. -/
theorem finds_junction (op : Junction) (h : Finds 2 (g .condition) ts p)
    (hitems : ∀ i ∈ items, Finds 2 (g .condition) i.1 i.2)
    (husual : ∀ i ∈ items, ∀ t ∈ i.1, t.Usual) :
    Finds 0 (disjunctionRule g) (ts ++ joined (.word op.symbol) items)
      (items.foldl (fun left i => .junction op left i.2) p) := by
  have hpass {ts : List Token} {p : Phrase} (h : Finds 2 (g .condition) ts p) :=
    finds_conjunction h (by decide : 1 ≤ 2) (Nat.le_refl 1)
  cases op with
  | and =>
      refine Finds.chain ?_ (Nat.le_refl 0) fun _ hrest => hrest.worded rfl _
      exact finds_chain_worded .and (by decide) h hitems husual
  | or =>
      exact finds_chain_worded .or (by decide) (hpass h) (fun i hi => hpass (hitems i hi)) husual

end Junction

end Tabula
