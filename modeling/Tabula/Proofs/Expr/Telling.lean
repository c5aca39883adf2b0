import Tabula.Proofs.Expr.Spelling

/-!
Texts that tell expressions: what a text spells is read as a phrase that says the expression.
Operands and whole expressions are told by texts that are put together from texts of their parts.
-/

namespace Tabula

variable {cs ds : List Char} {e l r : Expr} {text : String}

/-- The text ends in a character that is not blank. -/
def EndsVisibly (cs : List Char) : Prop := ∃ c, cs.getLast? = some c ∧ Text.isBlank c = false

theorem EndsVisibly.append (h : EndsVisibly ds) (cs : List Char) : EndsVisibly (cs ++ ds) := by
  obtain ⟨c, hlast, hc⟩ := h
  exact ⟨c, by rw [List.getLast?_append, hlast]; rfl, hc⟩

theorem endsVisibly_concat {c : Char} (hc : Text.isBlank c = false) (cs : List Char) :
    EndsVisibly (cs ++ [c]) := ⟨c, List.getLast?_concat, hc⟩

/-- The phrase says the expression, whatever text it was read from. -/
def Phrase.Says (p : Phrase) (e : Expr) : Prop := ∀ text, p.toExpr text = .ok e

attribute [local simp] Phrase.toExpr Phrase.toExprs

/-- The characters spell tokens that are read, as `R` says, as a phrase that says the expression. -/
structure Tells (R : List Token → Phrase → Prop) (cs : List Char) (e : Expr) : Prop where
  reads : ∃ ts p, Spells cs ts ∧ R ts p ∧ p.Says e
  visible : EndsVisibly cs

theorem Phrase.Says.not_form {p : Phrase} (h : p.Says e) (name : String) : p ≠ .form name := by
  rintro rfl
  simpa using h ""

/-- A text that tells an expression is parsed as it. -/
theorem Tells.parse (h : Tells Whole text.toList e) (position : Option Int) :
    Expr.parse text position = .ok e := by
  obtain ⟨⟨ts, p, hspells, hwhole, hsays⟩, c, hlast, hc⟩ := h
  have hmark : ∀ t ∈ ts, t ≠ .mark ";" := fun t ht => (hwhole.opens.usual t ht).2.2.2.2
  have hread : Phrase.read? text = some p := by
    simp [Phrase.read?, hspells.scan hmark, statements_lexed hmark,
      hwhole.ofLexemes? hsays.not_form]
  have hblank : Text.allBlank text = false := by
    rw [Text.allBlank, List.all_eq_false]
    exact ⟨c, List.mem_of_getLast? hlast, by simp [hc]⟩
  simp [Expr.parse, hblank, hread, hsays text, Except.mapError]

namespace Tells

/-! ### Parts and wholes -/

theorem whole (h : Tells Operand cs e) : Tells Whole cs e := by
  obtain ⟨⟨ts, p, hspells, hoperand, hsays⟩, hvisible⟩ := h
  exact ⟨⟨ts, p, hspells, hoperand.whole, hsays⟩, hvisible⟩

theorem paren (h : Tells Whole cs e) : Tells Operand ('(' :: (cs ++ [')'])) e := by
  obtain ⟨⟨ts, p, hspells, hwhole, hsays⟩, -⟩ := h
  refine ⟨⟨_, _, hspells.parens, hwhole.paren hsays.not_form, fun text => ?_⟩,
    endsVisibly_concat (by decide) ('(' :: cs)⟩
  simpa using hsays text

/-! ### Columns and literals -/

theorem quotedColumn (name : String) :
    Tells Operand ('"' :: (doubled '"' name.toList ++ ['"'])) (.column name) :=
  ⟨⟨_, _, .of_scans (scans_quoted (.inr rfl) name), .quotedName name, fun _ => rfl⟩,
    endsVisibly_concat (by decide) ('"' :: doubled '"' name.toList)⟩

theorem bareColumn {name : String} (hword : isOneWord name = true)
    (hfree : (Token.word name).isFree = true) (hown : Text.upper name ∉ ownWords)
    (hvisible : EndsVisibly name.toList) : Tells Operand name.toList (.column name) :=
  ⟨⟨_, _, .of_scans (scans_word hword), .bareName hfree hown, fun _ => rfl⟩, hvisible⟩

theorem string (s : String) :
    Tells Operand ('\'' :: (doubled '\'' s.toList ++ ['\''])) (.literal (.str s)) :=
  ⟨⟨_, _, .of_scans (scans_quoted (.inl rfl) s), .string s, fun _ => by simp⟩,
    endsVisibly_concat (by decide) ('\'' :: doubled '\'' s.toList)⟩

theorem null : Tells Operand "NULL".toList (.literal .null) :=
  ⟨⟨_, _, .of_scans (scans_word (by decide)), .null, fun _ => by simp⟩,
    endsVisibly_concat (by decide) ['N', 'U', 'L']⟩

theorem bool (b : Bool) : Tells Operand (boolWord b).toList (.literal (.bool b)) := by
  refine ⟨⟨_, _, .of_scans (scans_word ?_), .bool b, fun _ => by simp⟩, ?_⟩
  · cases b <;> decide
  · cases b with
    | false => exact endsVisibly_concat (by decide) ['F', 'A', 'L', 'S']
    | true => exact endsVisibly_concat (by decide) ['T', 'R', 'U']

end Tells

/-! ### Numerals -/

/-- The text is scanned as one number, which reads as the literal. -/
structure IsNumeral (numeral : String) (l : Literal) : Prop where
  scans : Scans numeral.toList [.token (.number numeral)]
  begins : ∃ c cs, numeral.toList = c :: cs ∧ c.isDigit = true
  ends : EndsVisibly numeral.toList
  value : ∀ text, Phrase.numeral text numeral = .ok l

theorem Tells.numeral {n : String} {l : Literal} (h : IsNumeral n l) :
    Tells Operand n.toList (.literal l) :=
  ⟨⟨_, _, .of_scans h.scans, .number n, fun text => by rw [Phrase.toExpr, h.value text]; rfl⟩,
    h.ends⟩

/-- A numeral after a minus. -/
theorem Tells.minus {n : String} {l : Literal} (h : IsNumeral n l)
    (hneg : ∀ text, Phrase.negative text (.literal l) = .ok e) :
    Tells Operand ('-' :: n.toList) e := by
  obtain ⟨c, cs, hn, hc⟩ := h.begins
  have hscans := h.scans
  rw [hn] at hscans
  have hspells : Spells ('-' :: n.toList) [.mark "-", .number n] := by
    rw [hn]
    refine ⟨⟨_, hscans.minus hc, rfl⟩, ?_⟩
    exact List.isChain_pair.2 ((lone_mark "-").apart_left _)
  refine ⟨⟨_, _, hspells, .minus n, fun text => ?_⟩, h.ends.append ['-']⟩
  rw [Phrase.toExpr, Phrase.toExpr, h.value text]
  exact hneg text

theorem isBlank_digit {c : Char} (h : c.isDigit = true) : Text.isBlank c = false := by
  have hcode : 48 ≤ c.toNat ∧ c.toNat ≤ 57 := by
    simpa [Char.isDigit, UInt32.le_iff_toNat_le] using h
  simp [Text.isBlank, Text.covered, Text.blankRanges]
  omega

theorem endsVisibly_of_digits (hne : cs ≠ []) (h : ∀ c ∈ cs, c.isDigit = true) :
    EndsVisibly cs := by
  refine ⟨cs.getLast hne, List.getLast?_eq_some_getLast hne, isBlank_digit (h _ ?_)⟩
  exact List.getLast_mem hne

theorem plainDigits?_of_digits (hne : cs ≠ []) (h : ∀ c ∈ cs, c.isDigit = true) :
    Number.plainDigits? cs = some cs := by
  induction cs with
  | nil => exact absurd rfl hne
  | cons c cs ih =>
      rw [List.forall_mem_cons] at h
      cases cs with
      | nil => simp [Number.plainDigits?, h.1]
      | cons d cs =>
          have hrest := ih (List.cons_ne_nil d cs) h.2
          have hline : d ≠ '_' := by
            rintro rfl
            exact absurd (h.2 '_' List.mem_cons_self) (by decide)
          unfold Number.plainDigits?
          split
          · simp_all
          · simp_all
          · simp_all
          · simp_all

theorem isNumeral_nat {n : Nat} (h : Number.digitCount n ≤ Number.maxIntegerDigits) :
    IsNumeral (toString n) (.int n) := by
  have hchars : (toString n).toList = Nat.toDigits 10 n := by
    rw [Nat.toString_eq_ofList_toDigits, String.toList_ofList]
  have hdigits : ∀ c ∈ Nat.toDigits 10 n, c.isDigit = true := fun c hc =>
    Nat.isDigit_of_mem_toDigits (by decide) (by decide) hc
  obtain ⟨c, cs, hcs⟩ := List.exists_cons_of_ne_nil (Nat.toDigits_ne_nil (n := n) (b := 10))
  have hfeed : (Scan.gap false).feed (toString n).toList =
      ([], .number (toString n).toList.reverse false 0) := by
    rw [hcs, List.forall_mem_cons] at hdigits
    rw [hchars, hcs, Scan.feed, Scan.step, begin_digit hdigits.1]
    simp [feed_digits [c] false 0 hdigits.2]
  refine ⟨?_, ⟨c, cs, by rw [hchars, hcs], hdigits c (by simp [hcs])⟩, ?_, fun text => ?_⟩
  · have hscans := scans_number hfeed
    rwa [Scan.ofBack, List.reverse_reverse, String.ofList_toList] at hscans
  · rw [hchars]
    exact endsVisibly_of_digits Nat.toDigits_ne_nil hdigits
  · have hread : Number.readNat? (toString n).toList = some n := by
      rw [hchars, Number.readNat?, plainDigits?_of_digits Nat.toDigits_ne_nil hdigits]
      have hvalue : Number.digitsFrom 0 (Nat.toDigits 10 n) = n := Nat.ofDigitChars_ten_toDigits
      have hlength : (Nat.toDigits 10 n).length ≤ Number.maxIntegerDigits := h
      simp [hvalue, hlength]
    rw [Phrase.numeral, hread]

theorem Tells.int {n : Int} (h : Number.digitCount n.natAbs ≤ Number.maxIntegerDigits) :
    Tells Operand (toString n).toList (.literal (.int n)) := by
  have hnumeral := isNumeral_nat h
  cases n with
  | ofNat n => exact .numeral hnumeral
  | negSucc n =>
      have htext : (toString (Int.negSucc n)).toList = '-' :: (toString (n + 1)).toList :=
        String.toList_append
      rw [htext]
      exact .minus hnumeral fun text => rfl

/-! ### Operators -/

namespace Tells

/-- Two operands with the mark of an operator between them. -/
theorem joined (hl : Tells Operand cs l) (hr : Tells Operand ds r) {m : String}
    (hm : m ∈ operatorMarks) {join : Phrase → Phrase → Phrase}
    (hreads : ∀ {ts us p q}, Operand ts p → Operand us q → Whole (ts ++ .mark m :: us) (join p q))
    (htells : ∀ {p q}, p.Says l → q.Says r → (join p q).Says e) :
    Tells Whole (cs ++ (' ' :: (m.toList ++ [' ']) ++ ds)) e := by
  obtain ⟨⟨ts, p, hts, hp, hl⟩, -⟩ := hl
  obtain ⟨⟨us, q, hus, hq, hr⟩, hvisible⟩ := hr
  exact ⟨⟨_, _, hts.separated (separates_operator hm) hus, hreads hp hq, htells hl hr⟩,
    (hvisible.append _).append cs⟩

theorem arith (hl : Tells Operand cs l) (hr : Tells Operand ds r) (op : ArithOp) :
    Tells Whole (cs ++ (' ' :: (op.symbol.toList ++ [' ']) ++ ds)) (.arith op l r) := by
  have hm : op.symbol ∈ operatorMarks := by cases op <;> decide
  refine hl.joined hr hm (fun hp hq => hp.arith hq op) fun hl hr text => ?_
  rw [Phrase.toExpr, hl text, hr text]
  rfl

theorem compare (hl : Tells Operand cs l) (hr : Tells Operand ds r) {m : String} {op : CompareOp}
    (hm : m = op.symbol ∨ m = "<>" ∧ op = .ne) :
    Tells Whole (cs ++ (' ' :: (m.toList ++ [' ']) ++ ds)) (.compare op l r) := by
  have hmark : (m, op) ∈ equalityMarks ∨ ∃ o : Order, m = o.symbol ∧ op = .order o := by
    rcases hm with rfl | ⟨rfl, rfl⟩
    · rcases op with _ | _ | o
      · exact .inl (by decide)
      · exact .inl (by decide)
      · exact .inr ⟨o, rfl, rfl⟩
    · exact .inl (by decide)
  have hoperator : m ∈ operatorMarks := by
    rcases hmark with hmark | ⟨o, rfl, -⟩
    · have hall : ∀ i ∈ equalityMarks, i.1 ∈ operatorMarks := by decide
      exact hall _ hmark
    · cases o <;> decide
  refine hl.joined hr hoperator (fun hp hq => hp.compare hq hmark) fun hl hr text => ?_
  rw [Phrase.toExpr, hl text, hr text]
  rfl

theorem not (h : Tells Operand cs e) : Tells Whole ("NOT".toList ++ ' ' :: cs) (.not e) := by
  obtain ⟨⟨ts, p, hts, hp, hsays⟩, hvisible⟩ := h
  refine ⟨⟨_, _, hts.worded (by decide), hp.not, fun text => ?_⟩,
    (hvisible.append [' ']).append "NOT".toList⟩
  rw [Phrase.toExpr, hsays text]
  · rfl
  · exact hp.notTest

/-- The text of a test for a null, after its operand. -/
def nullText (negated : Bool) : List Char :=
  if negated then " IS NOT NULL".toList else " IS NULL".toList

theorem endsVisibly_nullText (negated : Bool) : EndsVisibly (nullText negated) := by
  cases negated with
  | false => exact endsVisibly_concat (c := 'L') (by decide) " IS NUL".toList
  | true => exact endsVisibly_concat (c := 'L') (by decide) " IS NOT NUL".toList

theorem spells_null : Spells "NULL".toList [.word "NULL"] := .of_scans (scans_word (by decide))

theorem spells_isNull {ts : List Token} (h : Spells cs ts) (negated : Bool) :
    Spells (cs ++ nullText negated) (ts ++ nullTokens negated) := by
  have hsep : Separates " IS ".toList (.word "IS") := separates_word (w := "IS") (by decide)
  cases negated with
  | false => exact h.separated hsep spells_null
  | true => exact h.separated hsep (spells_null.worded (w := "NOT") (by decide))

theorem isNull (h : Tells Operand cs e) (negated : Bool) :
    Tells Whole (cs ++ nullText negated) (.isNull e negated) := by
  obtain ⟨⟨ts, p, hts, hp, hsays⟩, -⟩ := h
  refine ⟨⟨_, _, spells_isNull hts negated, hp.isNull negated, fun text => ?_⟩,
    (endsVisibly_nullText negated).append cs⟩
  cases negated with
  | false =>
      rw [Phrase.nullTested, if_neg Bool.false_ne_true, Phrase.toExpr, hsays text]
      rfl
  | true =>
      rw [Phrase.nullTested, if_pos rfl, Phrase.toExpr, hsays text]
      rfl

/-- A NOT before a test for a null is a test that it is none. -/
theorem notNull (h : Tells Operand cs e) :
    Tells Whole ("NOT".toList ++ ' ' :: (cs ++ nullText false)) (.isNull e true) := by
  obtain ⟨⟨ts, p, hts, hp, hsays⟩, -⟩ := h
  refine ⟨⟨_, _, (spells_isNull hts false).worded (by decide), hp.notNull false, fun text => ?_⟩,
    (((endsVisibly_nullText false).append cs).append [' ']).append "NOT".toList⟩
  rw [Phrase.nullTested, if_neg Bool.false_ne_true, Phrase.toExpr, hsays text]
  rfl

/-! ### Many operands -/

/-- What many texts spell and tell. -/
theorem exists_items {R : List Token → Phrase → Prop} {items : List (List Char × Expr)}
    (h : ∀ i ∈ items, Tells R i.1 i.2) : ∃ found : List (List Char × List Token × Phrase),
      found.map Prod.fst = items.map Prod.fst ∧
      (∀ i ∈ found, Spells i.1 i.2.1 ∧ R i.2.1 i.2.2) ∧
      List.Forall₂ (fun i e => i.2.2.Says e) found (items.map Prod.snd) := by
  induction items with
  | nil => exact ⟨[], rfl, by simp, .nil⟩
  | cons i items ih =>
      rw [List.forall_mem_cons] at h
      obtain ⟨ts, p, hts, hp, hsays⟩ := h.1.reads
      obtain ⟨found, htexts, hread, hsaid⟩ := ih h.2
      exact ⟨(i.1, ts, p) :: found, by simp [htexts], List.forall_mem_cons.2 ⟨⟨hts, hp⟩, hread⟩,
        .cons hsays hsaid⟩

theorem flatMap_of_texts {found : List (List Char × List Token × Phrase)}
    {items : List (List Char × Expr)} (h : found.map Prod.fst = items.map Prod.fst)
    (sep : List Char) :
    (found.flatMap fun i => sep ++ i.1) = items.flatMap fun i => sep ++ i.1 := by
  have hflat := congrArg (List.flatMap (sep ++ ·)) h
  rwa [List.flatMap_map, List.flatMap_map] at hflat

theorem endsVisibly_joined {R : List Token → Phrase → Prop} {items : List (List Char × Expr)}
    (h : EndsVisibly cs) (hitems : ∀ i ∈ items, Tells R i.1 i.2) (sep : List Char) :
    EndsVisibly (cs ++ items.flatMap fun i => sep ++ i.1) := by
  induction items generalizing cs with
  | nil => simpa using h
  | cons i items ih =>
      rw [List.forall_mem_cons] at hitems
      have hnext := ih ((hitems.1.visible.append sep).append cs) hitems.2
      simpa using hnext

theorem says_junction (op : Junction) {p : Phrase} (hp : p.Says e)
    {found : List (List Char × List Token × Phrase)} {es : List Expr}
    (h : List.Forall₂ (fun i e => i.2.2.Says e) found es) :
    ((found.map Prod.snd).foldl (fun left i => .junction op left i.2) p).Says
      (es.foldl (fun left e => .junction op left e []) e) := by
  induction h generalizing p e with
  | nil => exact hp
  | cons hsays _ ih =>
      refine ih fun text => ?_
      rw [Phrase.toExpr, hp text, hsays text]
      rfl

/-- Operands joined by one connective, from left to right. -/
theorem junction (op : Junction) (h : Tells Operand cs e) (items : List (List Char × Expr))
    (hitems : ∀ i ∈ items, Tells Operand i.1 i.2) :
    Tells Whole (cs ++ items.flatMap fun i => ' ' :: (op.symbol.toList ++ [' ']) ++ i.1)
      (items.foldl (fun left i => .junction op left i.2 []) e) := by
  have hvisible := endsVisibly_joined h.visible hitems (' ' :: (op.symbol.toList ++ [' ']))
  obtain ⟨⟨ts, p, hts, hp, hsays⟩, -⟩ := h
  obtain ⟨found, htexts, hread, hsaid⟩ := exists_items hitems
  have hsep : Separates (' ' :: (op.symbol.toList ++ [' '])) (.word op.symbol) :=
    separates_word (by cases op <;> decide)
  have hspells := hts.joined hsep fun i hi => (hread i hi).1
  have hwhole := hp.junction op (found.map Prod.snd) fun i hi => by
    obtain ⟨j, hj, rfl⟩ := List.mem_map.1 hi
    exact (hread j hj).2
  rw [flatMap_of_texts htexts] at hspells
  refine ⟨⟨_, _, hspells, hwhole, ?_⟩, hvisible⟩
  have hjoined := says_junction op hsays hsaid
  rwa [List.foldl_map (l := items)] at hjoined

end Tells

/-! ### Calls -/

/-- How many arguments of a function the grammar admits. -/
def ScalarFn.admitted : ScalarFn → Arity
  | unary _ => ⟨1, some 1⟩
  | round => ⟨1, some 4⟩
  | coalesce => ⟨1, none⟩

/-- A name of a function, which the grammar reads in capitals. -/
structure IsNameOf (w : String) (f : ScalarFn) : Prop where
  isWord : isOneWord w = true
  key : Text.upper w = Text.upper f.name

theorem ScalarFn.mem_all (f : ScalarFn) : f ∈ ScalarFn.all := by
  rcases f with f | _ | _
  · cases f <;> decide
  · decide
  · decide

theorem isNameOf_name (f : ScalarFn) : IsNameOf f.name f :=
  ⟨(by decide : ∀ f ∈ ScalarFn.all, isOneWord f.name = true) f f.mem_all, rfl⟩

/-- What the grammar and the vocabulary know about the name of a function, written in capitals. -/
structure ScalarFn.IsKnownBy (f : ScalarFn) (w : String) : Prop where
  called : w ∈ calledNames
  known : isKnownFunction w = true
  name : functionName w = w
  arity : functionArity? w = some f.admitted
  plain : w ∉ ["ANY_VALUE", "MOD", "XOR", "MAKE_TIMESTAMP", "LIKE", "DATE_TRUNC", "DATETRUNC"]
  ungrouped : Text.upper w ∉ groupFunctions
  ranking : Ranking.named? (Text.lower (Text.upper w)) = none
  scalar : ScalarFn.named? (Text.lower (Text.upper w)) = some f

theorem ScalarFn.isKnownBy_upper (f : ScalarFn) : f.IsKnownBy (Text.upper f.name) := by
  -- one evaluation, so that each name is put into capitals once
  have hnames : ∀ f ∈ ScalarFn.all, let w := Text.upper f.name
      (w ∈ calledNames ∧ isKnownFunction w = true ∧ functionName w = w ∧
        functionArity? w = some f.admitted) ∧
      (w ∉ ["ANY_VALUE", "MOD", "XOR", "MAKE_TIMESTAMP", "LIKE", "DATE_TRUNC", "DATETRUNC"] ∧
        Text.upper w ∉ groupFunctions) ∧
      Ranking.named? (Text.lower (Text.upper w)) = none ∧
        ScalarFn.named? (Text.lower (Text.upper w)) = some f := by
    decide +kernel
  obtain ⟨⟨hcalled, hknown, hname, harity⟩, ⟨hplain, hgroup⟩, hranking, hscalar⟩ :=
    hnames f f.mem_all
  exact ⟨hcalled, hknown, hname, harity, hplain, hgroup, hranking, hscalar⟩

/-- What is called is the function, with the arguments that stand between the parentheses. -/
theorem calledBy?_scalar {w : String} {f : ScalarFn} (hw : IsNameOf w f) (args : List Phrase)
    (hcount : f.admitted.admits args.length = true) (hhex : ∀ p ∈ args.head?, p.isHex = false) :
    Phrase.calledBy? w args = some (.call (Text.upper f.name) args) := by
  have hplain := f.isKnownBy_upper.plain
  have hconverted : (args.head?.map Phrase.isHex).getD false = false := by
    cases args with
    | nil => rfl
    | cons p args => exact hhex p rfl
  rw [Phrase.calledBy?, hw.key, f.isKnownBy_upper.known, if_pos rfl]
  unfold Phrase.called?
  split
  · next heq => exact absurd (by rw [heq]; decide) hplain
  · next heq => exact absurd (by rw [heq]; decide) hplain
  · next heq => exact absurd (by rw [heq]; decide) hplain
  · next heq => exact absurd (by rw [heq]; decide) hplain
  · next heq => exact absurd (by rw [heq]; decide) hplain
  · have htrunc : Text.upper f.name ≠ "DATE_TRUNC" ∧ Text.upper f.name ≠ "DATETRUNC" := by
      simp only [List.mem_cons, not_or] at hplain
      exact ⟨hplain.2.2.2.2.2.1, hplain.2.2.2.2.2.2.1⟩
    simp [f.isKnownBy_upper.arity, hcount, hconverted, htrunc, f.isKnownBy_upper.name]

/-- No expression is written in hexadecimal. -/
theorem Phrase.Says.isHex {p : Phrase} (h : p.Says e) : p.isHex = false := by
  cases p with
  | call name args =>
      rw [Phrase.isHex, decide_eq_false_iff_not]
      rintro rfl
      have hranking : Ranking.named? (Text.lower (Text.upper "HEX")) = none := by decide +kernel
      have hscalar : ScalarFn.named? (Text.lower (Text.upper "HEX")) = none := by decide +kernel
      have hsays := h ""
      simp [Phrase.callee, hranking, hscalar] at hsays
  | _ => rfl

theorem Phrase.says_list {args : List Phrase} {es : List Expr}
    (h : List.Forall₂ Phrase.Says args es) (text : String) :
    Phrase.toExprs text args = .ok es := by
  induction h with
  | nil => simp
  | cons hsays _ ih =>
      rw [Phrase.toExprs, hsays text, ih]
      rfl

theorem Phrase.says_call {f : ScalarFn} {args : List Phrase} {es : List Expr}
    (hargs : List.Forall₂ Phrase.Says args es) (hcall : Expr.call? f es = some e) :
    (Phrase.call (Text.upper f.name) args).Says e := by
  intro text
  have hcallee : Phrase.callee (Text.upper f.name) = .scalar f := by
    simp [Phrase.callee, f.isKnownBy_upper.ranking, f.isKnownBy_upper.scalar]
  rw [Phrase.toExpr, hcallee]
  simp [Phrase.says_list hargs text, hcall, bind, Except.bind, pure, Except.pure]

/-- A call of a function of values is not one of a group. -/
theorem Phrase.hoistNulls_call (f : ScalarFn) (args : List Phrase) :
    (Phrase.call (Text.upper f.name) args).hoistNulls = .call (Text.upper f.name) args := by
  simp [Phrase.hoistNulls, Phrase.isGroupCall, f.isKnownBy_upper.ungrouped]

namespace Tells

/-- A call of a function that takes the arguments. -/
theorem call {w : String} {f : ScalarFn} (hw : IsNameOf w f) (h : Tells Whole cs e)
    (items : List (List Char × Expr)) (hitems : ∀ i ∈ items, Tells Whole i.1 i.2)
    (hcount : f.admitted.admits (items.length + 1) = true) {result : Expr}
    (hcall : Expr.call? f (e :: items.map Prod.snd) = some result) :
    Tells Operand
      (w.toList ++ '(' :: ((cs ++ items.flatMap fun i => [',', ' '] ++ i.1) ++ [')'])) result := by
  obtain ⟨⟨ts, p, hts, hp, hsays⟩, -⟩ := h
  obtain ⟨found, htexts, hread, hsaid⟩ := exists_items hitems
  have hspells := (hts.joined separates_comma fun i hi => (hread i hi).1).called hw.isWord
  rw [flatMap_of_texts htexts] at hspells
  have hargs : List.Forall₂ Phrase.Says (p :: (found.map Prod.snd).map Prod.snd)
      (e :: items.map Prod.snd) :=
    .cons hsays (List.forall₂_map_left_iff.2 (List.forall₂_map_left_iff.2 hsaid))
  have hlength : found.length = items.length := by simpa using congrArg List.length htexts
  have hcalled := calledBy?_scalar hw (p :: (found.map Prod.snd).map Prod.snd)
    (by simpa [hlength] using hcount) fun q hq => by
      cases hq
      exact hsays.isHex
  have hitems : ∀ i ∈ (ts, p) :: found.map Prod.snd, Whole i.1 i.2 := by
    refine List.forall_mem_cons.2 ⟨hp, fun i hi => ?_⟩
    obtain ⟨j, hj, rfl⟩ := List.mem_map.1 hi
    exact (hread j hj).2
  have hoperand := Operand.call (hw.key ▸ f.isKnownBy_upper.called) _ hitems hcalled
    (Phrase.hoistNulls_call f _) (by simp)
  refine ⟨⟨_, _, hspells, hoperand, Phrase.says_call hargs hcall⟩, ?_⟩
  exact ((endsVisibly_concat (c := ')') (by decide) _).append ['(']).append w.toList

theorem says_ranking {name : String} {f : Ranking}
    (h : Ranking.named? (Text.lower (Text.upper name)) = some f) :
    (Phrase.call name []).Says (.ranking f) := by
  intro text
  rw [Phrase.toExpr, Phrase.callee, h]
  rfl

/-- The grammar knows only one of the rankings; others are called by the names that they have. -/
theorem calledBy?_ranking (f : Ranking) :
    Phrase.calledBy? f.name [] =
      some (.call (if f = .rowNumber then "ROW_NUMBER" else f.name) []) := by
  cases f with
  | rowNumber =>
      have hkey : Text.upper "row_number" = "ROW_NUMBER" := by decide +kernel
      have hknown : isKnownFunction "ROW_NUMBER" = true := by decide +kernel
      have harity : functionArity? "ROW_NUMBER" = some ⟨0, some 1⟩ := by decide +kernel
      have hname : functionName "ROW_NUMBER" = "ROW_NUMBER" := by decide +kernel
      simp [Phrase.calledBy?, Ranking.name, hkey, hknown, Phrase.called?, harity, hname,
        Arity.admits]
  | rank =>
      have hknown : isKnownFunction (Text.upper "rank") = false := by decide +kernel
      simp [Phrase.calledBy?, Ranking.name, hknown]
  | denseRank =>
      have hknown : isKnownFunction (Text.upper "dense_rank") = false := by decide +kernel
      simp [Phrase.calledBy?, Ranking.name, hknown]

theorem ranking (f : Ranking) : Tells Operand (f.name.toList ++ ['(', ')']) (.ranking f) := by
  have hnames : ∀ f ∈ Ranking.all, isOneWord f.name = true ∧ Text.upper f.name ∈ calledNames := by
    decide +kernel
  obtain ⟨hword, hkey⟩ := hnames f (by cases f <;> decide)
  have hoperand := Operand.call hkey [] (by simp) (calledBy?_ranking f)
    (by simp [Phrase.hoistNulls]) (by simp)
  exact ⟨⟨_, _, Spells.nil.called hword, hoperand,
      says_ranking (by cases f <;> decide +kernel)⟩,
    (endsVisibly_concat (c := ')') (by decide) ['(']).append f.name.toList⟩

end Tells

end Tabula