import Tabula.Expr.Grammar

/-!
Reading tokens that have no comments. What may follow the text of an expression is told apart by how
tightly it binds, and no rule of the grammar takes a token that follows at a looser level than its
own. So a level of operators passes on what the tighter levels found, and joins it with more only at
its own operators.
-/

namespace Tabula

/-- Tokens without comments. -/
def lexed (ts : List Token) : List Lexeme := ts.map fun t => ⟨t, []⟩

/-- The word that tokens begin with, if they begin with one. -/
def headKey (ts : List Token) : String := (ts.head?.map Token.key).getD ""

namespace Reader

section Steps

variable {α β : Type}

@[simp] theorem bind_apply (r : Reader α) (f : α → Reader β) (ls : List Lexeme) :
    (r >>= f) ls = (r ls).bind fun p => f p.1 p.2 := rfl

@[simp] theorem pure_apply (a : α) (ls : List Lexeme) : (pure a : Reader α) ls = some (a, ls) := rfl

@[simp] theorem map_apply (f : α → β) (r : Reader α) (ls : List Lexeme) :
    (f <$> r) ls = (r ls).map (Prod.map f id) := by
  show (r ls).bind _ = _
  cases r ls <;> rfl

@[simp] theorem get_apply (ls : List Lexeme) : (get : Reader (List Lexeme)) ls = some (ls, ls) :=
  rfl

@[simp] theorem set_apply (next ls : List Lexeme) :
    (set next : Reader PUnit) ls = some (⟨⟩, next) := rfl

@[simp] theorem ite_apply (c : Prop) [Decidable c] (r s : Reader α) (ls : List Lexeme) :
    (if c then r else s) ls = if c then r ls else s ls := by
  split <;> rfl

theorem either_of_none {r s : Reader (Option α)} {ls next : List Lexeme}
    (h : r ls = some (none, next)) : either r s ls = s next := by
  simp [either, h]

theorem either_of_some {r s : Reader (Option α)} {a : α} {ls next : List Lexeme}
    (h : r ls = some (some a, next)) : either r s ls = some (some a, next) := by
  simp [either, h]

theorem provided_false (r : Reader Bool) (ls : List Lexeme) :
    provided false r ls = some (false, ls) := rfl

theorem repeated_of_none {r : Phrase → Reader (Option Phrase)} {p : Phrase} {ls : List Lexeme}
    (h : r p ls = some (none, ls)) (bound : Nat) : repeated r bound p ls = some (p, ls) := by
  cases bound <;> simp [repeated, h]

/-- A reader that finds more once, and then nothing. -/
theorem goOn_of_some {r : Phrase → Reader (Option Phrase)} {p q : Phrase} {ls next : List Lexeme}
    (hne : ls ≠ []) (h : r p ls = some (some q, next)) (hnext : r q next = some (none, next)) :
    goOn r p ls = some (q, next) := by
  obtain ⟨l, ls, rfl⟩ := List.exists_cons_of_ne_nil hne
  simp [goOn, repeated, h, repeated_of_none hnext]

theorem goOn_of_none {r : Phrase → Reader (Option Phrase)} {p : Phrase} {ls : List Lexeme}
    (h : r p ls = some (none, ls)) : goOn r p ls = some (p, ls) := by
  simp [goOn, repeated_of_none h]

end Steps

variable {ts : List Token} {m k : String} {ks : List String}

@[simp] theorem peek_lexed (ts : List Token) :
    peek (lexed ts) = some (ts.head?.map (⟨·, []⟩), lexed ts) := by
  cases ts <;> rfl

@[simp] theorem peekSecond_lexed (ts : List Token) :
    peekSecond (lexed ts) = some (ts[1]?.map (⟨·, []⟩), lexed ts) := by
  rcases ts with _ | ⟨t, _ | ⟨u, ts⟩⟩ <;> rfl

@[simp] theorem skip_lexed (ts : List Token) : skip (lexed ts) = some (⟨⟩, lexed ts.tail) := by
  cases ts <;> rfl

@[simp] theorem key_lexed (ts : List Token) : key (lexed ts) = some (headKey ts, lexed ts) := by
  cases ts <;> rfl

@[simp] theorem atMark_lexed (m : String) (ts : List Token) :
    atMark m (lexed ts) = some (decide (ts.head? = some (.mark m)), lexed ts) := by
  cases ts with
  | nil => rfl
  | cons t ts => simp [atMark]

@[simp] theorem secondAtMark_lexed (m : String) (ts : List Token) :
    secondAtMark m (lexed ts) = some (decide (ts[1]? = some (.mark m)), lexed ts) := by
  rcases ts with _ | ⟨t, _ | ⟨u, ts⟩⟩
  · rfl
  · rfl
  · simp [secondAtMark]

theorem mark_of_ne (h : ts.head? ≠ some (.mark m)) :
    mark m (lexed ts) = some (false, lexed ts) := by
  simp [mark, h]

@[simp] theorem mark_self (m : String) (ts : List Token) :
    mark m (lexed (.mark m :: ts)) = some (true, lexed ts) := by
  simp [mark]

theorem word_of_ne (h : headKey ts ≠ k) : word k (lexed ts) = some (false, lexed ts) := by
  simp [word, h]

theorem word_of_eq (h : headKey ts = k) : word k (lexed ts) = some (true, lexed ts.tail) := by
  simp [word, h]

theorem oneOf_of_not_mem (h : headKey ts ∉ ks) : oneOf ks (lexed ts) = some (false, lexed ts) := by
  simp [oneOf, h]

theorem oneOf_of_mem (h : headKey ts ∈ ks) : oneOf ks (lexed ts) = some (true, lexed ts.tail) := by
  simp [oneOf, h]

theorem words_of_ne (h : headKey ts ≠ k) :
    words (k :: ks) (lexed ts) = some (false, lexed ts) := by
  cases ts with
  | nil => simp [words, lexed]
  | cons t ts =>
      have hkey : t.key ≠ k := h
      simp [words, lexed, Lexeme.key, hkey]

end Reader

open Reader

/-! ### What may follow -/

/-- The marks that may follow the text of an operand, each with how tightly it binds. -/
def stopMarks : List (Nat × String) :=
  [(0, ")"), (0, ","), (4, "="), (4, "!="), (4, "<>"), (5, "<"), (5, "<="), (5, ">"), (5, ">="),
    (6, "+"), (6, "-"), (7, "*"), (7, "/")]

/-- The words that may follow the text of an operand, each with how tightly it binds. -/
def stopWords : List (Nat × String) := [(1, "OR"), (2, "AND"), (3, "IS")]

/-- Marks that no expression is printed with, but that the grammar looks for further on. -/
def Token.Usual (t : Token) : Prop :=
  t ≠ .mark ":" ∧ t ≠ .mark ":=" ∧ t ≠ .mark "->" ∧ t ≠ .mark "=>" ∧ t ≠ .mark ";"

instance (t : Token) : Decidable t.Usual := inferInstanceAs (Decidable (_ ∧ _))

/-- The tokens are not those of a star with what it leaves out or changes, or of columns by a
pattern, when a star stands before them. -/
structure StarSafe (rest : List Token) : Prop where
  notPart : headKey rest ≠ "EXCEPT" ∧ headKey rest ≠ "REPLACE" ∧ headKey rest ≠ "RENAME"
  notColumns : headKey rest = "COLUMNS" → rest[1]? ≠ some (.mark "(")
  excluded : headKey rest = "EXCLUDE" → ∀ t ∈ rest[1]?, t = .mark ")" ∨ t = .mark ","

/-- The tokens may follow an operand, and do not bind more tightly than level `k`. -/
structure MayFollow (k : Nat) (rest : List Token) : Prop where
  head : ∀ t ∈ rest.head?,
    (∃ s ∈ stopMarks, s.1 ≤ k ∧ t = .mark s.2) ∨ ∃ s ∈ stopWords, s.1 ≤ k ∧ t = .word s.2
  star : rest.head? = some (.mark "*") → StarSafe rest.tail
  unshifted : ∀ m ∈ ["<", ">"], rest.head? = some (.mark m) → rest[1]? ≠ some (.mark m)
  usual : ∀ t ∈ rest, t.Usual

/-- Whether a mark may follow at level `k`. -/
def isStopMark (k : Nat) (m : String) : Bool := stopMarks.any fun s => s.1 ≤ k && s.2 == m

/-- Whether a word may follow at level `k`; marks have no word. -/
def isStopWord (k : Nat) (w : String) : Bool :=
  w == "" || stopWords.any fun s => s.1 ≤ k && s.2 == w

theorem key_stopMarks : ∀ s ∈ stopMarks, (Token.mark s.2).key = "" := by decide

theorem key_stopWords : ∀ s ∈ stopWords, (Token.word s.2).key = s.2 := by decide +kernel

theorem usual_stopWord (s : Nat × String) : (Token.word s.2).Usual := by simp [Token.Usual]

namespace MayFollow

variable {k l : Nat} {rest : List Token}

theorem nil (k : Nat) : MayFollow k [] := ⟨by simp, by simp, by simp, by simp⟩

theorem mono (h : MayFollow k rest) (hkl : k ≤ l) : MayFollow l rest := by
  refine ⟨fun t ht => ?_, h.star, h.unshifted, h.usual⟩
  rcases h.head t ht with ⟨s, hs, hk, rfl⟩ | ⟨s, hs, hk, rfl⟩
  · exact .inl ⟨s, hs, Nat.le_trans hk hkl, rfl⟩
  · exact .inr ⟨s, hs, Nat.le_trans hk hkl, rfl⟩

theorem of_word {s : Nat × String} (hs : s ∈ stopWords) (hk : s.1 ≤ k)
    (hrest : ∀ t ∈ rest, t.Usual) : MayFollow k (.word s.2 :: rest) :=
  ⟨fun _ ht => .inr ⟨s, hs, hk, (Option.some.inj ht).symm⟩, by simp, by simp,
    List.forall_mem_cons.2 ⟨usual_stopWord s, hrest⟩⟩

theorem head?_ne (h : MayFollow k rest) {m : String} (hm : isStopMark k m = false) :
    rest.head? ≠ some (.mark m) := by
  intro hhead
  rcases h.head _ hhead with ⟨s, hs, hk, heq⟩ | ⟨s, _, _, heq⟩
  · cases heq
    exact absurd (List.any_eq_true.2 ⟨s, hs, by simp [hk]⟩) (Bool.eq_false_iff.1 hm)
  · cases heq

theorem isStopWord_headKey (h : MayFollow k rest) : isStopWord k (headKey rest) = true := by
  cases rest with
  | nil => rfl
  | cons t tail =>
      rcases h.head t rfl with ⟨s, hs, _, rfl⟩ | ⟨s, hs, hk, rfl⟩
      · rw [isStopWord, headKey, List.head?_cons, Option.map_some, Option.getD_some,
          key_stopMarks s hs]
        rfl
      · rw [isStopWord, headKey, List.head?_cons, Option.map_some, Option.getD_some,
          key_stopWords s hs]
        exact Bool.or_eq_true_iff.2 (.inr (List.any_eq_true.2 ⟨s, hs, by simp [hk]⟩))

theorem headKey_ne (h : MayFollow k rest) {w : String} (hw : isStopWord k w = false) :
    headKey rest ≠ w := by
  rintro rfl
  rw [h.isStopWord_headKey] at hw
  cases hw

theorem headKey_not_mem (h : MayFollow k rest) {ws : List String}
    (hws : (ws.all fun w => !isStopWord k w) = true) : headKey rest ∉ ws := by
  intro hmem
  have hnot := List.all_eq_true.1 hws _ hmem
  rw [h.isStopWord_headKey] at hnot
  cases hnot

/-! What the rules look for and do not find. -/

theorem mark (h : MayFollow k rest) {m : String} (hm : isStopMark k m = false) :
    Reader.mark m (lexed rest) = some (false, lexed rest) :=
  mark_of_ne (h.head?_ne hm)

theorem word (h : MayFollow k rest) {w : String} (hw : isStopWord k w = false) :
    Reader.word w (lexed rest) = some (false, lexed rest) :=
  word_of_ne (h.headKey_ne hw)

theorem words (h : MayFollow k rest) {w : String} {v : List String}
    (hw : isStopWord k w = false) : Reader.words (w :: v) (lexed rest) = some (false, lexed rest) :=
  words_of_ne (h.headKey_ne hw)

theorem oneOf (h : MayFollow k rest) {ws : List String}
    (hws : (ws.all fun w => !isStopWord k w) = true) :
    Reader.oneOf ws (lexed rest) = some (false, lexed rest) :=
  oneOf_of_not_mem (h.headKey_not_mem hws)

theorem lookup_headKey (h : MayFollow k rest) {α : Type} {table : List (String × α)}
    (htable : (table.all fun e => !isStopWord k e.1) = true) :
    table.lookup (headKey rest) = none := by
  rw [List.lookup_eq_none_iff]
  intro e he
  have hnot := List.all_eq_true.1 htable e he
  rw [bne_iff_ne]
  exact h.headKey_ne (by simpa using hnot)

theorem lookup_mark {m : String} (h : MayFollow k (.mark m :: rest)) {α : Type}
    {table : List (String × α)} (htable : (table.all fun e => !isStopMark k e.1) = true) :
    table.lookup m = none := by
  rw [List.lookup_eq_none_iff]
  intro e he
  have hnot := List.all_eq_true.1 htable e he
  rw [bne_iff_ne]
  rintro rfl
  exact h.head?_ne (by simpa using hnot) rfl

theorem marked (h : MayFollow k rest) {table : List (String × Joint)}
    (htable : (table.all fun e => !isStopMark k e.1) = true) :
    Tabula.marked table (lexed rest) = some (none, lexed rest) := by
  rcases rest with _ | ⟨t, tail⟩
  · rfl
  · cases t with
    | mark m => simp [Tabula.marked, h.lookup_mark htable]
    | _ => rfl

end MayFollow

/-! ### What readers find -/

/-- The reader finds the phrase in the tokens, whatever follows at the level. -/
def Finds (k : Nat) (r : Reader (Option Phrase)) (ts : List Token) (p : Phrase) : Prop :=
  ∀ rest, MayFollow k rest → r (lexed (ts ++ rest)) = some (some p, lexed rest)

variable {g : Grammar} {k l : Nat} {ts us : List Token} {p q : Phrase}

section Chain

variable {operand : Reader (Option Phrase)} {joints : Joints}

theorem joinOne_of_none {ls : List Lexeme} (h : joints ls = some (none, ls)) :
    joinOne operand joints p ls = some (none, ls) := by
  simp [joinOne, h]

/-- A level passes on what it found if no operator of its own follows. -/
theorem chainFrom_of_none {ls : List Lexeme} (h : joints ls = some (none, ls)) :
    chainFrom operand joints (some p) ls = some (some p, ls) := by
  simp [chainFrom, goOn_of_none (joinOne_of_none h)]

/-- A level without an operand finds nothing. -/
theorem chainFrom_none {ls : List Lexeme} (h : joints ls = some (none, ls)) :
    chainFrom operand joints none ls = some (none, ls) := by
  simp [chainFrom, h]

variable {t : Token} {f : Phrase → Phrase → Phrase}

theorem joinOne_both {rest : List Token}
    (hjoint : joints (lexed (t :: (us ++ rest))) = some (some (Joint.both f), lexed (us ++ rest)))
    (h : operand (lexed (us ++ rest)) = some (some q, lexed rest)) :
    joinOne operand joints p (lexed (t :: (us ++ rest))) = some (some (f p q), lexed rest) := by
  simp [joinOne, hjoint, h, Joint.both]

/-- The operands after the first, each with the operator before it. -/
def joined (t : Token) (items : List (List Token × Phrase)) : List Token :=
  items.flatMap fun i => t :: i.1

theorem joined_cons (t : Token) (i : List Token × Phrase) (items : List (List Token × Phrase)) :
    joined t (i :: items) = t :: (i.1 ++ joined t items) := by
  simp [joined]

theorem usual_joined {t : Token} (ht : t.Usual) {items : List (List Token × Phrase)}
    (h : ∀ i ∈ items, ∀ u ∈ i.1, u.Usual) : ∀ u ∈ joined t items, u.Usual := by
  intro u hu
  obtain ⟨i, hi, hu⟩ := List.mem_flatMap.1 hu
  rcases List.mem_cons.1 hu with rfl | hu
  · exact ht
  · exact h i hi u hu

theorem length_le_joined (t : Token) (items : List (List Token × Phrase)) :
    items.length ≤ (joined t items).length := by
  induction items with
  | nil => exact Nat.le_refl 0
  | cons i items ih =>
      rw [joined_cons, List.length_cons, List.length_cons, List.length_append]
      omega

theorem length_le_of_mem_joined (t : Token) {items : List (List Token × Phrase)}
    {i : List Token × Phrase} (h : i ∈ items) : i.1.length + 1 ≤ (joined t items).length := by
  obtain ⟨before, after, rfl⟩ := List.append_of_mem h
  simp only [joined, List.flatMap_append, List.flatMap_cons, List.length_append, List.length_cons]
  omega

/-- Operands are joined by the operators of the level between them, from left to right. -/
theorem chainFrom_joined {items : List (List Token × Phrase)}
    (hitems : ∀ i ∈ items, Finds k operand i.1 i.2)
    (hjoint : ∀ us, joints (lexed (t :: us)) = some (some (Joint.both f), lexed us))
    {rest : List Token} (hrest : joints (lexed rest) = some (none, lexed rest))
    (hnext : ∀ done left, items = done ++ left → MayFollow k (joined t left ++ rest)) :
    chainFrom operand joints (some p) (lexed (joined t items ++ rest)) =
      some (some (items.foldl (fun left i => f left i.2) p), lexed rest) := by
  suffices hrepeated : ∀ bound, items.length ≤ bound →
      repeated (joinOne operand joints) bound p (lexed (joined t items ++ rest)) =
        some (items.foldl (fun left i => f left i.2) p, lexed rest) by
    have hlength : items.length ≤ (lexed (joined t items ++ rest)).length := by
      have hjoined := length_le_joined t items
      simp only [lexed, List.length_map, List.length_append]
      omega
    simp [chainFrom, goOn, hrepeated _ hlength]
  intro bound hbound
  induction items generalizing p bound with
  | nil =>
      have hnone : joinOne operand joints p (lexed rest) = some (none, lexed rest) :=
        joinOne_of_none hrest
      cases bound <;> simp [repeated, joined, hnone]
  | cons i items ih =>
      obtain ⟨bound, rfl⟩ : ∃ b, bound = b + 1 := Nat.exists_eq_add_one_of_ne_zero (by
        simp only [List.length_cons] at hbound
        omega)
      have hfound : operand (lexed (i.1 ++ (joined t items ++ rest))) =
          some (some i.2, lexed (joined t items ++ rest)) :=
        hitems i List.mem_cons_self _ (hnext [i] items rfl)
      have hone := joinOne_both (p := p) (hjoint _) hfound
      rw [joined_cons, List.cons_append, List.append_assoc]
      simp only [repeated, bind_apply, hone, Option.bind_some]
      refine ih (fun i hi => hitems i (List.mem_cons_of_mem _ hi)) (fun done left heq => ?_) bound
        (by simpa using hbound)
      exact hnext (i :: done) left (by rw [heq, List.cons_append])

theorem Finds.chain (h : Finds k operand ts p) (hlk : l ≤ k)
    (hjoints : ∀ rest, MayFollow l rest → joints (lexed rest) = some (none, lexed rest)) :
    Finds l (Tabula.chain operand joints) ts p := by
  intro rest hrest
  simp [Tabula.chain, h rest (hrest.mono hlk), chainFrom_of_none (hjoints rest hrest)]

/-- A level joins two operands at an operator of its own. -/
theorem chainFrom_join (h : Finds k operand us q)
    (hjoint : ∀ vs, joints (lexed (t :: vs)) = some (some (Joint.both f), lexed vs))
    {rest : List Token} (hrest : joints (lexed rest) = some (none, lexed rest))
    (hend : MayFollow k rest) (hnext : MayFollow k (t :: (us ++ rest))) :
    chainFrom operand joints (some p) (lexed (t :: (us ++ rest))) =
      some (some (f p q), lexed rest) := by
  have hfollows (done left : List (List Token × Phrase)) (heq : [(us, q)] = done ++ left) :
      MayFollow k (joined t left ++ rest) := by
    cases done with
    | nil =>
        rw [← List.nil_append left, ← heq]
        simpa [joined] using hnext
    | cons i done =>
        obtain ⟨-, rfl⟩ := List.append_eq_nil_iff.1 (List.cons.inj heq).2.symm
        exact hend
  have hjoined : chainFrom operand joints (some p) (lexed (joined t [(us, q)] ++ rest)) =
      some (some (f p q), lexed rest) :=
    chainFrom_joined (List.forall_mem_singleton.2 h) hjoint hrest hfollows
  simpa [joined] using hjoined

end Chain

/-! ### Where expressions and operands begin -/

/-- Words that begin something else than an expression. -/
def openingWords : List String :=
  ["INTERVAL", "LAMBDA", "DISTINCT", "WITH", "FROM", "SELECT", "VALUES", "SUMMARIZE", "DESCRIBE",
    "IF", "TRUNCATE", "TABLE", "ALTER", "ANALYZE", "ATTACH", "BEGIN", "CACHE", "COMMENT", "COMMIT",
    "COPY", "CREATE", "DELETE", "DESC", "DETACH", "DROP", "FORCE", "GRANT", "INSERT", "INSTALL",
    "KILL", "LOAD", "MERGE", "PIVOT", "PIVOT_WIDER", "UNPIVOT", "PRAGMA", "REVOKE", "ROLLBACK",
    "SET", "SHOW", "UNCACHE", "UPDATE", "USE", "CALL", "EXECUTE", "EXPLAIN", "FETCH", "OPTIMIZE",
    "PREPARE", "RENAME", "RESET", "VACUUM"]

/-- The tokens begin like an expression, and no mark among them is one that expressions lack. -/
structure Opens (ts : List Token) : Prop where
  ne_nil : ts ≠ []
  mark : ∀ m, ts.head? = some (.mark m) → m = "(" ∨ m = "-"
  key : headKey ts ∉ openingWords
  usual : ∀ t ∈ ts, t.Usual

/-- The tokens begin like an operand, and a star before them has no parts. -/
structure IsOperand (ts : List Token) : Prop extends Opens ts where
  star : ∀ rest, MayFollow 0 rest → StarSafe (ts ++ rest)

namespace Opens

theorem head?_append (h : Opens ts) (rest : List Token) : (ts ++ rest).head? = ts.head? := by
  obtain ⟨t, tail, rfl⟩ := List.exists_cons_of_ne_nil h.ne_nil
  rfl

theorem headKey_append (h : Opens ts) (rest : List Token) : headKey (ts ++ rest) = headKey ts := by
  rw [headKey, h.head?_append, headKey]

theorem head?_ne (h : Opens ts) (rest : List Token) {m : String} (hparen : m ≠ "(")
    (hminus : m ≠ "-") : (ts ++ rest).head? ≠ some (.mark m) := by
  rw [h.head?_append]
  intro hhead
  exact (h.mark m hhead).elim hparen hminus

theorem headKey_ne (h : Opens ts) (rest : List Token) {w : String} (hw : w ∈ openingWords) :
    headKey (ts ++ rest) ≠ w := by
  rw [h.headKey_append]
  rintro rfl
  exact h.key hw

end Opens

theorem MayFollow.of_mark {m : String} (hm : (k, m) ∈ stopMarks) (hus : IsOperand us)
    {rest : List Token} (hrest : MayFollow 0 rest) : MayFollow k (.mark m :: (us ++ rest)) where
  head _ ht := .inl ⟨(k, m), hm, Nat.le_refl k, (Option.some.inj ht).symm⟩
  star _ := hus.star rest hrest
  unshifted n hn _ := by
    simp only [List.mem_cons, List.not_mem_nil, or_false] at hn
    rcases hn with rfl | rfl
    all_goals
      rw [List.getElem?_cons_succ, ← List.head?_eq_getElem?]
      exact hus.head?_ne rest (by decide) (by decide)
  usual := by
    refine List.forall_mem_cons.2 ⟨?_, List.forall_mem_append.2 ⟨hus.usual, hrest.usual⟩⟩
    exact (by decide : ∀ s ∈ stopMarks, (Token.mark s.2).Usual) _ hm

/-- At the end of an expression stands the end of the text, a parenthesis or a comma. -/
theorem mayFollow_end_iff : MayFollow 0 ts ↔
    (∀ t ∈ ts.head?, t = .mark ")" ∨ t = .mark ",") ∧ ∀ t ∈ ts, t.Usual := by
  have hmarks : ∀ s ∈ stopMarks, s.1 ≤ 0 → s.2 = ")" ∨ s.2 = "," := by decide
  have hwords : ∀ s ∈ stopWords, ¬ s.1 ≤ 0 := by decide
  constructor
  · intro h
    refine ⟨fun t ht => ?_, h.usual⟩
    rcases h.head t ht with ⟨s, hs, hk, rfl⟩ | ⟨s, hs, hk, -⟩
    · simpa using hmarks s hs hk
    · exact absurd hk (hwords s hs)
  · rintro ⟨hhead, husual⟩
    have hne {m : String} (hparen : m ≠ ")") (hcomma : m ≠ ",") : ts.head? ≠ some (.mark m) := by
      intro h
      rcases hhead _ h with heq | heq <;> cases heq <;> contradiction
    refine ⟨fun t ht => .inl ?_, fun h => absurd h (hne (by decide) (by decide)),
      fun m hm h => ?_, husual⟩
    · rcases hhead t ht with rfl | rfl
      · exact ⟨(0, ")"), by decide, Nat.le_refl 0, rfl⟩
      · exact ⟨(0, ","), by decide, Nat.le_refl 0, rfl⟩
    · simp only [List.mem_cons, List.not_mem_nil, or_false] at hm
      rcases hm with rfl | rfl
      · exact absurd h (hne (by decide) (by decide))
      · exact absurd h (hne (by decide) (by decide))

theorem MayFollow.cases_end {rest : List Token} (h : MayFollow 0 rest) :
    rest = [] ∨ ∃ tail, rest = .mark ")" :: tail ∨ rest = .mark "," :: tail := by
  rcases rest with _ | ⟨t, tail⟩
  · exact .inl rfl
  · exact .inr ⟨tail, by simpa using (mayFollow_end_iff.1 h).1 t rfl⟩

end Tabula
