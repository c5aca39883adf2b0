import Tabula.Proofs.Expr.Depth
import Tabula.Proofs.Text.Delimited

/-!
Scanning the tokens that expressions are printed with. A token ends where a blank, a parenthesis or
a comma follows, so scanning a text that is put together at such places is scanning its parts.
-/

namespace Tabula

open Scan Scanner

/-! ### Characters that belong to one token -/

theorem run_of_feed {s next : Scan} {cs : List Char} (h : s.feed cs = ([], next))
    (rest : List Char) : (plain s).run (cs ++ rest) = (plain next).run rest := by
  induction cs generalizing s with
  | nil =>
      cases h
      rfl
  | cons c cs ih =>
      rw [Scan.feed, Prod.mk.injEq, List.append_eq_nil_iff] at h
      obtain ⟨⟨hdone, hmore⟩, hlast⟩ := h
      have hfeed : (s.step c).2.feed cs = ([], next) := Prod.ext hmore hlast
      rw [List.cons_append, ← ih hfeed]
      simp [run, Scanner.step, hdone]

/-- A token that the next character does not belong to ends, and scanning begins anew. -/
theorem run_of_andBegin {s : Scan} {t : Token} {rest : List Char} (ht : marksParameter t = false)
    (hfinish : s.finish = some [.token t])
    (hstep : ∀ c ∈ rest.head?, s.step c = andBegin [t] c) :
    (plain s).run rest = (.token t :: ·) <$> (plain (gap false)).run rest := by
  cases rest with
  | nil =>
      have hgap : (gap false).finish = some [] := rfl
      simp [run, Scanner.finish, hfinish, hgap]
  | cons c rest =>
      have hdollar : Piece.token t ≠ dollar := by
        rintro heq
        rw [dollar, Piece.token.injEq] at heq
        simp [heq, marksParameter] at ht
      obtain ⟨done, next, hbegin⟩ : ∃ done next, begin false c = (done, next) := ⟨_, _, rfl⟩
      have hgap : (gap false).step c = (done, next) := hbegin
      have hs : s.step c = (.token t :: done, next) := by
        simp [hstep c rfl, andBegin, ht, hbegin]
      rcases List.eq_nil_or_concat done with rfl | ⟨before, last, rfl⟩
      · simp [run, Scanner.step, hs, hgap, hdollar]
      · have hends : (Piece.token t :: (before ++ [last])).getLast? = some last := by
          rw [← List.cons_append, List.getLast?_concat]
        have hdrop : (Piece.token t :: (before ++ [last])).dropLast = .token t :: before := by
          rw [← List.cons_append, List.dropLast_concat]
        by_cases hlast : last = dollar
        · subst hlast
          simp [run, Scanner.step, hs, hgap, hends, hdrop, Function.comp_def]
        · simp [run, Scanner.step, hs, hgap, hends, hlast, Function.comp_def]

/-! ### Texts that end at a boundary -/

/-- The characters that may follow a token. -/
def boundaries : List Char := [' ', '(', ')', ',']

theorem cases_boundary {c : Char} (hc : c ∈ boundaries) :
    c = ' ' ∨ c = '(' ∨ c = ')' ∨ c = ',' := by
  simpa [boundaries] using hc

/-- The characters are scanned as the pieces, whatever follows after a boundary. -/
def Scans (cs : List Char) (ps : List Piece) : Prop :=
  ∀ rest : List Char, (∀ c ∈ rest.head?, c ∈ boundaries) →
    (plain (gap false)).run (cs ++ rest) = (ps ++ ·) <$> (plain (gap false)).run rest

variable {cs ds : List Char} {ps qs : List Piece}

theorem scans_token {s : Scan} {t : Token} (hfeed : (gap false).feed cs = ([], s))
    (ht : marksParameter t = false) (hfinish : s.finish = some [.token t])
    (hstep : ∀ c ∈ boundaries, s.step c = andBegin [t] c) : Scans cs [.token t] := by
  intro rest hrest
  rw [run_of_feed hfeed]
  exact run_of_andBegin ht hfinish fun c hc => hstep c (hrest c hc)

namespace Scans

theorem nil : Scans [] [] := fun rest _ => by simp

/-- A text that begins with a boundary may follow. -/
theorem append {c : Char} (h : Scans cs ps) (hc : c ∈ boundaries) (h' : Scans (c :: ds) qs) :
    Scans (cs ++ c :: ds) (ps ++ qs) := by
  intro rest hrest
  rw [List.append_assoc, h _ fun _ hmem => by rwa [← Option.some.inj hmem], h' rest hrest]
  simp [Function.comp_def]

theorem space (h : Scans cs ps) : Scans (' ' :: cs) (.blank false :: ps) := by
  intro rest hrest
  have hstep : Scanner.step (plain (gap false)) ' ' = ([.blank false], plain (gap false)) := by
    decide
  rw [List.cons_append, run, hstep]
  simp [h rest hrest, Function.comp_def]

theorem cases_punctuation {c : Char} (hc : c ∈ ['(', ')', ',']) : c = '(' ∨ c = ')' ∨ c = ',' := by
  simpa using hc

theorem stepMark_punctuation {c : Char} (hc : c ∈ ['(', ')', ',']) (d : Char) :
    stepMark [c] d = andBegin [.mark (String.ofList [c])] d := by
  have hopened : Enclosure.opened? c d = none := by
    have houter (e : Enclosure) : e.outer ≠ c := by
      rcases cases_punctuation hc with rfl | rfl | rfl <;> cases e <;> decide
    simp [Enclosure.opened?, houter]
  have hbegins : beginsMark [c, d] = false := by
    have hheads : ∀ m ∈ longMarks, m.toList.head? ≠ some c := by
      rcases cases_punctuation hc with rfl | rfl | rfl <;> decide
    rw [beginsMark, List.any_eq_false]
    intro m hm hprefix
    obtain ⟨tail, htail⟩ := List.isPrefixOf_iff_prefix.1 hprefix
    exact hheads m hm (by rw [← htail]; rfl)
  have hminus : c ≠ '-' := by
    rintro rfl
    simp at hc
  simp [stepMark, hminus, hopened, hbegins, isMark]

/-- A parenthesis or a comma is a token whatever follows. -/
theorem punctuation {c : Char} (hc : c ∈ ['(', ')', ',']) (h : Scans cs ps) :
    Scans (c :: cs) (.token (.mark (String.ofList [c])) :: ps) := by
  intro rest hrest
  have hfeed : (gap false).feed [c] = ([], .mark [c]) := by
    rcases cases_punctuation hc with rfl | rfl | rfl <;> decide
  have hfinish : (Scan.mark [c]).finish = some [.token (.mark (String.ofList [c]))] := by
    rcases cases_punctuation hc with rfl | rfl | rfl <;> decide
  have hmark : marksParameter (.mark (String.ofList [c])) = false := by
    rcases cases_punctuation hc with rfl | rfl | rfl <;> decide
  have hone := run_of_feed hfeed (cs ++ rest)
  rw [List.singleton_append] at hone
  rw [List.cons_append, hone, run_of_andBegin hmark hfinish fun d _ => stepMark_punctuation hc d,
    h rest hrest]
  simp [Function.comp_def]

end Scans

/-! ### Tokens -/

/-- Whether a text is one word: characters of words, the first of which begins no number. -/
def isOneWord (w : String) : Bool :=
  w.toList.all isWordChar && (w.toList.head?.map fun c => !c.isDigit && c ≠ '$').getD false

/-- A character of a sort to which no separator belongs is no separator. -/
theorem not_isSeparator {p : Char → Bool} {c : Char} (hc : p c = true)
    (hp : [' ', '\t', '\n', '\r'].any p = false) : isSeparator c = false := by
  have hne : ∀ d ∈ [' ', '\t', '\n', '\r'], c ≠ d := by
    rintro d hd rfl
    exact List.any_eq_false.1 hp c hd hc
  simpa [isSeparator, and_assoc] using hne

theorem begin_word {c : Char} (hword : isWordChar c = true) (hdigit : c.isDigit = false)
    (hdollar : c ≠ '$') (parameter : Bool) : begin parameter c = ([], .word [c]) := by
  have hne {d : Char} (hd : isWordChar d = false) : c ≠ d := by
    rintro rfl
    rw [hword] at hd
    cases hd
  have hseparator := not_isSeparator hword (by decide)
  have hpunctuation : isPunctuation c = false := by
    simp only [isWordChar, Bool.and_eq_true, Bool.not_eq_true'] at hword
    exact hword.1.2
  simp [begin, hseparator, hne (d := '\x00') (by decide), hdigit, hne (d := '\'') (by decide),
    hne (d := '"') (by decide), hdollar, hne (d := '`') (by decide), hpunctuation]

theorem feed_word (back : List Char) (h : ∀ c ∈ cs, isWordChar c = true) :
    (Scan.word back).feed cs = ([], .word (cs.reverse ++ back)) := by
  induction cs generalizing back with
  | nil => rfl
  | cons c cs ih =>
      rw [List.forall_mem_cons] at h
      simp [Scan.feed, Scan.step, h.1, ih (c :: back) h.2]

theorem scans_word {w : String} (h : isOneWord w = true) : Scans w.toList [.token (.word w)] := by
  obtain ⟨c, cs, hw⟩ : ∃ c cs, w.toList = c :: cs := by
    cases hw : w.toList with
    | nil => simp [isOneWord, hw] at h
    | cons c cs => exact ⟨c, cs, rfl⟩
  simp only [isOneWord, hw, List.all_cons, List.head?_cons, Option.map_some, Option.getD_some,
    Bool.and_eq_true, Bool.not_eq_true', List.all_eq_true, decide_eq_true_eq, ne_eq] at h
  obtain ⟨⟨hc, hcs⟩, hdigit, hdollar⟩ := h
  have hfeed : (gap false).feed w.toList = ([], .word (c :: cs).reverse) := by
    simp [hw, Scan.feed, Scan.step, begin_word hc hdigit hdollar, feed_word [c] hcs]
  have hback : ofBack (c :: cs).reverse = w := by
    rw [ofBack, List.reverse_reverse, ← hw, String.ofList_toList]
  refine scans_token hfeed rfl (by rw [Scan.finish, hback]) fun d hd => ?_
  have hends : isWordChar d = false ∧ d ≠ '\'' := by
    rcases cases_boundary hd with rfl | rfl | rfl | rfl <;> decide
  rw [← hback]
  simp [Scan.step, hends]

/-- The marks of operators. -/
def operatorMarks : List String := ["=", "!=", "<>", "<", "<=", ">", ">=", "+", "-", "*", "/"]

theorem scans_operator {m : String} (hm : m ∈ operatorMarks) :
    Scans m.toList [.token (.mark m)] := by
  have hfeed : (gap false).feed m.toList = ([], .mark m.toList) := by
    revert m
    decide
  have hparameter : marksParameter (.mark m) = false := by
    revert m
    decide
  have hfinish : (Scan.mark m.toList).finish = some [.token (.mark m)] := by
    revert m
    decide
  refine scans_token hfeed hparameter hfinish fun c hc => ?_
  rcases cases_boundary hc with rfl | rfl | rfl | rfl
  all_goals
    revert m
    decide

/-- What is read as a number so far is a token of its own before a boundary. -/
theorem scans_number {back : List Char} {point : Bool} {exponent : Nat}
    (hfeed : (gap false).feed cs = ([], .number back point exponent)) :
    Scans cs [.token (.number (ofBack back))] := by
  refine scans_token hfeed rfl rfl fun d hd => ?_
  rcases cases_boundary hd with rfl | rfl | rfl | rfl <;> simp [Scan.step]

theorem begin_digit {c : Char} (h : c.isDigit = true) (parameter : Bool) :
    begin parameter c = ([], .number [c] parameter 0) := by
  have hseparator := not_isSeparator h (by decide)
  have hnul : c ≠ '\x00' := by
    rintro rfl
    cases h
  simp [begin, hseparator, hnul, h]

theorem feed_digits (back : List Char) (point : Bool) (exponent : Nat)
    (h : ∀ c ∈ cs, c.isDigit = true) :
    (Scan.number back point exponent).feed cs =
      ([], .number (cs.reverse ++ back) point exponent) := by
  induction cs generalizing back with
  | nil => rfl
  | cons c cs ih =>
      rw [List.forall_mem_cons] at h
      simp [Scan.feed, Scan.step, h.1, ih (c :: back) h.2]

/-- A minus before a digit is a token. -/
theorem Scans.minus {c : Char} (hc : c.isDigit = true) (h : Scans (c :: cs) ps) :
    Scans ('-' :: c :: cs) (.token (.mark "-") :: ps) := by
  intro rest hrest
  have hstep : stepMark ['-'] c = andBegin [.mark "-"] c := by
    have hopened : Enclosure.opened? '-' c = none := by
      simp [Enclosure.opened?, Enclosure.outer]
    have hminus : c ≠ '-' := by
      rintro rfl
      revert hc
      decide
    have hbegins : beginsMark ['-', c] = false := by
      have hseconds : ∀ m ∈ longMarks, m.toList.head? = some '-' →
          m.toList[1]?.all (!·.isDigit) = true := by decide
      rw [beginsMark, List.any_eq_false]
      intro m hm hprefix
      obtain ⟨tail, htail⟩ := List.isPrefixOf_iff_prefix.1 hprefix
      have hsecond : m.toList[1]? = some c := by
        rw [← htail]
        rfl
      have hnot := hseconds m hm (by rw [← htail]; rfl)
      simp [hsecond, hc] at hnot
    have hmark : String.ofList ['-'] = "-" := by decide
    simp [stepMark, hopened, hminus, hbegins, isMark, hmark]
  have hone := run_of_feed (show (gap false).feed ['-'] = ([], .mark ['-']) by decide)
    (c :: cs ++ rest)
  have hnext : (plain (.mark ['-'])).run (c :: cs ++ rest) =
      (.token (.mark "-") :: ·) <$> (plain (gap false)).run (c :: cs ++ rest) := by
    refine run_of_andBegin (by decide) (by decide) fun d hd => ?_
    cases hd
    exact hstep
  rw [List.singleton_append] at hone
  rw [List.cons_append, hone, hnext, h rest hrest]
  simp [Function.comp_def]

/-! Texts between quotes, every quote inside written twice. -/

theorem feed_doubled {q : Quote} (hq : q ≠ .bytes) (cs back : List Char) :
    (Scan.quoted q back).feed (doubled q.char cs) = ([], .quoted q (cs.reverse ++ back)) := by
  induction cs generalizing back with
  | nil => rfl
  | cons c cs ih =>
      rw [doubled, List.flatMap_cons, ← doubled, Scan.feed_append]
      by_cases hc : c = q.char
      · subst hc
        simp [Scan.feed, Scan.step, ih]
      · simp [Scan.feed, Scan.step, hc, hq, ih]

theorem scans_quoted {q : Quote} (hq : q = .string ∨ q = .name) (s : String) :
    Scans (q.char :: (doubled q.char s.toList ++ [q.char])) [.token (q.token s)] := by
  have hbytes : q ≠ .bytes := by rcases hq with rfl | rfl <;> decide
  have hopen : (gap false).step q.char = ([], .quoted q []) := by
    rcases hq with rfl | rfl <;> decide
  have hfeed : (gap false).feed (q.char :: (doubled q.char s.toList ++ [q.char])) =
      ([], .quoteEnd q s.toList.reverse) := by
    rw [Scan.feed, hopen]
    simp [Scan.feed_append, feed_doubled hbytes, Scan.feed, Scan.step]
  have hback : ofBack s.toList.reverse = s := by
    rw [ofBack, List.reverse_reverse, String.ofList_toList]
  refine scans_token hfeed (by rcases hq with rfl | rfl <;> rfl) (by rw [Scan.finish, hback])
    fun d hd => ?_
  have hends : d ≠ q.char := by
    rcases cases_boundary hd with rfl | rfl | rfl | rfl <;> rcases hq with rfl | rfl <;> decide
  simp [Scan.step, hends, hback]

end Tabula
