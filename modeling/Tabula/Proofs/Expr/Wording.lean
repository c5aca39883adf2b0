import Std.Data.String.ToInt
import Tabula.Proofs.Expr.Canonical

/-!
Words in texts of expressions. Every literal has a text of its own: between quotes, one of three
words, or a numeral that shows whether it writes an integer or a double. A plain identifier is
none of these words and no numeral, and holds nothing that separates the parts of a text.
-/

namespace Tabula

open Number

/-! ### Literals -/

/-- The characters in numerals. -/
def isNumeralChar (c : Char) : Bool := c.isDigit || ['-', '+', '.', 'e'].contains c

/-- A number is written as a numeral, with a minus before it if it is negative. -/
theorem exists_numeral {x : Float} (finite : x.isFinite = true) :
    ∃ (sign : List Char) (d : Decimal), (sign = [] ∨ sign = ['-']) ∧
      (Value.floatText x).toList = sign ++ d.numeral.chars := by
  obtain ⟨negative, magnitude, hlt, rfl⟩ := exists_ofMagnitude finite
  obtain ⟨m, e, hparts, -⟩ := exists_shortest hlt
  rw [Value.floatText, Layout.ofFloat, hparts negative]
  refine ⟨if negative then ['-'] else [], shortest m e, by cases negative <;> simp, ?_⟩
  rw [← toList_text]
  cases negative <;> simp

theorem Numeral.IsFormed.isNumeralChar {n : Numeral} (h : n.IsFormed) :
    ∀ c ∈ n.chars, isNumeralChar c = true := by
  have hdigit {cs : List Char} (hcs : IsDigits cs) : ∀ c ∈ cs, Tabula.isNumeralChar c = true :=
    fun c hc => by simp [Tabula.isNumeralChar, hcs c hc]
  have hfraction : ∀ c ∈ n.fractionChars, Tabula.isNumeralChar c = true := by
    unfold fractionChars
    split
    · simp
    · exact List.forall_mem_cons.2 ⟨by decide, hdigit h.fraction⟩
  have hpower : ∀ c ∈ n.powerChars, Tabula.isNumeralChar c = true := by
    unfold powerChars
    split
    · simp
    · next negative digits hpower =>
        refine List.forall_mem_cons.2 ⟨by decide, List.forall_mem_cons.2 ⟨?_, ?_⟩⟩
        · cases negative <;> decide
        · exact hdigit (h.power _ hpower).2
  exact List.forall_mem_append.2 ⟨hdigit h.whole, List.forall_mem_append.2 ⟨hfraction, hpower⟩⟩

theorem Numeral.exists_mark {n : Numeral} (h : n.fraction ≠ [] ∨ n.power ≠ none) :
    ∃ c ∈ n.chars, c = '.' ∨ c = 'e' := by
  rcases h with h | h
  · exact ⟨'.', by simp [chars, fractionChars, h], .inl rfl⟩
  · obtain ⟨p, hp⟩ := Option.ne_none_iff_exists'.1 h
    exact ⟨'e', by simp [chars, powerChars, hp], .inr rfl⟩

/-- An integer is written with digits, after a minus if it is negative. -/
theorem toList_int (n : Int) : ∃ (sign : List Char) (k : Nat), (sign = [] ∨ sign = ['-']) ∧
    (toString n).toList = sign ++ Nat.toDigits 10 k := by
  cases n with
  | ofNat n => exact ⟨[], n, .inl rfl, toList_toString n⟩
  | negSucc n =>
      refine ⟨['-'], n + 1, .inr rfl, ?_⟩
      rw [← toList_toString]
      exact String.toList_append

namespace Literal

/-- A text between quotes, one of three words, or a number. -/
theorem text_cases (l : Literal) : (∃ s, l = .str s) ∨ l.text ∈ ["NULL", "TRUE", "FALSE"] ∨
    (∃ c ∈ l.text.toList.head?, c = '-' ∨ c.isDigit = true) ∧
      ∀ c ∈ l.text.toList, isNumeralChar c = true := by
  have hhead {sign cs : List Char} (hsign : sign = [] ∨ sign = ['-']) (hne : cs ≠ [])
      (hcs : Numeral.IsDigits cs) (rest : List Char) :
      ∃ c ∈ (sign ++ (cs ++ rest)).head?, c = '-' ∨ c.isDigit = true := by
    obtain ⟨c, cs, rfl⟩ := List.exists_cons_of_ne_nil hne
    rcases hsign with rfl | rfl
    · exact ⟨c, rfl, .inr (hcs c List.mem_cons_self)⟩
    · exact ⟨'-', rfl, .inl rfl⟩
  have hsigned {sign cs : List Char} (hsign : sign = [] ∨ sign = ['-'])
      (hcs : ∀ c ∈ cs, isNumeralChar c = true) : ∀ c ∈ sign ++ cs, isNumeralChar c = true := by
    refine List.forall_mem_append.2 ⟨?_, hcs⟩
    rcases hsign with rfl | rfl <;> simp [isNumeralChar]
  cases l with
  | null => exact .inr (.inl (by simp [text]))
  | bool b => exact .inr (.inl (by cases b <;> simp [text]))
  | str s => exact .inl ⟨s, rfl⟩
  | int n =>
      obtain ⟨sign, k, hsign, htext⟩ := toList_int n
      have hdigits := Numeral.isDigits_toDigits k
      rw [text, htext]
      refine .inr (.inr ⟨?_, hsigned hsign fun c hc => by simp [isNumeralChar, hdigits c hc]⟩)
      simpa using hhead hsign Nat.toDigits_ne_nil hdigits []
  | float x finite =>
      obtain ⟨sign, d, hsign, htext⟩ := exists_numeral finite
      have hformed := isFormed_numeral d
      rw [text, htext]
      exact .inr (.inr ⟨hhead hsign hformed.nonempty hformed.whole _,
        hsigned hsign hformed.isNumeralChar⟩)

theorem toList_text_ne_nil (l : Literal) : l.text.toList ≠ [] := by
  rcases l.text_cases with ⟨s, rfl⟩ | hword | ⟨⟨c, hc, -⟩, -⟩
  · simp [text, quoteString]
  · have hwords : "" ∉ ["NULL", "TRUE", "FALSE"] := by decide
    exact fun hnil => hwords (String.toList_eq_nil_iff.1 hnil ▸ hword)
  · exact List.ne_nil_of_mem (List.mem_of_head? hc)

/-- What is no integer has some other character than integers have. -/
theorem exists_off_integers {l : Literal} (h : ∀ n, l ≠ .int n) :
    ∃ c ∈ l.text.toList, c.isDigit = false ∧ c ≠ '-' := by
  cases l with
  | null => exact ⟨'N', by decide⟩
  | bool b => exact ⟨'E', by cases b <;> decide⟩
  | str s => exact ⟨'\'', by simp [text, quoteString], by decide⟩
  | int n => exact absurd rfl (h n)
  | float x finite =>
      obtain ⟨sign, d, -, htext⟩ := exists_numeral finite
      obtain ⟨c, hc, hmark⟩ := Numeral.exists_mark (marked_numeral d)
      refine ⟨c, by rw [text, htext]; exact List.mem_append_right _ hc, ?_⟩
      rcases hmark with rfl | rfl <;> decide

theorem off_integers_of_int (n : Int) : ∀ c ∈ (int n).text.toList, c.isDigit = true ∨ c = '-' := by
  obtain ⟨sign, k, hsign, htext⟩ := toList_int n
  rw [text, htext]
  refine List.forall_mem_append.2 ⟨?_, fun c hc => .inl (Numeral.isDigits_toDigits k c hc)⟩
  rcases hsign with rfl | rfl <;> simp

/-- No two literals have the same text. -/
theorem text_injective {l l' : Literal} (h : l.text = l'.text) : l = l' := by
  have hread {l : Literal} (hl : ∀ n, l ≠ .int n) : Expr.parse l.text none = .ok (.literal l) :=
    (Expr.Restored.literal fun n hn => absurd hn (hl n)).alone.parse none
  have hmixed {n : Int} {l : Literal} (hl : ∀ n, l ≠ .int n) : (int n).text ≠ l.text := by
    intro heq
    obtain ⟨c, hc, hdigit, hminus⟩ := exists_off_integers hl
    rcases off_integers_of_int n c (heq ▸ hc) with hd | rfl
    · rw [hd] at hdigit
      cases hdigit
    · exact hminus rfl
  by_cases hl : ∃ n, l = .int n
  · obtain ⟨n, rfl⟩ := hl
    by_cases hl' : ∃ n, l' = .int n
    · obtain ⟨m, rfl⟩ := hl'
      exact congrArg int (Int.repr_injective h)
    · exact absurd h (hmixed (not_exists.1 hl'))
  · by_cases hl' : ∃ n, l' = .int n
    · obtain ⟨m, rfl⟩ := hl'
      exact absurd h.symm (hmixed (not_exists.1 hl))
    · have hsame := hread (not_exists.1 hl)
      rw [h, hread (not_exists.1 hl'), Except.ok.injEq, Expr.literal.injEq] at hsame
      exact hsame.symm

end Literal

/-! ### Names -/

/-- The words in texts of expressions. -/
def textWords : List String := ["NULL", "TRUE", "FALSE", "AND", "OR", "NOT", "IS"]

/-- A plain identifier: letters, digits and underscores, beginning with no digit, and none of the
words in texts of expressions. -/
structure IsIdentifier (name : String) : Prop where
  word : ∀ c ∈ name.toList, Text.isWord c = true
  begins : ∃ c ∈ name.toList.head?, c.isDigit = false
  free : name ∉ textWords

/-- The characters that separate the parts of texts. -/
def separators : List Char := [' ', ',', '(', ')', '[', ']', '\'', '=', '\n']

theorem IsIdentifier.not_separator {name : String} (h : IsIdentifier name) :
    ∀ c ∈ name.toList, c ∉ separators := by
  have hmarks : (separators.all fun c => Text.covered markRanges c || Text.isBlank c) = true := by
    decide
  intro c hc hseparator
  rcases Bool.or_eq_true_iff.1 (List.all_eq_true.1 hmarks c hseparator) with hmark | hblank
  · exact ne_of_isWord (h.word c hc) hmark rfl
  · rw [isBlank_of_isWord (h.word c hc)] at hblank
    cases hblank

/-- A literal without quotes is free of separators. -/
theorem Literal.not_separator {l : Literal} (hl : ∀ s, l ≠ .str s) :
    ∀ c ∈ l.text.toList, c ∉ separators := by
  have hwords : (["NULL", "TRUE", "FALSE"].all fun w =>
      w.toList.all fun c => !separators.contains c) = true := by decide
  have hnumeral : (separators.all fun c => !isNumeralChar c) = true := by decide
  rcases l.text_cases with ⟨s, rfl⟩ | hword | ⟨-, hall⟩
  · exact absurd rfl (hl s)
  · simpa using List.all_eq_true.1 hwords _ hword
  · intro c hc hseparator
    simpa [hall c hc] using List.all_eq_true.1 hnumeral c hseparator

/-- A name is no literal. -/
theorem IsIdentifier.ne_literal {name : String} (h : IsIdentifier name) {l : Literal}
    (hl : ∀ s, l ≠ .str s) : name ≠ l.text := by
  rintro rfl
  rcases l.text_cases with ⟨s, rfl⟩ | hword | ⟨⟨c, hc, hnumber⟩, -⟩
  · exact hl s rfl
  · exact h.free (List.mem_append_left ["AND", "OR", "NOT", "IS"] hword)
  · obtain ⟨d, hd, hdigit⟩ := h.begins
    obtain rfl : c = d := Option.some.inj (hc.symm.trans hd)
    rcases hnumber with rfl | hnumber
    · exact ne_of_isWord (h.word '-' (List.mem_of_head? hc)) (by decide) rfl
    · rw [hnumber] at hdigit
      cases hdigit

end Tabula
