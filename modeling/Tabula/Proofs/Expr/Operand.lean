import Tabula.Proofs.Expr.Ending

/-!
Reading operands: literals, names, calls and expressions in parentheses, each with what may stand
before it.
-/

namespace Tabula

open Reader

variable {g : Grammar} {k d : Nat} {t : Token} {ts rest : List Token} {p : Phrase}

/-! ### From a field to an operand -/

theorem finds_operand (h : Finds 7 (field g) ts p) : Finds 7 (operand g) ts p := by
  intro rest hrest
  simp [operand, columnRule, reference, h rest hrest, hrest.suffixes g p]

theorem finds_typed (htype : t.isType = false) (hkey : t.key ≠ "INTERVAL")
    (h : Finds 7 (field (Grammar.ofDepth (d + 1))) (t :: ts) p) :
    Finds 7 (typed (Grammar.ofDepth (d + 1))) (t :: ts) p := by
  intro rest hrest
  have hinterval (us : List Token) :
      interval (Grammar.ofDepth (d + 1)) (lexed (t :: us)) = some (none, lexed (t :: us)) := by
    simp [interval, word_of_ne (show headKey (t :: us) ≠ "INTERVAL" from hkey)]
  have hnone (us : List Token) :
      Grammar.ofDepth (d + 1) (.type true) (lexed (t :: us)) = some (none, lexed (t :: us)) := by
    simp [ofDepth_succ, Part.rule, typeRule, htype]
  have hoperand := finds_operand h rest hrest
  rw [List.cons_append] at hoperand ⊢
  simp [typed, hinterval, hnone, hoperand]

theorem finds_signed (hmark : ∀ m ∈ ["+", "-", "~"], t ≠ .mark m) (hkey : t.key ≠ "NOT")
    {operand : Reader (Option Phrase)} (h : Finds k operand (t :: ts) p) :
    Finds k (signedRule g operand) (t :: ts) p := by
  intro rest hrest
  have hne {m : String} (hm : m ∈ ["+", "-", "~"]) (us : List Token) :
      mark m (lexed (t :: us)) = some (false, lexed (t :: us)) :=
    mark_of_ne (by simpa using hmark m hm)
  have hnot (us : List Token) : word "NOT" (lexed (t :: us)) = some (false, lexed (t :: us)) :=
    word_of_ne hkey
  have hfound := h rest hrest
  rw [List.cons_append] at hfound ⊢
  simp [signedRule, hne, hnot, hfound]

/-! ### Signs -/

theorem finds_minus (h : Finds k (g .signed) ts p) (operand : Reader (Option Phrase)) :
    Finds k (signedRule g operand) (.mark "-" :: ts) (.minus p) := by
  intro rest hrest
  have hplus (us : List Token) : mark "+" (lexed (.mark "-" :: us)) =
      some (false, lexed (.mark "-" :: us)) := mark_of_ne (by simp)
  simp [signedRule, hplus, need, h rest hrest]

theorem finds_not (h : Finds k (g .condition) ts p) (operand : Reader (Option Phrase)) :
    Finds k (signedRule g operand) (.word "NOT" :: ts) (.not p) := by
  intro rest hrest
  have hmark (m : String) (us : List Token) : mark m (lexed (.word "NOT" :: us)) =
      some (false, lexed (.word "NOT" :: us)) := mark_of_ne (by simp)
  have hnot (us : List Token) : word "NOT" (lexed (.word "NOT" :: us)) = some (true, lexed us) :=
    word_of_eq (headKey_word (by simp) us)
  simp [signedRule, hmark, hnot, need, h rest hrest]

/-! ### Literals -/

theorem finds_field (h : Finds k (primary g) ts p) : Finds k (field g) ts p := by
  intro rest hrest
  rw [field, either_of_some (h rest hrest)]

theorem finds_number (g : Grammar) (n : String) : Finds 7 (field g) [.number n] (.number n) :=
  finds_field fun rest _ => by simp [primary]

theorem finds_string (g : Grammar) (s : String) : Finds 7 (field g) [.string s] (.string s) := by
  refine finds_field fun rest hrest => ?_
  have hmore (bound : Nat) : moreStrings bound (lexed rest) = some (0, lexed rest) := by
    rcases rest with _ | ⟨t, tail⟩
    · cases bound <;> rfl
    · rcases hrest.head t rfl with ⟨s, -, -, rfl⟩ | ⟨s, -, -, rfl⟩ <;> cases bound <;> rfl
  simp [primary, hmore]

/-- The words for truth values. -/
def boolWord (b : Bool) : String := if b then "TRUE" else "FALSE"

theorem key_boolWord : ∀ b, (Token.word (boolWord b)).key = boolWord b := by decide +kernel

theorem finds_bool (g : Grammar) (b : Bool) :
    Finds 7 (field g) [.word (boolWord b)] (.bool b) := by
  refine finds_field fun rest _ => ?_
  cases b with
  | false =>
      have hkey : headKey (.word "FALSE" :: rest) = "FALSE" := key_boolWord false
      simp [primary, word, hkey, boolWord]
  | true =>
      have hkey : headKey (.word "TRUE" :: rest) = "TRUE" := key_boolWord true
      simp [primary, word, hkey, boolWord]

/-! ### Names -/

/-- A column's name in double quotes. -/
theorem finds_quotedName (g : Grammar) (n : String) :
    Finds 7 (field g) [.name n] (.path [] (.quoted n) []) := by
  intro rest hrest
  have hprimary : primary g (lexed (.name n :: rest)) = some (none, lexed (.name n :: rest)) := rfl
  have hparen : rest.head? ≠ some (.mark "(") := hrest.head?_ne rfl
  have hcall : call g false (lexed (.name n :: rest)) = some (none, lexed (.name n :: rest)) := by
    simp [call, bareCall, bareCalls, ← List.head?_eq_getElem?, hparen]
  have hname : nameOf false (lexed (.name n :: rest)) =
      some (some (.path [] (.quoted n) []), lexed rest) := by
    simp [nameOf, nameIf]
  rw [List.singleton_append, field, either_of_none hprimary, either_of_none hcall, hname]

/-- The words that the grammar lists, by what they may be. -/
def listedWords : List (List String) :=
  [typeWords, nameWords, calledWords, reservedWords, bareCalls, clauseWords]

theorem not_mem_of_isFree {w : String} (h : (Token.word w).isFree = true) {ws : List String}
    (hws : ws ∈ listedWords) : Text.upper w ∉ ws := by
  simpa using List.all_eq_true.1 h ws hws

theorem key_ne_of_isFree {w : String} (h : (Token.word w).isFree = true) {k : String}
    (hk : k ∈ listedWords.flatten) : Text.upper w ≠ k := by
  rintro rfl
  obtain ⟨ws, hws, hmem⟩ := List.mem_flatten.1 hk
  exact not_mem_of_isFree h hws hmem

/-- Words that the grammar gives a use of its own without listing them. -/
def ownWords : List String := ["IF", "LAMBDA", "CONNECT_BY_ROOT"]

theorem bareCall_none {key : String} (h : key ∉ ["CASE", "ANY", "CONNECT_BY_ROOT", "IF", "MAP"]) :
    bareCall g key = none := by
  unfold bareCall
  split
  · simp at h
  · simp at h
  · simp at h
  · simp at h
  · simp at h
  · rfl

/-- A column's name that is a word without any other use. -/
theorem finds_bareName (g : Grammar) {w : String} (hfree : (Token.word w).isFree = true)
    (hown : Text.upper w ∉ ownWords) :
    Finds 7 (field g) [.word w] (.path [] (.bare w) []) := by
  intro rest hrest
  have hne {k : String} (hk : k ∈ listedWords.flatten) : Text.upper w ≠ k :=
    key_ne_of_isFree hfree hk
  have hprimary : primary g (lexed (.word w :: rest)) = some (none, lexed (.word w :: rest)) := by
    have hword {k : String} (hk : k ∈ listedWords.flatten) :
        word k (lexed (.word w :: rest)) = some (false, lexed (.word w :: rest)) :=
      word_of_ne (hne hk)
    have hnull := hword (k := "NULL") (by decide +kernel)
    have htrue := hword (k := "TRUE") (by decide +kernel)
    have hfalse := hword (k := "FALSE") (by decide +kernel)
    simp [primary, hnull, htrue, hfalse]
  have hparen : rest.head? ≠ some (.mark "(") := hrest.head?_ne rfl
  have hbare : bareCall g (Text.upper w) = none := by
    simp only [ownWords, List.mem_cons, List.not_mem_nil, or_false, not_or] at hown
    have hcase : Text.upper w ≠ "CASE" := hne (by decide +kernel)
    have hany : Text.upper w ≠ "ANY" := hne (by decide +kernel)
    have hmap : Text.upper w ≠ "MAP" := hne (by decide +kernel)
    exact bareCall_none (by simp [hcase, hany, hmap, hown])
  have hcalls : Text.upper w ∉ bareCalls := not_mem_of_isFree hfree (by simp [listedWords])
  have hcall : call g false (lexed (.word w :: rest)) = some (none, lexed (.word w :: rest)) := by
    simp [call, Token.key, hbare, hcalls, ← List.head?_eq_getElem?, hparen]
  have hplaceholder : placeholder (lexed (.word w :: rest)) =
      some (none, lexed (.word w :: rest)) := placeholder_none (by simp)
  have hmay : (Token.word w).mayName = true := by
    have hunion : Text.upper w ≠ "UNION" := hne (by decide +kernel)
    have hcalled : Text.upper w ∉ calledWords := not_mem_of_isFree hfree (by simp [listedWords])
    have hreserved : Text.upper w ∉ reservedWords := not_mem_of_isFree hfree (by simp [listedWords])
    simp [Token.mayName, Token.isPlain, Token.key, hunion, hcalled, hreserved]
  have hname : nameOf false (lexed (.word w :: rest)) =
      some (some (.path [] (.bare w) []), lexed rest) := by
    simp [nameOf, nameIf, hplaceholder, hmay, Token.text]
  rw [List.singleton_append, field, either_of_none hprimary, either_of_none hcall, hname]

/-! ### The null, which is a type as well -/

theorem type_null (h : MayFollow 7 rest) :
    typeRule g true (lexed (.word "NULL" :: rest)) =
      some (some (.type "NULL" false), lexed rest) := by
  have hkey : (Token.word "NULL").key = "NULL" := by decide +kernel
  have htype : (Token.word "NULL").isType = true := by decide +kernel
  have hparen := h.mark (m := "(") rfl
  have hbracket := h.mark (m := "[") rfl
  have hunsigned := h.word (w := "UNSIGNED") rfl
  have hlist := h.word (w := "LIST") rfl
  have harray := h.word (w := "ARRAY") rfl
  have hlistOf : listOf g (.type "NULL" false) (lexed rest) =
      some (.type "NULL" false, lexed rest) := by
    have hlists : bracketLists g (lexed rest) ((lexed rest).length + 1) false false
        (.type "NULL" false) (lexed rest) = some (.type "NULL" false, lexed rest) := by
      simp [bracketLists, hbracket]
    simp only [listOf, bind_apply]
    rw [goOn_of_none (by simp [hlist])]
    simp [harray, hlists]
  simp [typeRule, htype, wordedType, hkey, hparen, Lexeme.key, nestedTypeWords, timestampWords,
    provided, hunsigned, hlistOf]

theorem starPart_of_not_mem {ks : List String} (h : headKey ts ∉ ks) :
    starPart g ks (lexed ts) = some (⟨⟩, lexed ts) := by
  simp [starPart, oneOf_of_not_mem h]

/-- A star that stands after an operand has no parts, or leaves out nothing. -/
theorem primary_star (hg : Misses (g .assignment)) (h : MayFollow 7 (.mark "*" :: rest)) :
    ∃ us, primary g (lexed (.mark "*" :: rest)) = some (some (.form "Star"), lexed us) := by
  obtain ⟨⟨hexcept, hreplace, hrename⟩, hcolumns, hexcluded⟩ := h.star rfl
  rw [List.tail_cons] at hexcept hreplace hrename hcolumns hexcluded
  have hcall : ¬ (headKey rest = "COLUMNS" ∧ rest[1]? = some (.mark "(")) :=
    fun hboth => hcolumns hboth.1 hboth.2
  by_cases hkey : headKey rest = "EXCLUDE"
  · have hend : MayFollow 0 rest.tail := by
      refine mayFollow_end_iff.2 ⟨fun t ht => hexcluded hkey t ?_, fun t ht => h.usual t ?_⟩
      · rcases rest with _ | ⟨u, _ | ⟨v, vs⟩⟩ <;> simp_all
      · exact List.mem_cons_of_mem _ (List.mem_of_mem_tail ht)
    have hpart : starPart g ["EXCEPT", "EXCLUDE"] (lexed rest) = some (⟨⟩, lexed rest.tail) := by
      have hparen : rest[1]? ≠ some (.mark "(") := by
        simpa using hend.head?_ne (m := "(") rfl
      simp [starPart, oneOf_of_mem (show headKey rest ∈ ["EXCEPT", "EXCLUDE"] by simp [hkey]),
        hparen, hg rest.tail hend, hend.aliasOf g true none]
    have hnone {k : String} (hk : isStopWord 0 k = false) :
        starPart g [k] (lexed rest.tail) = some (⟨⟩, lexed rest.tail) :=
      starPart_of_not_mem (by simpa using hend.headKey_ne hk)
    exact ⟨rest.tail, by simp [primary, hkey, hpart, hnone (k := "REPLACE") rfl,
      hnone (k := "RENAME") rfl]⟩
  · have hpart : starPart g ["EXCEPT", "EXCLUDE"] (lexed rest) = some (⟨⟩, lexed rest) :=
      starPart_of_not_mem (by simp [hexcept, hkey])
    have hnone {k : String} (hk : headKey rest ≠ k) :
        starPart g [k] (lexed rest) = some (⟨⟩, lexed rest) :=
      starPart_of_not_mem (by simpa using hk)
    exact ⟨rest, by simp [primary, hcall, hpart, hnone hreplace, hnone hrename]⟩

/-- What may follow an operand is not a value that the operand is a type of. -/
theorem primary_after (hg : Misses (g .assignment)) (h : MayFollow 7 rest) :
    ∃ found us, primary g (lexed rest) = some (found, lexed us) ∧
      (found = none ∨ found = some (.form "Star")) := by
  rcases rest with _ | ⟨t, tail⟩
  · exact ⟨none, [], rfl, .inl rfl⟩
  by_cases hstar : t = .mark "*"
  · subst hstar
    obtain ⟨us, hus⟩ := primary_star hg h
    exact ⟨_, us, hus, .inr rfl⟩
  · refine ⟨none, t :: tail, ?_, .inl rfl⟩
    rcases h.head t rfl with ⟨s, hs, -, rfl⟩ | ⟨s, hs, -, rfl⟩
    · simp only [stopMarks, List.mem_cons, List.not_mem_nil, or_false] at hs
      rcases hs with rfl | rfl | rfl | rfl | rfl | rfl | rfl | rfl | rfl | rfl | rfl | rfl | rfl
      all_goals first | rfl | exact absurd rfl hstar
    · have hword {k : String} (hk : isStopWord 7 k = false) := h.word hk
      simp [primary, hword (k := "NULL") rfl, hword (k := "TRUE") rfl, hword (k := "FALSE") rfl]

theorem finds_null : Finds 7 (typed (Grammar.ofDepth (d + 7))) [.word "NULL"] .null := by
  intro rest hrest
  have hkey (us : List Token) : headKey (.word "NULL" :: us) = "NULL" := headKey_word (by simp) us
  have hinterval : interval (Grammar.ofDepth (d + 7)) (lexed (.word "NULL" :: rest)) =
      some (none, lexed (.word "NULL" :: rest)) := by
    simp [interval, word_of_ne (show headKey (.word "NULL" :: rest) ≠ "INTERVAL" by simp [hkey])]
  have htype : Grammar.ofDepth (d + 7) (.type true) (lexed (.word "NULL" :: rest)) =
      some (some (.type "NULL" false), lexed rest) := type_null hrest
  have hprimary : Finds 7 (primary (Grammar.ofDepth (d + 7))) [.word "NULL"] .null :=
    fun us _ => by simp [primary, word_of_eq (hkey us)]
  have hoperand := finds_operand (finds_field hprimary) rest hrest
  obtain ⟨found, us, hfound, hcases⟩ :=
    primary_after (misses_assignment_ofDepth (d + 1)) hrest
  rw [List.singleton_append] at hoperand ⊢
  rcases hcases with rfl | rfl
  · simp [typed, hinterval, htype, hfound, hoperand]
  · simp [typed, hinterval, htype, hfound, hoperand]

end Tabula
