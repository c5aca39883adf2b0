import Mathlib.Data.List.Forall2
import Tabula.Proofs.Expr.Scanner

/-!
Scanning loses no character. A text is made of pieces, one after another: what has been scanned so
far is the characters of the pieces and those of what has been begun. Only a null character between
tokens ends a text before its end.
-/

namespace Tabula

open Scan Scanner

/-- Underscores between digits say nothing. -/
def digitsOf (cs : List Char) : List Char := cs.filter (· ≠ '_')

theorem digitsOf_concat {c : Char} (cs : List Char) (hc : c ≠ '_') :
    digitsOf (cs ++ [c]) = digitsOf cs ++ [c] := by
  simp [digitsOf, hc]

theorem ne_underscore_of_isDigit {c : Char} (h : c.isDigit = true) : c ≠ '_' := by
  rintro rfl
  cases h

/-- The characters that a piece stands for. -/
inductive Piece.StandsFor : Piece → List Char → Prop
  | word (cs : List Char) : StandsFor (.token (.word (String.ofList cs))) cs
  | number (cs : List Char) : StandsFor (.token (.number (String.ofList (digitsOf cs)))) cs
  | mark (cs : List Char) : StandsFor (.token (.mark (String.ofList cs))) cs
  | string (cs : List Char) :
      StandsFor (.token (.string (String.ofList cs))) ('\'' :: doubled '\'' cs ++ ['\''])
  | name (cs : List Char) :
      StandsFor (.token (.name (String.ofList cs))) ('"' :: doubled '"' cs ++ ['"'])
  /-- A notation that no expression has. -/
  | literal (form : String) (cs : List Char) : StandsFor (.token (.literal form)) cs
  | lineComment (cs : List Char) (h : ∀ c ∈ cs, isLineBreak c = false) :
      StandsFor (.comment (String.ofList cs)) ('-' :: '-' :: cs)
  | comment (e : Enclosure) (cs : List Char) :
      StandsFor (.comment (String.ofList cs)) (e.outer :: e.inner :: cs ++ [e.inner, e.closer])
  | blank {c : Char} (h : isSeparator c = true) : StandsFor (.blank (isLineBreak c)) [c]

/-- The characters are those of the pieces, one after another. -/
def Spelled (ps : List Piece) (cs : List Char) : Prop :=
  ∃ parts, List.Forall₂ Piece.StandsFor ps parts ∧ parts.flatten = cs

namespace Spelled

variable {ps qs : List Piece} {cs ds : List Char} {p : Piece}

theorem nil : Spelled [] [] := ⟨[], .nil, rfl⟩

theorem one (h : p.StandsFor cs) : Spelled [p] cs := ⟨[cs], .cons h .nil, by simp⟩

theorem append (h : Spelled ps cs) (h' : Spelled qs ds) : Spelled (ps ++ qs) (cs ++ ds) := by
  obtain ⟨parts, hparts, rfl⟩ := h
  obtain ⟨parts', hparts', rfl⟩ := h'
  exact ⟨parts ++ parts', List.rel_append hparts hparts', by simp⟩

end Spelled

/-- The pieces that a step gives and what has been begun after it are the characters. -/
def Accounts {σ : Type} (holds : σ → List Char → Prop) (cs : List Char) (r : List Piece × σ) :
    Prop :=
  ∃ done rest, cs = done ++ rest ∧ Spelled r.1 done ∧ holds r.2 rest

theorem Accounts.after {σ : Type} {holds : σ → List Char → Prop} {cs ds : List Char}
    {ps : List Piece} {r : List Piece × σ} (h : Accounts holds cs r) (hps : Spelled ps ds) :
    Accounts holds (ds ++ cs) (ps ++ r.1, r.2) := by
  obtain ⟨done, rest, rfl, hdone, hrest⟩ := h
  exact ⟨ds ++ done, rest, by simp, hps.append hdone, hrest⟩

namespace Scan

/-- The characters of what has been begun. -/
def Holds : Scan → List Char → Prop
  | gap _, cs => cs = []
  | word back, cs => cs = back.reverse
  | number back .., cs => digitsOf cs = back.reverse
  | numberSign back _ sign, cs =>
      ∃ digits, cs = digits ++ [sign] ∧ digitsOf digits = back.reverse ∧ sign ≠ '_'
  | numberLine back .., cs => ∃ digits, cs = digits ++ ['_'] ∧ digitsOf digits = back.reverse
  | quoted .string back, cs => cs = '\'' :: doubled '\'' back.reverse
  | quoted .name back, cs => cs = '"' :: doubled '"' back.reverse
  | quoteEnd .string back, cs => cs = '\'' :: doubled '\'' back.reverse ++ ['\'']
  | quoteEnd .name back, cs => cs = '"' :: doubled '"' back.reverse ++ ['"']
  | quoted .national _, _ | quoted .bytes _, _ | quoteEnd .national _, _ | quoteEnd .bytes _, _
  | escape _, _ => True
  | mark pending, cs => cs = pending
  | lineComment back, cs => cs = '-' :: '-' :: back.reverse ∧ ∀ c ∈ back, isLineBreak c = false
  | blockComment e _ back last, cs =>
      cs = e.outer :: e.inner :: back.reverse ∧
        (last = some e.inner → back.head? = some e.inner)
  | ended, cs => cs.head? = some '\x00'

variable {s : Scan} {c : Char} {cs : List Char}

/-- Nothing is complete yet. -/
theorem accounts_nothing (h : s.Holds cs) : Accounts Holds cs ([], s) := ⟨[], cs, rfl, .nil, h⟩

theorem accounts_begin (parameter : Bool) (c : Char) : Accounts Holds [c] (begin parameter c) := by
  unfold begin
  split
  · rename_i h
    exact ⟨[c], [], rfl, .one (.blank h), rfl⟩
  split
  · rename_i h
    exact accounts_nothing (by simp [Holds, h])
  split
  · rename_i h
    exact accounts_nothing (digitsOf_concat [] (ne_underscore_of_isDigit h))
  split
  · rename_i h
    exact accounts_nothing (by simp [Holds, h, doubled])
  split
  · rename_i h
    exact accounts_nothing (by simp [Holds, h, doubled])
  split
  · exact ⟨[c], [], rfl, .one (String.singleton_eq_ofList ▸ .mark [c]), rfl⟩
  split
  · exact accounts_nothing rfl
  · exact accounts_nothing rfl

theorem accounts_andBegin {done : List Token} {ds : List Char}
    (h : Spelled (done.map .token) ds) (c : Char) : Accounts Holds (ds ++ [c]) (andBegin done c) :=
  (accounts_begin _ c).after h

theorem accounts_token {t : Token} {ds : List Char} (h : Piece.StandsFor (.token t) ds) (c : Char) :
    Accounts Holds (ds ++ [c]) (andBegin [t] c) := by
  have hone : Spelled ([t].map .token) ds := .one h
  exact accounts_andBegin hone c

theorem standsFor_singleton (c : Char) :
    Piece.StandsFor (.token (.mark (String.singleton c))) [c] := by
  rw [String.singleton_eq_ofList]
  exact .mark [c]

theorem eq_of_opened? {c d : Char} {e : Enclosure} (h : Enclosure.opened? c d = some e) :
    e.outer = c ∧ e.inner = d := by
  simpa using List.find?_some h

theorem accounts_stepMark (pending : List Char) (c : Char) :
    Accounts Holds (pending ++ [c]) (stepMark pending c) := by
  induction pending with
  | nil => exact accounts_begin false c
  | cons d ds ih =>
      rw [stepMark]
      split
      · rename_i h
        obtain ⟨rfl, rfl, rfl⟩ := h
        exact accounts_nothing (by simp [Holds])
      split
      · rename_i e h
        split at h
        · rename_i hds
          obtain rfl := List.isEmpty_iff.1 hds
          obtain ⟨rfl, rfl⟩ := eq_of_opened? h
          exact accounts_nothing (by simp [Holds])
        · cases h
      split
      · exact accounts_nothing rfl
      split
      · exact accounts_token (.mark (d :: ds)) c
      · exact ih.after (.one (standsFor_singleton d))

theorem accounts_stepComment {e : Enclosure} {depth : Nat} {back : List Char} {last : Option Char}
    (h : (blockComment e depth back last).Holds cs) (c : Char) :
    Accounts Holds (cs ++ [c]) (stepComment e depth back last c) := by
  obtain ⟨rfl, hlast⟩ := h
  have hmore (depth : Nat) {last' : Option Char} (hlast' : last' = some e.inner → c = e.inner) :
      (blockComment e depth (c :: back) last').Holds
        (e.outer :: e.inner :: back.reverse ++ [c]) :=
    ⟨by simp, fun h => by rw [hlast' h]; rfl⟩
  unfold stepComment
  split
  · rename_i hclosed
    obtain ⟨rfl, rfl⟩ := hclosed
    split
    · obtain ⟨before, rfl⟩ : ∃ before, back = e.inner :: before := by
        cases back with
        | nil => cases hlast rfl
        | cons d before => exact ⟨before, by rw [Option.some.inj (hlast rfl)]⟩
      exact ⟨_, [], by simp, .one (.comment e before.reverse), rfl⟩
    · exact accounts_nothing (hmore _ Option.some.inj)
  · split
    · exact accounts_nothing (hmore _ nofun)
    · refine accounts_nothing (hmore _ fun h => ?_)
      have hblank : ' ' ≠ e.inner := by cases e <;> decide
      have hlast' := Option.some.inj h
      split at hlast'
      · exact absurd hlast' hblank
      · exact hlast'

theorem holds_marked {back : List Char} {q : Quote} (h : Quote.marked? back = some q) :
    (quoted q []).Holds cs := by
  unfold Quote.marked? at h
  split at h
  all_goals cases h
  all_goals trivial

theorem standsFor_number {back : List Char} (h : digitsOf cs = back.reverse) :
    Piece.StandsFor (.token (.number (ofBack back))) cs := by
  rw [ofBack, ← h]
  exact .number cs

theorem standsFor_quoteEnd {q : Quote} {back : List Char} (h : (quoteEnd q back).Holds cs) :
    Piece.StandsFor (.token (q.token (ofBack back))) cs := by
  cases q with
  | string => exact (show cs = _ from h) ▸ .string back.reverse
  | name => exact (show cs = _ from h) ▸ .name back.reverse
  | national | bytes => exact .literal _ cs

theorem accounts_number {back : List Char} {point : Bool} {exponent : Nat}
    (h : digitsOf cs = back.reverse) (c : Char) :
    Accounts Holds (cs ++ [c]) ((number back point exponent).step c) := by
  have hmore (hc : c ≠ '_') : digitsOf (cs ++ [c]) = (c :: back).reverse := by
    rw [digitsOf_concat cs hc, h, List.reverse_cons]
  have hnumber := standsFor_number h
  simp only [step]
  split
  · rename_i hc
    exact accounts_nothing (hmore (ne_underscore_of_isDigit hc))
  split
  · rename_i hc
    exact accounts_nothing ⟨cs, by rw [hc], h⟩
  rename_i hline
  split
  · exact accounts_nothing (hmore hline)
  split
  · exact accounts_nothing ⟨cs, rfl, h, hline⟩
  split
  · exact accounts_nothing (hmore hline)
  · exact accounts_token hnumber c

theorem standsFor_lineComment {back : List Char} (h : ∀ c ∈ back, isLineBreak c = false) :
    Piece.StandsFor (.comment (ofBack back)) ('-' :: '-' :: back.reverse) :=
  .lineComment back.reverse fun c hc => h c (List.mem_reverse.1 hc)

theorem accounts_word {back : List Char} (h : (word back).Holds cs) (c : Char) :
    Accounts Holds (cs ++ [c]) ((word back).step c) := by
  obtain rfl : cs = back.reverse := h
  simp only [step]
  split
  · exact accounts_nothing (by simp [Holds])
  split
  · split
    · rename_i q hq
      exact accounts_nothing (holds_marked hq)
    · exact accounts_token (.word _) c
  · exact accounts_token (.word _) c

theorem accounts_numberSign {back : List Char} {point : Bool} {sign : Char}
    (h : (numberSign back point sign).Holds cs) (c : Char) :
    Accounts Holds (cs ++ [c]) ((numberSign back point sign).step c) := by
  obtain ⟨digits, rfl, hdigits, hsign⟩ := h
  simp only [step]
  split
  · rename_i hc
    refine accounts_nothing ?_
    rw [Holds, digitsOf_concat _ (ne_underscore_of_isDigit hc), digitsOf_concat _ hsign,
      hdigits]
    simp
  · rw [List.append_assoc]
    exact (accounts_stepMark [sign] c).after (.one (standsFor_number hdigits))

theorem accounts_numberLine {back : List Char} {point : Bool} {exponent : Nat}
    (h : (numberLine back point exponent).Holds cs) (c : Char) :
    Accounts Holds (cs ++ [c]) ((numberLine back point exponent).step c) := by
  obtain ⟨digits, rfl, hdigits⟩ := h
  have hnumber := standsFor_number hdigits
  simp only [step]
  split
  · rename_i hc
    refine accounts_nothing ?_
    rw [Holds, digitsOf_concat _ (ne_underscore_of_isDigit hc), digitsOf, List.filter_append,
      ← digitsOf, hdigits]
    simp
  split
  · exact ⟨digits, ['_', c], by simp, .one hnumber, rfl⟩
  · have hboth : Spelled ([.number (ofBack back), .word "_"].map .token) (digits ++ ['_']) :=
      (Spelled.one hnumber).append (.one (.word ['_']))
    exact accounts_andBegin hboth c

/-- Quotes inside of quotes are written twice. -/
theorem accounts_quoted {q : Quote} {back : List Char} (h : (quoted q back).Holds cs) (c : Char) :
    Accounts Holds (cs ++ [c]) ((quoted q back).step c) := by
  simp only [step]
  split
  · rename_i hc
    refine accounts_nothing ?_
    cases q with
    | string => simp [Holds, show cs = _ from h, hc, Quote.char]
    | name => simp [Holds, show cs = _ from h, hc, Quote.char]
    | national | bytes => trivial
  split
  · exact accounts_nothing trivial
  · rename_i hc _
    refine accounts_nothing ?_
    cases q with
    | string => simp [Holds, show cs = _ from h, doubled, show c ≠ '\'' from hc]
    | name => simp [Holds, show cs = _ from h, doubled, show c ≠ '"' from hc]
    | national | bytes => trivial

theorem accounts_quoteEnd {q : Quote} {back : List Char} (h : (quoteEnd q back).Holds cs)
    (c : Char) : Accounts Holds (cs ++ [c]) ((quoteEnd q back).step c) := by
  simp only [step]
  split
  · rename_i hc
    refine accounts_nothing ?_
    cases q with
    | string => simp [Holds, show cs = _ from h, hc, Quote.char, doubled]
    | name => simp [Holds, show cs = _ from h, hc, Quote.char, doubled]
    | national | bytes => trivial
  · exact accounts_token (standsFor_quoteEnd h) c

theorem accounts_lineComment {back : List Char} (h : (lineComment back).Holds cs) (c : Char) :
    Accounts Holds (cs ++ [c]) ((lineComment back).step c) := by
  obtain ⟨rfl, hback⟩ := h
  simp only [step]
  split
  · rename_i hc
    have hblank : Piece.StandsFor (.blank true) [c] := by
      have hseparator : isSeparator c = true := by
        rcases Bool.or_eq_true_iff.1 hc with hc | hc <;> simp [isSeparator, hc]
      exact hc ▸ .blank hseparator
    refine ⟨'-' :: '-' :: back.reverse ++ [c], [], by simp, ?_, rfl⟩
    exact (Spelled.one (standsFor_lineComment hback)).append (.one hblank)
  · rename_i hc
    exact accounts_nothing ⟨by simp, List.forall_mem_cons.2 ⟨by simpa using hc, hback⟩⟩

/-- A character more is accounted for. -/
theorem accounts_step (h : s.Holds cs) (c : Char) : Accounts Holds (cs ++ [c]) (s.step c) := by
  cases s with
  | gap parameter =>
      obtain rfl : cs = [] := h
      exact accounts_begin parameter c
  | word back => exact accounts_word h c
  | number back point exponent => exact accounts_number h c
  | numberSign back point sign => exact accounts_numberSign h c
  | numberLine back point exponent => exact accounts_numberLine h c
  | quoted q back => exact accounts_quoted h c
  | quoteEnd q back => exact accounts_quoteEnd h c
  | escape back => exact accounts_nothing trivial
  | mark pending =>
      obtain rfl : cs = pending := h
      exact accounts_stepMark cs c
  | lineComment back => exact accounts_lineComment h c
  | blockComment e depth back last => exact accounts_stepComment h c
  | ended =>
      have hhead : (cs ++ [c]).head? = some '\x00' := by
        cases cs with
        | nil => cases h
        | cons d ds => exact h
      exact accounts_nothing hhead

theorem accounts_feed (h : s.Holds cs) (ds : List Char) :
    Accounts Holds (cs ++ ds) (s.feed ds) := by
  induction ds generalizing s cs with
  | nil => exact accounts_nothing (by simpa using h)
  | cons d ds ih =>
      obtain ⟨done, rest, hsplit, hdone, hrest⟩ := accounts_step h d
      have hmore := (ih hrest).after hdone
      rw [← List.append_assoc, ← hsplit, List.append_assoc] at hmore
      exact hmore

/-- A step that ends with the mark of a dollar begins nothing. -/
theorem step_dollar (hs : s.Undollared) (h : (s.step c).1.getLast? = some dollar) :
    c = '$' ∧ (s.step c).2 = gap true := by
  have hc : c = '$' := by
    by_contra hc
    exact (calm_step hs c).pieces hc (List.mem_of_getLast? h)
  subst hc
  have hbegin (parameter : Bool) : (begin parameter '$').2 = gap true := by
    cases parameter <;> decide
  have hmark (pending : List Char) : (stepMark pending '$').2 = gap true :=
    stepMark_of_lone dollar_notMem_longMarks (by decide)
      (fun d => by simp [Enclosure.opened?, Enclosure.inner]) hbegin pending
  have hword : isWordChar '$' = true := by decide
  refine ⟨rfl, ?_⟩
  cases s with
  | gap parameter => exact hbegin parameter
  | word back => simp [step, hword] at h
  | number back point exponent =>
      have hdigit : Char.isDigit '$' = false := by decide
      simp only [step, hdigit]
      exact hbegin false
  | numberSign back point sign => exact hmark [sign]
  | numberLine back point exponent => simp [step, hword, dollar] at h
  | quoteEnd q back =>
      have hq : '$' ≠ q.char := by cases q <;> decide
      simp only [step, if_neg hq]
      exact hbegin false
  | mark pending => exact hmark pending
  | quoted q back =>
      simp only [step] at h
      split at h
      · cases h
      split at h
      · cases h
      · cases h
  | escape back => cases h
  | lineComment back => simp [step, isLineBreak] at h
  | blockComment e depth back last =>
      have hcloser : '$' ≠ e.closer := by cases e <;> decide
      simp only [step, stepComment, hcloser, and_false, if_false] at h
      split at h
      · cases h
      · cases h
  | ended => cases h

end Scan

/-- The last piece is spelled last. -/
theorem Spelled.of_concat {ps : List Piece} {p : Piece} {cs : List Char}
    (h : Spelled (ps ++ [p]) cs) :
    ∃ before last, cs = before ++ last ∧ Spelled ps before ∧ p.StandsFor last := by
  obtain ⟨parts, hparts, rfl⟩ := h
  induction ps generalizing parts with
  | nil =>
      obtain _ | ⟨hp, hrest⟩ := hparts
      obtain _ | _ := hrest
      exact ⟨[], _, by simp, .nil, hp⟩
  | cons q ps ih =>
      obtain _ | ⟨hq, hrest⟩ := hparts
      obtain ⟨before, last, hsplit, hbefore, hlast⟩ := ih _ hrest
      exact ⟨_, last, by simp [hsplit], (Spelled.one hq).append hbefore, hlast⟩

theorem standsFor_dollar {cs : List Char} (h : dollar.StandsFor cs) : cs = ['$'] := by
  generalize hp : dollar = p at h
  cases h with
  | mark =>
      rw [← String.toList_ofList (l := cs), ← Token.mark.inj (Piece.token.inj hp)]
      rfl
  | word | number | string | name | literal => cases Piece.token.inj hp
  | lineComment | comment | blank => cases hp

namespace Scanner

/-- The characters of what has been begun. -/
def Holds : Scanner → List Char → Prop
  | plain s, cs => s.Holds cs
  | tag back, cs => cs = '$' :: back.reverse
  | tagged .., _ => True

variable {s : Scanner} {cs : List Char}

theorem accounts_plain {s : Scan} (hs : s.Undollared) (h : s.Holds cs) (c : Char) :
    Accounts Holds (cs ++ [c]) ((plain s).step c) := by
  obtain ⟨done, rest, hsplit, hdone, hrest⟩ := accounts_step h c
  simp only [step]
  split
  · -- The dollar waits for another one.
    rename_i hlast
    obtain ⟨-, hnext⟩ := step_dollar hs hlast
    rw [hnext] at hrest
    obtain rfl : rest = [] := hrest
    rw [← List.dropLast_append_getLast? dollar hlast] at hdone
    obtain ⟨before, last, rfl, hbefore, hdollar⟩ := hdone.of_concat
    obtain rfl := standsFor_dollar hdollar
    exact ⟨before, ['$'], by simpa using hsplit, hbefore, rfl⟩
  · exact ⟨done, rest, hsplit, hdone, hrest⟩

/-- The characters after a dollar, if it was a token. -/
theorem accounts_tag (back : List Char) :
    Accounts Scan.Holds ('$' :: back.reverse)
      (dollar :: ((gap true).feed back.reverse).1, ((gap true).feed back.reverse).2) := by
  have hgap : (gap true).Holds [] := rfl
  exact (accounts_feed hgap back.reverse).after (.one (.mark ['$']))

theorem accounts_step (hs : s.Undollared) (h : s.Holds cs) (c : Char) :
    Accounts Holds (cs ++ [c]) (s.step c) := by
  cases s with
  | plain s => exact accounts_plain hs h c
  | tag back =>
      obtain rfl : cs = '$' :: back.reverse := h
      by_cases hc : c = '$'
      · subst hc
        cases htag : isTag back.reverse with
        | true =>
            simp only [step, htag, if_true]
            exact ⟨[], _, rfl, .nil, trivial⟩
        | false =>
            obtain ⟨done, rest, hsplit, hdone, hrest⟩ := accounts_tag back
            have hbegun := Scan.undollared_feed (s := gap true) trivial back.reverse
            have hmore := (accounts_plain hbegun hrest '$').after hdone
            rw [step_tag htag, hsplit, List.append_assoc]
            exact hmore
      · simp only [step, if_neg hc]
        exact ⟨[], _, rfl, .nil, by simp [Holds]⟩
  | tagged label back =>
      simp only [step]
      split
      · exact ⟨cs ++ [c], [], by simp, .one (.literal _ _), rfl⟩
      · exact ⟨[], _, rfl, .nil, trivial⟩

end Scanner

end Tabula
