import Tabula.Proofs.Expr.Scan

/-!
Scanning in parts. What has been begun never holds a dollar, which is a token at once, so the text
between two dollars is scanned as if the first had been a token, unless it is a tag. Gathering keeps
the tokens of the pieces.
-/

namespace Tabula

open Scan Scanner

namespace Scan

/-- No dollar has been begun, as dollars are tokens at once. -/
def Undollared : Scan → Prop
  | mark pending => '$' ∉ pending
  | numberSign _ _ sign => sign ≠ '$'
  | _ => True

variable {s : Scan} {c : Char} {parameter : Bool}

/-- What one step gives: only a dollar gives the mark of a dollar. -/
structure Calm (c : Char) (r : List Piece × Scan) : Prop where
  next : r.2.Undollared
  pieces : c ≠ '$' → dollar ∉ r.1

theorem calm_nothing {c : Char} {next : Scan} (hnext : next.Undollared) : Calm c ([], next) :=
  ⟨hnext, fun _ => by simp⟩

theorem calm_begin (parameter : Bool) (c : Char) : Calm c (begin parameter c) := by
  unfold begin
  split
  · exact ⟨trivial, fun _ => by simp [dollar]⟩
  split
  · exact calm_nothing trivial
  split
  · exact calm_nothing trivial
  split
  · exact calm_nothing trivial
  split
  · exact calm_nothing trivial
  split
  · refine ⟨trivial, fun hc => ?_⟩
    rename_i h
    have hc : c = '`' := by simpa [hc] using h
    subst hc
    decide
  · rename_i hmark
    have hc : c ≠ '$' := by
      rintro rfl
      simp at hmark
    split
    · exact ⟨by simpa [Undollared] using hc.symm, fun _ => by simp⟩
    · exact calm_nothing trivial

theorem calm_andBegin {done : List Token} (hdone : Token.mark "$" ∉ done) (c : Char) :
    Calm c (andBegin done c) := by
  have h := calm_begin ((done.getLast?.map marksParameter).getD false) c
  refine ⟨h.next, fun hc => ?_⟩
  simp only [andBegin, List.mem_append, List.mem_map, not_or]
  refine ⟨?_, h.pieces hc⟩
  rintro ⟨t, ht, heq⟩
  exact hdone (Piece.token.inj heq ▸ ht)

theorem dollar_notMem_longMarks : ∀ m ∈ longMarks, '$' ∉ m.toList := by decide

theorem not_beginsMark {cs : List Char} {c : Char} (hmem : c ∈ cs)
    (hc : ∀ m ∈ longMarks, c ∉ m.toList) : beginsMark cs = false := by
  rw [beginsMark, List.any_eq_false]
  intro m hm hprefix
  exact hc m hm ((List.isPrefixOf_iff_prefix.1 hprefix).mem hmem)

theorem mark_ne_dollar {cs : List Char} (h : '$' ∉ cs) :
    Token.mark "$" ≠ .mark (String.ofList cs) := by
  intro heq
  have hcs : cs = ['$'] := by
    rw [← String.toList_ofList (l := cs), ← Token.mark.inj heq]
    rfl
  simp [hcs] at h

theorem calm_stepMark {pending : List Char} (h : '$' ∉ pending) (c : Char) :
    Calm c (stepMark pending c) := by
  induction pending with
  | nil => exact calm_begin false c
  | cons d ds ih =>
      obtain ⟨hd, hds⟩ : '$' ≠ d ∧ '$' ∉ ds := by simpa using h
      rw [stepMark]
      split
      · exact calm_nothing trivial
      split
      · exact calm_nothing trivial
      split
      · rename_i hbegins
        refine ⟨?_, fun _ => by simp⟩
        have hc : c ≠ '$' := by
          rintro rfl
          rw [not_beginsMark (by simp) dollar_notMem_longMarks] at hbegins
          cases hbegins
        simpa [Undollared] using ⟨hd, hds, hc.symm⟩
      split
      · exact calm_andBegin (by simpa using mark_ne_dollar h) c
      · have hrest := ih hds
        refine ⟨hrest.next, fun hc => ?_⟩
        have hone : dollar ≠ .token (.mark (String.singleton d)) := by
          intro heq
          rw [String.singleton_eq_ofList] at heq
          exact mark_ne_dollar (by simpa using hd) (Piece.token.inj heq)
        simpa [hone] using hrest.pieces hc

/-- A character that no mark and no comment goes on with ends what has been begun of one. -/
theorem stepMark_of_lone {c : Char} {next : Scan} (hmarks : ∀ m ∈ longMarks, c ∉ m.toList)
    (hminus : c ≠ '-') (hopened : ∀ d, Enclosure.opened? d c = none)
    (hbegin : ∀ parameter, (begin parameter c).2 = next) (pending : List Char) :
    (stepMark pending c).2 = next := by
  induction pending with
  | nil => exact hbegin false
  | cons d ds ih =>
      have hbegins : beginsMark (d :: ds ++ [c]) = false := not_beginsMark (by simp) hmarks
      rw [stepMark]
      split
      · rename_i h
        exact absurd h.2.2 hminus
      split
      · rename_i e h
        simp [hopened] at h
      split
      · rename_i h
        rw [hbegins] at h
        cases h
      split
      · exact hbegin _
      · exact ih

theorem calm_stepComment (e : Enclosure) (depth : Nat) (back : List Char) (last : Option Char)
    (c : Char) : Calm c (stepComment e depth back last c) := by
  unfold stepComment
  split
  · split
    · exact ⟨trivial, fun _ => by simp [dollar]⟩
    · exact calm_nothing trivial
  · split
    · exact calm_nothing trivial
    · exact calm_nothing trivial

theorem calm_number {back : List Char} {point : Bool} {exponent : Nat} (c : Char) :
    Calm c ((number back point exponent).step c) := by
  simp only [step]
  split
  · exact calm_nothing trivial
  split
  · exact calm_nothing trivial
  split
  · exact calm_nothing trivial
  split
  · rename_i hsign
    refine calm_nothing ?_
    rintro rfl
    simp at hsign
  split
  · exact calm_nothing trivial
  · exact calm_andBegin (by simp) c

theorem calm_step (hs : s.Undollared) (c : Char) : Calm c (s.step c) := by
  cases s with
  | gap parameter => exact calm_begin parameter c
  | word back =>
      simp only [step]
      split
      · exact calm_nothing trivial
      split
      · split
        · exact calm_nothing trivial
        · exact calm_andBegin (by simp) c
      · exact calm_andBegin (by simp) c
  | number back point exponent => exact calm_number c
  | numberSign back point sign =>
      simp only [step]
      split
      · exact calm_nothing trivial
      · have hsign : '$' ∉ [sign] := by simpa using Ne.symm hs
        have h := calm_stepMark hsign c
        refine ⟨h.next, fun hc => ?_⟩
        simpa [dollar] using h.pieces hc
  | numberLine back point exponent =>
      simp only [step]
      split
      · exact calm_nothing trivial
      split
      · exact ⟨trivial, fun _ => by simp [dollar]⟩
      · exact calm_andBegin (by simp) c
  | quoted q back =>
      simp only [step]
      split
      · exact calm_nothing trivial
      split
      · exact calm_nothing trivial
      · exact calm_nothing trivial
  | quoteEnd q back =>
      simp only [step]
      split
      · exact calm_nothing trivial
      · exact calm_andBegin (by cases q <;> simp [Quote.token]) c
  | escape back => exact calm_nothing trivial
  | mark pending => exact calm_stepMark hs c
  | lineComment back =>
      simp only [step]
      split
      · exact ⟨trivial, fun _ => by simp [dollar]⟩
      · exact calm_nothing trivial
  | blockComment e depth back last => exact calm_stepComment e depth back last c
  | ended => exact calm_nothing trivial

theorem undollared_feed (hs : s.Undollared) (cs : List Char) : (s.feed cs).2.Undollared := by
  induction cs generalizing s with
  | nil => exact hs
  | cons c cs ih => exact ih (calm_step hs c).next

end Scan

/-! ### Scanning in two parts -/

namespace Scanner

/-- Goes through characters. -/
def feed (s : Scanner) : List Char → List Piece × Scanner
  | [] => ([], s)
  | c :: cs =>
      let (done, next) := s.step c
      let (more, last) := next.feed cs
      (done ++ more, last)

def Undollared : Scanner → Prop
  | plain s => s.Undollared
  | _ => True

theorem undollared_step {s : Scanner} (hs : s.Undollared) (c : Char) : (s.step c).2.Undollared := by
  cases s with
  | plain s =>
      simp only [step]
      split
      · trivial
      · exact (calm_step hs c).next
  | tag back =>
      have hnext := (calm_step (undollared_feed (s := gap true) trivial back.reverse) c).next
      simp only [step]
      split
      · split
        · trivial
        split
        · trivial
        · exact hnext
      · trivial
  | tagged label back =>
      simp only [step]
      split
      · trivial
      · trivial

theorem undollared_feed {s : Scanner} (hs : s.Undollared) (cs : List Char) :
    (s.feed cs).2.Undollared := by
  induction cs generalizing s with
  | nil => exact hs
  | cons c cs ih => exact ih (undollared_step hs c)

/-- A dollar after what is no tag is one more plain step. -/
theorem step_tag {back : List Char} (h : isTag back.reverse = false) :
    (tag back).step '$' =
      (dollar :: ((gap true).feed back.reverse).1 ++
        ((plain ((gap true).feed back.reverse).2).step '$').1,
        ((plain ((gap true).feed back.reverse).2).step '$').2) := by
  simp only [step, h, if_true, Bool.false_eq_true, if_false]
  split
  · rfl
  · rfl

end Scanner

/-! ### Tokens of pieces -/

namespace Lexeme

end Lexeme

end Tabula
