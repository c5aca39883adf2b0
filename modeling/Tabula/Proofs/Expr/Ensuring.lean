import Tabula.Expr.Grammar

/-!
What a reader ends with. A condition on what is found, and on the lexemes that are left, is followed
backwards through a reader: a step that looks at what comes next splits into the cases of what that
is, and a step that fails ends with nothing at all. Loops keep an invariant.
-/

namespace Tabula.Reader

variable {α β : Type} {r s : Reader α} {ls : List Lexeme} {Q R : α → List Lexeme → Prop}

/-- If the reader succeeds on the lexemes, then with something and a rest that have `Q`. -/
def Ensures (r : Reader α) (ls : List Lexeme) (Q : α → List Lexeme → Prop) : Prop :=
  ∀ a rest, r ls = some (a, rest) → Q a rest

namespace Ensures

theorem pure {a : α} (h : Q a ls) : Ensures (Pure.pure a) ls Q := by
  intro b rest hb
  cases hb
  exact h

theorem failure : Ensures (failure : Reader α) ls Q := by
  intro a rest ha
  cases ha

theorem mono (h : Ensures r ls Q) (hQ : ∀ a rest, Q a rest → R a rest) : Ensures r ls R :=
  fun a rest ha => hQ a rest (h a rest ha)

theorem bind {f : α → Reader β} {Q : β → List Lexeme → Prop}
    (h : Ensures r ls fun a mid => Ensures (f a) mid Q) : Ensures (r >>= f) ls Q := by
  intro b rest hb
  obtain ⟨⟨a, mid⟩, ha, hf⟩ := Option.bind_eq_some_iff.1 hb
  exact h a mid ha b rest hf

/-- What comes before makes no difference. -/
theorem andThen {f : α → Reader β} {Q : β → List Lexeme → Prop}
    (h : ∀ a mid, Ensures (f a) mid Q) : Ensures (r >>= f) ls Q :=
  bind fun a mid _ => h a mid

theorem get {Q : List Lexeme → List Lexeme → Prop} (h : Q ls ls) : Ensures get ls Q := pure h

theorem set {next : List Lexeme} {Q : PUnit → List Lexeme → Prop} (h : Q ⟨⟩ next) :
    Ensures (set next) ls Q := pure h

theorem skip {Q : Unit → List Lexeme → Prop} (h : Q () (ls.drop 1)) : Ensures skip ls Q := pure h

theorem peek {Q : Option Lexeme → List Lexeme → Prop} (h : Q ls.head? ls) : Ensures peek ls Q :=
  pure h

theorem peekSecond {Q : Option Lexeme → List Lexeme → Prop} (h : Q (ls.drop 1).head? ls) :
    Ensures peekSecond ls Q := pure h

theorem key {Q : String → List Lexeme → Prop} (h : Q ((ls.head?.map Lexeme.key).getD "") ls) :
    Ensures key ls Q := pure h

theorem atMark {m : String} {Q : Bool → List Lexeme → Prop}
    (h : Q ((ls.head?.map fun l => decide (l.token = .mark m)).getD false) ls) :
    Ensures (atMark m) ls Q := pure h

theorem secondAtMark {m : String} {Q : Bool → List Lexeme → Prop}
    (h : Q (((ls.drop 1).head?.map fun l => decide (l.token = .mark m)).getD false) ls) :
    Ensures (secondAtMark m) ls Q := pure h

theorem ite {c : Prop} [Decidable c] (h : c → Ensures r ls Q) (h' : ¬ c → Ensures s ls Q) :
    Ensures (if c then r else s) ls Q := by
  split
  · exact h ‹_›
  · exact h' ‹_›

theorem mark {m : String} {Q : Bool → List Lexeme → Prop}
    (hyes : ∀ l tail, ls = l :: tail → l.token = .mark m → Q true tail) (hno : Q false ls) :
    Ensures (mark m) ls Q := by
  refine bind (atMark (ite (fun h => ?_) fun _ => pure hno))
  cases ls with
  | nil => cases h
  | cons l tail => exact bind (skip (pure (hyes l tail rfl (by simpa using h))))

/-- The mark comes next. -/
theorem mark_cons {l : Lexeme} {m : String} (hl : l.token = .mark m) {Q : Bool → List Lexeme → Prop}
    (h : Q true ls) : Ensures (Reader.mark m) (l :: ls) Q :=
  bind (atMark (ite (fun _ => bind (skip (pure h))) fun hnot => absurd hl (by simpa using hnot)))

theorem word {k : String} (hk : k ≠ "") {Q : Bool → List Lexeme → Prop}
    (hyes : ∀ l tail, ls = l :: tail → l.key = k → Q true tail) (hno : Q false ls) :
    Ensures (word k) ls Q := by
  refine bind (key (ite (fun h => ?_) fun _ => pure hno))
  cases ls with
  | nil => exact absurd h.symm hk
  | cons l tail => exact bind (skip (pure (hyes l tail rfl (by simpa using h))))

theorem oneOf {ks : List String} (hks : "" ∉ ks) {Q : Bool → List Lexeme → Prop}
    (hyes : ∀ l tail, ls = l :: tail → l.key ∈ ks → Q true tail) (hno : Q false ls) :
    Ensures (oneOf ks) ls Q := by
  refine bind (key (ite (fun h => ?_) fun _ => pure hno))
  cases ls with
  | nil => exact absurd (by simpa using h) hks
  | cons l tail => exact bind (skip (pure (hyes l tail rfl (by simpa using h))))

theorem words {ks : List String} {Q : Bool → List Lexeme → Prop}
    (hyes : ∀ taken rest, ls = taken ++ rest → taken.map Lexeme.key = ks → Q true rest)
    (hno : Q false ls) : Ensures (words ks) ls Q := by
  refine bind (get (ite (fun h => ?_) fun _ => pure hno))
  exact bind (set (pure (hyes _ _ (List.take_append_drop ks.length ls).symm h)))

/-- What does not come is not taken. -/
theorem mark_false {m : String} :
    Ensures (Reader.mark m) ls fun isThere rest => isThere = false → rest = ls :=
  mark (fun _ _ _ _ => nofun) fun _ => rfl

theorem word_false {k : String} (hk : k ≠ "") :
    Ensures (Reader.word k) ls fun isThere rest => isThere = false → rest = ls :=
  word hk (fun _ _ _ _ => nofun) fun _ => rfl

theorem words_false {ks : List String} :
    Ensures (Reader.words ks) ls fun isThere rest => isThere = false → rest = ls :=
  words (fun _ _ _ _ => nofun) fun _ => rfl

/-- A choice by what a reader takes. -/
theorem choose {c : Reader Bool} {r s : Reader α}
    (h : Ensures c ls fun found rest =>
      (found = true → Ensures r rest Q) ∧ (found = false → Ensures s rest Q)) :
    Ensures (do if ← c then r else s) ls Q := by
  refine bind (h.mono fun found rest hfound => ?_)
  cases found with
  | true => exact hfound.1 rfl
  | false => exact hfound.2 rfl

theorem ifMark {m : String} {r s : Reader α}
    (hyes : ∀ l tail, ls = l :: tail → l.token = .mark m → Ensures r tail Q)
    (hno : Ensures s ls Q) : Ensures (do if ← Reader.mark m then r else s) ls Q :=
  choose (mark (fun l tail hls hl => ⟨fun _ => hyes l tail hls hl, nofun⟩) ⟨nofun, fun _ => hno⟩)

theorem ifWord {k : String} (hk : k ≠ "") {r s : Reader α}
    (hyes : ∀ l tail, ls = l :: tail → l.key = k → Ensures r tail Q)
    (hno : Ensures s ls Q) : Ensures (do if ← Reader.word k then r else s) ls Q :=
  choose (word hk (fun l tail hls hl => ⟨fun _ => hyes l tail hls hl, nofun⟩) ⟨nofun, fun _ => hno⟩)

theorem ifOneOf {ks : List String} (hks : "" ∉ ks) {r s : Reader α}
    (hyes : ∀ l tail, ls = l :: tail → l.key ∈ ks → Ensures r tail Q)
    (hno : Ensures s ls Q) : Ensures (do if ← Reader.oneOf ks then r else s) ls Q :=
  choose (oneOf hks (fun l tail hls hl => ⟨fun _ => hyes l tail hls hl, nofun⟩)
    ⟨nofun, fun _ => hno⟩)

theorem ifWords {ks : List String} {r s : Reader α}
    (hyes : ∀ taken rest, ls = taken ++ rest → taken.map Lexeme.key = ks → Ensures r rest Q)
    (hno : Ensures s ls Q) : Ensures (do if ← Reader.words ks then r else s) ls Q :=
  choose (words (fun taken rest hls hks => ⟨fun _ => hyes taken rest hls hks, nofun⟩)
    ⟨nofun, fun _ => hno⟩)

theorem expect {r : Reader Bool} {Q : Unit → List Lexeme → Prop}
    (h : Ensures r ls fun found rest => found = true → Q () rest) : Ensures (expect r) ls Q := by
  refine bind (h.mono fun found rest hfound => ?_)
  cases found with
  | true => exact pure (hfound rfl)
  | false => exact failure

theorem expect_mark {m : String} {Q : Unit → List Lexeme → Prop}
    (h : ∀ l tail, ls = l :: tail → l.token = .mark m → Q () tail) :
    Ensures (Reader.expect (Reader.mark m)) ls Q :=
  expect (mark (fun l tail hls hl _ => h l tail hls hl) nofun)

theorem provided {c : Bool} {r : Reader Bool} {Q : Bool → List Lexeme → Prop} (h : Ensures r ls Q)
    (hno : Q false ls) : Ensures (provided c r) ls Q :=
  ite (fun _ => h) fun _ => pure hno

theorem need {r : Reader (Option α)} (h : Ensures r ls fun found rest => ∀ a ∈ found, Q a rest) :
    Ensures (need r) ls Q := by
  refine bind (h.mono fun found rest hfound => ?_)
  cases found with
  | none => exact failure
  | some a => exact pure (hfound a rfl)

theorem either {r s : Reader (Option α)} {Q : Option α → List Lexeme → Prop}
    (h : Ensures r ls fun found rest =>
      (∀ a ∈ found, Q (some a) rest) ∧ (found = none → Ensures s rest Q)) :
    Ensures (either r s) ls Q := by
  refine bind (h.mono fun found rest hfound => ?_)
  cases found with
  | none => exact hfound.2 rfl
  | some a => exact pure (hfound.1 a rfl)

/-- What holds before every step holds in the end. -/
theorem goOn {r : Phrase → Reader (Option Phrase)} {p : Phrase}
    {I : Phrase → List Lexeme → Prop} (h : I p ls)
    (hstep : ∀ p ls, I p ls → Ensures (r p) ls fun found rest =>
      (∀ q ∈ found, I q rest) ∧ (found = none → I p rest)) :
    Ensures (goOn r p) ls I := by
  refine bind (get ?_)
  generalize ls.length = bound
  induction bound generalizing p ls with
  | zero => exact pure h
  | succ bound ih =>
      refine bind ((hstep p ls h).mono fun found rest hfound => ?_)
      cases found with
      | none => exact pure (hfound.2 rfl)
      | some q => exact ih (hfound.1 q rfl)

end Ensures

end Tabula.Reader
