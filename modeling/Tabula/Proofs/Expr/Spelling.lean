import Mathlib.Data.List.Chain
import Tabula.Proofs.Expr.Scan

/-!
Spelling tokens. No two words that stand apart with blanks between them are one word, no comment is
spelled, and no semicolon, so the lexemes of a text are the tokens that it spells.
-/

namespace Tabula

open Scan Scanner

/-! ### Words that stay apart -/

/-- Two tokens that are not one word when blanks stand between them. -/
def Token.Apart (t u : Token) : Prop :=
  ∀ v w, t = .word v → u = .word w → (Text.upper v, Text.upper w) ∉ jointWords

/-- A token that is no part of a longer word, whatever stands beside it. -/
def Token.Lone (t : Token) : Prop :=
  ∀ w, t = .word w → ∀ pair ∈ jointWords, Text.upper w ≠ pair.1 ∧ Text.upper w ≠ pair.2

theorem Token.Lone.apart_left {t : Token} (h : t.Lone) (u : Token) : t.Apart u :=
  fun v _ ht _ hmem => (h v ht _ hmem).1 rfl

theorem Token.Lone.apart_right {t : Token} (h : t.Lone) (u : Token) : u.Apart t :=
  fun _ w _ ht hmem => (h w ht _ hmem).2 rfl

theorem lone_mark (m : String) : (Token.mark m).Lone := fun _ h => by cases h

theorem lone_word : ∀ w ∈ ["AND", "OR", "IS", "NOT", "NULL"], (Token.word w).Lone := by
  have hpairs : ∀ w ∈ ["AND", "OR", "IS", "NOT", "NULL"], ∀ pair ∈ jointWords,
      Text.upper w ≠ pair.1 ∧ Text.upper w ≠ pair.2 := by decide +kernel
  intro w hw v hv
  cases hv
  exact hpairs w hw

/-! ### Pieces without comments -/

/-- The pieces are the tokens with blanks between them. -/
def Spaced (ps : List Piece) (ts : List Token) : Prop :=
  ps.filter (fun p => !p.isBlank) = ts.map .token

variable {ps qs : List Piece} {t u : Token} {ts us : List Token} {cs ds : List Char}

namespace Spaced

theorem append (h : Spaced ps ts) (h' : Spaced qs us) : Spaced (ps ++ qs) (ts ++ us) := by
  rw [Spaced, List.filter_append, h, h', List.map_append]

theorem token (t : Token) (h : Spaced ps ts) : Spaced (.token t :: ps) (t :: ts) := by
  simpa [Spaced, Piece.isBlank] using h

theorem blank (b : Bool) (h : Spaced ps ts) : Spaced (.blank b :: ps) ts := by
  simpa [Spaced, Piece.isBlank] using h

theorem dropWhile (h : Spaced ps ts) : Spaced (ps.dropWhile Piece.isBlank) ts := by
  induction ps with
  | nil => exact h
  | cons p ps ih =>
      cases hp : p.isBlank with
      | true =>
          rw [List.dropWhile_cons_of_pos hp]
          exact ih (by simpa [Spaced, hp] using h)
      | false => rwa [List.dropWhile_cons_of_neg (by simp [hp])]

/-- A word is not joined with a word that it stays apart from. -/
theorem joinWord (w : String) (h : Spaced ps ts) (hapart : ∀ t ∈ ts.head?, (Token.word w).Apart t) :
    Piece.joinWord w ps = .token (.word w) :: ps := by
  have hdrop := h.dropWhile
  unfold Piece.joinWord
  split
  · next second after hnext =>
      rw [hnext] at hdrop
      cases ts with
      | nil => simp [Spaced, Piece.isBlank] at hdrop
      | cons t ts =>
          obtain ⟨rfl, -⟩ : .word second = t ∧ _ := by
            simpa [Spaced, Piece.isBlank] using hdrop
          have hnot := hapart _ rfl w second rfl rfl
          simp [hnot]
  · rfl

/-- Words that stay apart are not joined. -/
theorem joinWords (h : Spaced ps ts) (hapart : ts.IsChain Token.Apart) :
    Piece.joinWords ps = ps := by
  induction ps generalizing ts with
  | nil => rfl
  | cons p ps ih =>
      cases p with
      | blank b =>
          have hps : Spaced ps ts := by simpa [Spaced, Piece.isBlank] using h
          simp [Piece.joinWords, ih hps hapart]
      | comment text =>
          cases ts <;> simp [Spaced, Piece.isBlank] at h
      | token t =>
          cases ts with
          | nil => simp [Spaced, Piece.isBlank] at h
          | cons u ts =>
              obtain ⟨rfl, hps⟩ : t = u ∧ Spaced ps ts := by
                simpa [Spaced, Piece.isBlank] using h
              obtain ⟨hhead, htail⟩ := List.isChain_cons.1 hapart
              cases t with
              | word w => rw [Piece.joinWords, ih hps htail, hps.joinWord w hhead]
              | _ => simp [Piece.joinWords, ih hps htail]

/-- Without comments and semicolons the tokens are gathered as they stand. -/
theorem gathered (h : Spaced ps ts) (hmark : ∀ t ∈ ts, t ≠ .mark ";") (back : List Lexeme)
    (onLine : Bool) : ∃ line, ps.foldl Lexeme.Gathered.add ⟨back, [], onLine⟩ =
      ⟨(lexed ts).reverse ++ back, [], line⟩ := by
  induction ps generalizing ts back onLine with
  | nil =>
      obtain rfl : ts = [] := by simpa [Spaced] using h.symm
      exact ⟨onLine, rfl⟩
  | cons p ps ih =>
      cases p with
      | blank b => exact ih (by simpa [Spaced, Piece.isBlank] using h) hmark back _
      | comment text =>
          cases ts <;> simp [Spaced, Piece.isBlank] at h
      | token t =>
          cases ts with
          | nil => simp [Spaced, Piece.isBlank] at h
          | cons u ts =>
              obtain ⟨rfl, hps⟩ : t = u ∧ Spaced ps ts := by
                simpa [Spaced, Piece.isBlank] using h
              rw [List.forall_mem_cons] at hmark
              have hadd : Lexeme.Gathered.add ⟨back, [], onLine⟩ (.token t) =
                  ⟨⟨t, []⟩ :: back, [], true⟩ := by
                unfold Lexeme.Gathered.add
                split
                · next heq => exact absurd (Piece.token.inj heq) hmark.1
                · next heq => rw [Piece.token.inj heq]
                · next heq => cases heq
                · next heq => cases heq
              obtain ⟨line, hline⟩ := ih hps hmark.2 (⟨t, []⟩ :: back) true
              refine ⟨line, ?_⟩
              rw [List.foldl_cons, hadd, hline]
              simp [lexed]

/-- The lexemes of pieces are their tokens. -/
theorem ofPieces (h : Spaced ps ts) (hapart : ts.IsChain Token.Apart)
    (hmark : ∀ t ∈ ts, t ≠ .mark ";") : Lexeme.ofPieces ps = lexed ts := by
  obtain ⟨line, hline⟩ := h.gathered hmark [] false
  have hattach (ls : List Lexeme) : Lexeme.Gathered.attach [] ls = ls := by
    cases ls <;> simp [Lexeme.Gathered.attach]
  rw [Lexeme.ofPieces, h.joinWords hapart, hline]
  simp [Lexeme.Gathered.finish, hattach]

end Spaced

/-! ### Texts of tokens -/

/-- The characters are scanned as the tokens, with blanks between them where words meet. -/
structure Spells (cs : List Char) (ts : List Token) : Prop where
  scans : ∃ ps, Scans cs ps ∧ Spaced ps ts
  apart : ts.IsChain Token.Apart

namespace Spells

theorem nil : Spells [] [] := ⟨⟨[], .nil, rfl⟩, .nil⟩

theorem of_scans (h : Scans cs [.token t]) : Spells cs [t] :=
  ⟨⟨_, h, rfl⟩, .singleton t⟩

/-- Whatever follows an opening parenthesis. -/
theorem openParen (h : Spells cs ts) : Spells ('(' :: cs) (.mark "(" :: ts) := by
  obtain ⟨⟨ps, hps, hspaced⟩, hapart⟩ := h
  refine ⟨⟨_, hps.punctuation (c := '(') (by simp), hspaced.token _⟩, ?_⟩
  exact List.isChain_cons.2 ⟨fun u _ => (lone_mark "(").apart_left u, hapart⟩

theorem closeParen (h : Spells cs ts) : Spells (cs ++ [')']) (ts ++ [.mark ")"]) := by
  obtain ⟨⟨ps, hps, hspaced⟩, hapart⟩ := h
  have hclose : Scans [')'] [.token (.mark ")")] := Scans.nil.punctuation (by simp)
  have hspaced' : Spaced [.token (.mark ")")] [.mark ")"] := rfl
  refine ⟨⟨_, hps.append (by decide) hclose, hspaced.append hspaced'⟩, ?_⟩
  refine hapart.append (.singleton _) fun t _ u hu => ?_
  cases hu
  exact (lone_mark ")").apart_right t

theorem parens (h : Spells cs ts) :
    Spells ('(' :: (cs ++ [')'])) (.mark "(" :: (ts ++ [.mark ")"])) := h.closeParen.openParen

/-- A name before parentheses. -/
theorem called {w : String} (hw : isOneWord w = true) (h : Spells cs ts) :
    Spells (w.toList ++ '(' :: (cs ++ [')'])) (.word w :: .mark "(" :: (ts ++ [.mark ")"])) := by
  obtain ⟨⟨ps, hps, hspaced⟩, hapart⟩ := h.parens
  refine ⟨⟨_, (scans_word hw).append (by decide) hps, hspaced.token _⟩, ?_⟩
  refine List.isChain_cons.2 ⟨fun u hu => ?_, hapart⟩
  cases hu
  exact (lone_mark "(").apart_right _

/-- A word that is never joined, before what follows a blank. -/
theorem worded {w : String} (hw : w ∈ ["AND", "OR", "IS", "NOT", "NULL"]) (h : Spells cs ts) :
    Spells (w.toList ++ ' ' :: cs) (.word w :: ts) := by
  obtain ⟨⟨ps, hps, hspaced⟩, hapart⟩ := h
  have hword : isOneWord w = true := by
    revert w
    decide
  refine ⟨⟨_, (scans_word hword).append (by decide) hps.space, (hspaced.blank false).token _⟩, ?_⟩
  exact List.isChain_cons.2 ⟨fun u _ => (lone_word w hw).apart_left u, hapart⟩

end Spells

/-- The characters separate what stands before and after them by a token. -/
structure Separates (cs : List Char) (t : Token) : Prop where
  begins : ∃ c ∈ boundaries, cs.head? = some c
  scans : ∃ ps, Spaced ps [t] ∧ ∀ ds qs, Scans ds qs → Scans (cs ++ ds) (ps ++ qs)
  lone : t.Lone

theorem separates_comma : Separates [',', ' '] (.mark ",") where
  begins := ⟨',', by decide, rfl⟩
  scans := ⟨[.token (.mark ","), .blank false], rfl, fun _ _ h => h.space.punctuation (by simp)⟩
  lone := lone_mark ","

theorem separates_spaced (h : Scans cs [.token t]) (hlone : t.Lone) :
    Separates (' ' :: (cs ++ [' '])) t where
  begins := ⟨' ', by decide, rfl⟩
  scans := by
    refine ⟨[.blank false, .token t, .blank false], rfl, fun ds qs hds => ?_⟩
    simpa using (h.append (by decide) hds.space).space
  lone := hlone

theorem separates_operator {m : String} (hm : m ∈ operatorMarks) :
    Separates (' ' :: (m.toList ++ [' '])) (.mark m) :=
  separates_spaced (scans_operator hm) (lone_mark m)

theorem separates_word {w : String} (hw : w ∈ ["AND", "OR", "IS", "NOT", "NULL"]) :
    Separates (' ' :: (w.toList ++ [' '])) (.word w) := by
  refine separates_spaced (scans_word ?_) (lone_word w hw)
  revert w
  decide

/-- Texts with a separator between them. -/
theorem Spells.separated {sep : List Char} (h : Spells cs ts) (hsep : Separates sep t)
    (h' : Spells ds us) : Spells (cs ++ (sep ++ ds)) (ts ++ t :: us) := by
  obtain ⟨⟨ps, hps, hspaced⟩, hapart⟩ := h
  obtain ⟨⟨qs, hqs, hspaced'⟩, hapart'⟩ := h'
  obtain ⟨⟨c, hc, hhead⟩, ⟨ms, hms, hscans⟩, hlone⟩ := hsep
  obtain ⟨tail, rfl⟩ : ∃ tail, sep = c :: tail := by
    cases sep with
    | nil => cases hhead
    | cons d tail => exact ⟨tail, by rw [Option.some.inj hhead]⟩
  refine ⟨⟨_, hps.append hc (hscans ds qs hqs), hspaced.append (hms.append hspaced')⟩, ?_⟩
  refine hapart.append ?_ fun u _ v hv => ?_
  · exact List.isChain_cons.2 ⟨fun u _ => hlone.apart_left u, hapart'⟩
  · cases hv
    exact hlone.apart_right u

/-- Many texts, a separator before each. -/
theorem Spells.joined {sep : List Char} {items : List (List Char × List Token × Phrase)}
    (h : Spells cs ts) (hsep : Separates sep t) (hitems : ∀ i ∈ items, Spells i.1 i.2.1) :
    Spells (cs ++ items.flatMap fun i => sep ++ i.1) (ts ++ joined t (items.map Prod.snd)) := by
  induction items generalizing cs ts with
  | nil => simpa [Tabula.joined] using h
  | cons i items ih =>
      rw [List.forall_mem_cons] at hitems
      have hnext := ih (h.separated hsep hitems.1) hitems.2
      simpa [Tabula.joined] using hnext

/-! ### The lexemes of a text -/

/-- The lexemes of a text are the tokens that it spells. -/
theorem Spells.scan {text : String} (h : Spells text.toList ts) (hmark : ∀ t ∈ ts, t ≠ .mark ";") :
    Lexeme.scan text = some (lexed ts) := by
  obtain ⟨⟨ps, hps, hspaced⟩, hapart⟩ := h
  have hscan : Piece.scan text = some ps := by
    have hwhole := hps [] (by simp)
    rw [List.append_nil] at hwhole
    have hgap : (plain (gap false)).run [] = some [] := rfl
    simpa [Piece.scan, hgap] using hwhole
  simp [Lexeme.scan, hscan, hspaced.ofPieces hapart hmark]

theorem statements_lexed (h : ∀ t ∈ ts, t ≠ .mark ";") : statements (lexed ts) = [lexed ts] := by
  induction ts with
  | nil => rfl
  | cons t ts ih =>
      rw [List.forall_mem_cons] at h
      have hrest := ih h.2
      simp only [lexed, List.map_cons] at hrest ⊢
      simp [statements, h.1, hrest]

end Tabula
