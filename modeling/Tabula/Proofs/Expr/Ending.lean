import Tabula.Proofs.Expr.Level

/-!
At the end of an expression no part of the grammar finds anything, and none takes a token.
-/

namespace Tabula

open Reader

/-- The reader finds nothing at the end of an expression, and does not fail. -/
def Misses {α : Type} (r : Reader (Option α)) : Prop :=
  ∀ rest, MayFollow 0 rest → r (lexed rest) = some (none, lexed rest)

variable {g : Grammar} {rest : List Token} {operand : Reader (Option Phrase)} {joints : Joints}

/-! ### What may stand alone -/

theorem placeholder_none {ts : List Token} (h : ∀ m ∈ ["?", "$", ":"], ts.head? ≠ some (.mark m)) :
    placeholder (lexed ts) = some (none, lexed ts) := by
  simp only [List.forall_mem_cons] at h
  simp [placeholder, mark_of_ne h.1, h.2.1, h.2.2.1]

theorem misses_nameOf (must : Bool) : Misses (nameOf must) := by
  intro rest hrest
  have hplaceholder : placeholder (lexed rest) = some (none, lexed rest) := by
    refine placeholder_none fun m hm => hrest.head?_ne ?_
    revert m
    decide
  rcases hrest.cases_end with rfl | ⟨tail, rfl | rfl⟩
  · rfl
  · have hmust : (Token.mark ")").mustName = false := by decide
    simp [nameOf, nameIf, hplaceholder, Token.mayName, Token.isPlain, hmust]
  · have hmust : (Token.mark ",").mustName = false := by decide
    simp [nameOf, nameIf, hplaceholder, Token.mayName, Token.isPlain, hmust]

theorem misses_primary (g : Grammar) : Misses (primary g) := by
  intro rest hrest
  rcases hrest.cases_end with rfl | ⟨tail, rfl | rfl⟩ <;> rfl

theorem misses_call (g : Grammar) : Misses (call g false) := by
  intro rest hrest
  rcases hrest.cases_end with rfl | ⟨tail, rfl | rfl⟩
  · rfl
  · simp [call, bareCall, bareCalls, Token.mayCall, Token.key]
  · simp [call, bareCall, bareCalls, Token.mayCall, Token.key]

theorem misses_type (g : Grammar) : Misses (typeRule g true) := by
  intro rest hrest
  rcases hrest.cases_end with rfl | ⟨tail, rfl | rfl⟩
  · rfl
  · simp [typeRule, Token.isType, Token.isPlain]
  · simp [typeRule, Token.isType, Token.isPlain]

theorem misses_field (g : Grammar) : Misses (field g) := by
  intro rest hrest
  rw [field, either_of_none (misses_primary g rest hrest),
    either_of_none (misses_call g rest hrest), misses_nameOf false rest hrest]

theorem misses_operand (g : Grammar) : Misses (Tabula.operand g) := by
  intro rest hrest
  have hvalues : headKey rest ≠ "VALUES" := hrest.headKey_ne rfl
  have hreference : reference g (lexed rest) = some (none, lexed rest) := by
    simp [reference, misses_field g rest hrest, hvalues]
  have hbracketed := (hrest.mono (Nat.zero_le 7)).bracketed g none
  simp [Tabula.operand, columnRule, hreference, hbracketed]

/-! ### Words that begin something else -/

namespace MayFollow

variable {k : Nat}

theorem beginsLimit (h : MayFollow k rest) (g : Grammar) :
    Tabula.beginsLimit g (lexed rest) = some (false, lexed rest) := by
  have hone : Reader.oneOf ["LIMIT", "OFFSET"] (lexed rest) = some (false, lexed rest) :=
    h.oneOf (by simp [isStopWord, stopWords])
  simp [Tabula.beginsLimit, hone]

/-- No alias stands at the end of an expression. -/
theorem aliasOf (h : MayFollow 0 rest) (g : Grammar) (explicit : Bool) (p : Option Phrase) :
    Tabula.aliasOf g explicit p (lexed rest) = some (p, lexed rest) := by
  have has : Reader.word "AS" (lexed rest) = some (false, lexed rest) := h.word rfl
  have hmark : Reader.mark "(" (lexed rest) = some (false, lexed rest) := h.mark rfl
  cases explicit <;>
    simp [Tabula.aliasOf, h.beginsLimit g, has, hmark, misses_nameOf false rest h]

theorem nullChoice (h : MayFollow k rest) (p : Option Phrase) :
    Tabula.nullChoice p (lexed rest) = some (p, lexed rest) := by
  have hignore : Reader.words ["IGNORE", "NULLS"] (lexed rest) = some (false, lexed rest) :=
    h.words (by simp [isStopWord, stopWords])
  have hrespect : Reader.words ["RESPECT", "NULLS"] (lexed rest) = some (false, lexed rest) :=
    h.words (by simp [isStopWord, stopWords])
  simp [Tabula.nullChoice, nullWords, hignore, hrespect]

end MayFollow

/-- No query begins where none of its words stands. -/
theorem select_none {ts : List Token}
    (h : ∀ w ∈ ["WITH", "FROM", "SELECT", "VALUES", "SUMMARIZE", "DESCRIBE"], headKey ts ≠ w) :
    selectRule g false (lexed ts) = some (none, lexed ts) := by
  simp only [List.forall_mem_cons] at h
  obtain ⟨hwith, hfrom, hselect, hvalues, hsummarize, hdescribe, -⟩ := h
  simp [selectRule, tables, word_of_ne hwith, word_of_ne hfrom, word_of_ne hselect, hvalues,
    word_of_ne hsummarize, word_of_ne hdescribe, provided_false]

theorem misses_select (g : Grammar) : Misses (selectRule g false) := by
  intro rest hrest
  refine select_none fun w hw => hrest.headKey_ne ?_
  revert w
  decide

/-! ### Levels -/

theorem misses_chain (h : Misses operand) (hjoints : Misses joints) :
    Misses (chain operand joints) := by
  intro rest hrest
  simp [chain, h rest hrest, chainFrom_none (hjoints rest hrest)]

theorem misses_bits (h : Misses (g .signed)) : Misses (bits g) := by
  have hpower : Misses (power g) :=
    misses_chain h fun rest hrest => (hrest.mono (Nat.zero_le 7)).powerJoints
  have hproduct : Misses (product g) := by
    intro rest hrest
    simp [product_def, hpower rest hrest,
      chainFrom_none ((hrest.mono (Nat.zero_le 6)).productJoints g)]
  have hsum : Misses (sum g) :=
    misses_chain hproduct fun rest hrest => (hrest.mono (Nat.zero_le 5)).sumJoints
  exact misses_chain hsum fun rest hrest => (hrest.mono (Nat.zero_le 5)).bitsJoints

theorem misses_condition (h : Misses (g .bits)) (suffix : Phrase → Reader Phrase) :
    Misses (conditionRule g suffix) := by
  intro rest hrest
  have hrange : rangeFrom g none (lexed rest) = some (none, lexed rest) := by
    simp [rangeFrom, h rest hrest]
  have hcomparison : comparisonFrom g none (lexed rest) = some (none, lexed rest) := by
    simp [comparisonFrom_def, hrange, chainFrom_none (hrest.mono (Nat.zero_le 4)).comparisonJoints]
  have hequality : equalityFrom g none (lexed rest) = some (none, lexed rest) := by
    simp [equalityFrom_def, hcomparison, chainFrom_none (hrest.mono (Nat.zero_le 3)).equalityJoints]
  have hword : word "NOTNULL" (lexed rest) = some (false, lexed rest) := hrest.word rfl
  simp [conditionRule, hequality, hword]

theorem misses_disjunction (h : Misses (g .condition)) : Misses (disjunctionRule g) := by
  have hconjunction : Misses (chain (g .condition) (worded "AND" (.junction .and))) :=
    misses_chain h fun _ hrest => hrest.worded rfl _
  exact misses_chain hconjunction fun _ hrest => hrest.worded rfl _

theorem misses_assignment (h : Misses (g .disjunction)) : Misses (assignmentRule g) := by
  intro rest hrest
  have hmark : mark ":=" (lexed rest) = some (false, lexed rest) := hrest.mark rfl
  have hsecond : rest[1]? ≠ some (.mark ":=") :=
    fun heq => (hrest.usual _ (List.mem_of_getElem? heq)).2.1 rfl
  cases hhead : rest.head? <;> simp [assignmentRule, h rest hrest, hmark, hsecond, hhead]

/-! ### Parts, to a depth -/

theorem ofDepth_succ (d : Nat) (part : Part) :
    Grammar.ofDepth (d + 1) part = part.rule (Grammar.ofDepth d) := rfl

theorem misses_typed {d : Nat} : Misses (typed (Grammar.ofDepth (d + 1))) := by
  intro rest hrest
  have hinterval : interval (Grammar.ofDepth (d + 1)) (lexed rest) = some (none, lexed rest) := by
    have hword : word "INTERVAL" (lexed rest) = some (false, lexed rest) := hrest.word rfl
    simp [interval, hword]
  have htype : Grammar.ofDepth (d + 1) (.type true) (lexed rest) = some (none, lexed rest) :=
    misses_type _ rest hrest
  simp [typed, hinterval, htype, misses_operand _ rest hrest]

theorem misses_signed (d : Nat) : Misses (Grammar.ofDepth (d + 2) .signed) := by
  intro rest hrest
  have hplus : mark "+" (lexed rest) = some (false, lexed rest) := hrest.mark rfl
  have hminus : mark "-" (lexed rest) = some (false, lexed rest) := hrest.mark rfl
  have htilde : mark "~" (lexed rest) = some (false, lexed rest) := hrest.mark rfl
  have hnot : word "NOT" (lexed rest) = some (false, lexed rest) := hrest.word rfl
  simp [ofDepth_succ, Part.rule, signedRule, hplus, hminus, htilde, hnot,
    misses_typed rest hrest]

theorem misses_assignment_ofDepth (d : Nat) : Misses (Grammar.ofDepth (d + 6) .assignment) :=
  misses_assignment (misses_disjunction (misses_condition (misses_bits (misses_signed d)) _))

theorem misses_select_ofDepth (d : Nat) : Misses (Grammar.ofDepth (d + 1) (.select false)) :=
  misses_select _

end Tabula
