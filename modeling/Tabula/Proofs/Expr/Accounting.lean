import Tabula.Proofs.Expr.Ensuring

/-!
What the lexemes of an expression are for. Every lexeme that is read has its use in the phrase: it
is a name or a literal, an operator, a parenthesis, or a part of a call. Only a few have no use that
the phrase shows: a plus sign before an operand, a word that announces an alias or an operator which
does not come, and a comma beside which an argument is missing.
-/

namespace Tabula

open Reader

namespace Phrase

/-- Whether the function takes so many arguments, if there is one. -/
def Callee.takes : Callee → Nat → Bool
  | .ranking _, count => count = 0
  | .scalar (.unary _), count => count = 1
  | .scalar .round, count => count = 1 || count = 2
  | .scalar .coalesce, count => 0 < count
  | .unknown _, _ => false

mutual
/-- Whether the phrase has only forms that expressions have, and no name in it is qualified. -/
def isExpr : Phrase → Bool
  | path qualifiers _ _ => qualifiers.isEmpty
  | number _ | string _ | bool _ | null => true
  | paren p | minus p | not p | isNull p => p.isExpr
  | compare _ l r | arith _ l r | junction _ l r => l.isExpr && r.isExpr
  | call name args => (callee name).takes args.length && areExprs args
  | otherTest | cast _ | windowed | type .. | placeholder _ | form _ => false
def areExprs : List Phrase → Bool
  | [] => true
  | p :: ps => p.isExpr && areExprs ps
end

mutual
/-- Whether a name in the phrase is qualified. -/
def isQualified : Phrase → Bool
  | path qualifiers _ _ => !qualifiers.isEmpty
  | paren p | minus p | not p | isNull p => p.isQualified
  | compare _ l r | arith _ l r | junction _ l r => l.isQualified || r.isQualified
  | call _ args => areQualified args
  | _ => false
def areQualified : List Phrase → Bool
  | [] => false
  | p :: ps => p.isQualified || areQualified ps
end

theorem areExprs_append (ps qs : List Phrase) :
    areExprs (ps ++ qs) = (areExprs ps && areExprs qs) := by
  induction ps with
  | nil => rfl
  | cons p ps ih => simp [areExprs, ih, Bool.and_assoc]

/-- Comparisons by the marks for them. -/
def compareMarks : List (String × CompareOp) :=
  [("<", .order .lt), ("<=", .order .le), (">", .order .gt), (">=", .order .ge), ("=", .eq),
    ("==", .eq), ("<>", .ne), ("!=", .ne)]

def arithMarks : List (String × ArithOp) := [("*", .mul), ("/", .div), ("+", .add), ("-", .sub)]

/-- Lexemes that say nothing where an operand is missing. -/
def Idle (ls : List Lexeme) : Prop := ∀ l ∈ ls, l.token = .mark "+" ∨ l.key = "AS"

/-- The name that a call is known by, where a token stands for the function: its main name, or what
is written. -/
inductive Names (t : Token) : String → Prop
  | known : Names t (functionName (Text.upper t.text))
  | other : Names t t.text
  | quoted {n : String} (h : t = .name n) : Names t (WrittenName.inQuotes n)

/-- The lexemes, where the first of them is taken for a name if it is a word. -/
inductive Renames : List Lexeme → List Lexeme → Prop
  | kept (ls : List Lexeme) : Renames ls ls
  | named (w : String) (comments : List String) (ls : List Lexeme) :
      Renames (⟨.word w, comments⟩ :: ls) (⟨.name w, comments⟩ :: ls)

mutual
/-- The phrase is read from the lexemes, and each of them has a use in it. -/
inductive Uses : Phrase → List Lexeme → Prop
  | name {l : Lexeme} {n : WrittenName} {comments : List String} (h : n.text = l.token.text)
      (hl : ∀ form, l.token ≠ .literal form) : Uses (.path [] n comments) [l]
  | number {l : Lexeme} {n : String} (h : l.token = .number n) : Uses (.number n) [l]
  | fraction {l m : Lexeme} {n : String} (hl : l.token = .mark ".") (hm : m.token = .number n) :
      Uses (.number ("0." ++ n)) [l, m]
  | string {l : Lexeme} {s : String} (h : l.token = .string s) : Uses (.string s) [l]
  | null {l : Lexeme} (h : l.key = "NULL") : Uses .null [l]
  | bool {l : Lexeme} {b : Bool} (h : l.key = if b then "TRUE" else "FALSE") : Uses (.bool b) [l]
  | paren {l m : Lexeme} {p : Phrase} {ls : List Lexeme} (hl : l.token = .mark "(")
      (h : UsesAll [p] ls) (hm : m.token = .mark ")") : Uses (.paren p) (l :: ls ++ [m])
  | minus {l : Lexeme} {p : Phrase} {ls : List Lexeme} (hl : l.token = .mark "-") (h : Uses p ls) :
      Uses (.minus p) (l :: ls)
  /-- A plus sign changes nothing. -/
  | plus {l : Lexeme} {p : Phrase} {ls : List Lexeme} (hl : l.token = .mark "+") (h : Uses p ls) :
      Uses p (l :: ls)
  | not {l : Lexeme} {p : Phrase} {ls : List Lexeme} (hl : l.key = "NOT") (h : Uses p ls) :
      Uses (.not p) (l :: ls)
  | compare {l : Lexeme} {m : String} {op : CompareOp} {p q : Phrase} {ls ms : List Lexeme}
      (hp : Uses p ls) (hl : l.token = .mark m) (hop : compareMarks.lookup m = some op)
      (hq : Uses q ms) : Uses (.compare op p q) (ls ++ l :: ms)
  | arith {l : Lexeme} {m : String} {op : ArithOp} {p q : Phrase} {ls ms : List Lexeme}
      (hp : Uses p ls) (hl : l.token = .mark m) (hop : arithMarks.lookup m = some op)
      (hq : Uses q ms) : Uses (.arith op p q) (ls ++ l :: ms)
  | junction {l : Lexeme} {op : Junction} {p q : Phrase} {ls ms : List Lexeme}
      (hp : Uses p ls) (hl : l.key = op.symbol) (hq : Uses q ms) :
      Uses (.junction op p q) (ls ++ l :: ms)
  | isNull {p : Phrase} {ls ms : List Lexeme} (hp : Uses p ls)
      (hms : ms.map Lexeme.key ∈ [["IS", "NULL"], ["IS", "UNKNOWN"], ["ISNULL"]]) :
      Uses (.isNull p) (ls ++ ms)
  | notNull {p : Phrase} {ls ms : List Lexeme} (hp : Uses p ls)
      (hms : ms.map Lexeme.key ∈
        [["IS", "NOT", "NULL"], ["IS", "NOT", "UNKNOWN"], ["NOTNULL"], ["NOT", "NULL"]]) :
      Uses (.not (.isNull p)) (ls ++ ms)
  | orElse {l : Lexeme} {p : Phrase} {args : List Phrase} {ls ms : List Lexeme} (hp : Uses p ls)
      (hl : l.token = .mark "??") (h : UsesAll args ms) :
      Uses (.call "coalesce" (p :: args)) (ls ++ l :: ms)
  | absolute {l : Lexeme} {args : List Phrase} {ls ms : List Lexeme} (hl : l.token = .mark "@")
      (hls : Renames ls ms) (h : UsesAll args ms) : Uses (.call "ABS" args) (l :: ls)
  | call {l m n : Lexeme} {name : String} {args : List Phrase} {ls : List Lexeme}
      (hname : Names l.token name) (hm : m.token = .mark "(") (h : UsesAll args ls)
      (hn : n.token = .mark ")") : Uses (.call name args) (l :: m :: ls ++ [n])
  /-- A word for an alias or an operator is passed over if what belongs to it is missing. -/
  | passed {l : Lexeme} {p : Phrase} {ls : List Lexeme} (h : Uses p ls)
      (hl : l.key = "AS" ∨ l.key = "OPERATOR") : Uses p (ls ++ [l])
  | notPassed {l m : Lexeme} {p : Phrase} {ls : List Lexeme} (h : Uses p ls) (hl : l.key = "NOT")
      (hm : m.key = "OPERATOR") : Uses (.not p) (ls ++ [l, m])
/-- The phrases are read from the lexemes with commas between them; some may be missing. -/
inductive UsesAll : List Phrase → List Lexeme → Prop
  | none {ls : List Lexeme} (h : Idle ls) : UsesAll [] ls
  | one {p : Phrase} {ls : List Lexeme} (h : Uses p ls) : UsesAll [p] ls
  | more {l : Lexeme} {ps qs : List Phrase} {ls ms : List Lexeme} (hps : UsesAll ps ls)
      (hl : l.token = .mark ",") (hqs : UsesAll qs ms) : UsesAll (ps ++ qs) (ls ++ l :: ms)
end

theorem Uses.ne_nil {p : Phrase} {ls : List Lexeme} (h : p.Uses ls) : ls ≠ [] := by
  cases h with
  | isNull hp hms =>
      intro hnil
      rw [(List.append_eq_nil_iff.1 hnil).2] at hms
      exact absurd hms (by decide)
  | notNull hp hms =>
      intro hnil
      rw [(List.append_eq_nil_iff.1 hnil).2] at hms
      exact absurd hms (by decide)
  | _ => simp

end Phrase

end Tabula
