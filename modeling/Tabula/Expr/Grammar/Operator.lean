import Tabula.Expr.Reader

/-!
Operators, from tight to loose: signs, powers, products, sums, bits, ranges, comparisons,
equalities, tests by `IS`, AND, OR. Operators of one level join from left to right. A NOT may stand
wherever an operand may, and takes everything to its right that binds more tightly than AND. A test
takes the whole of its left side down to equalities; what follows it may only be ranges,
comparisons, equalities and further tests.
-/

namespace Tabula

open Reader

/-- What joins two operands; the right one may be missing where that has a meaning. -/
abbrev Joint := Phrase → Option Phrase → Option Phrase

namespace Joint

/-- A joint that needs both operands. -/
def both (f : Phrase → Phrase → Phrase) : Joint := fun l r => r.map (f l)

def compare (op : CompareOp) : Joint := both (.compare op)

def arith (op : ArithOp) : Joint := both (.arith op)

def junction (op : Junction) : Joint := both (.junction op)

/-- An operator that no expression has, by the name of its form. -/
def form (name : String) : Joint := both fun _ _ => .form name

/-- An operator that calls a function. -/
def call (name : String) : Joint := both fun l r => .call name [l, r]

/-- The first operand that is not null. -/
def coalesce : Joint := fun l r => some (.call "coalesce" (l :: r.toList))

end Joint

/-- Finds a joint where an operator may stand. -/
abbrev Joints := Reader (Option Joint)

/-- A joint for each of some marks. -/
def marked (table : List (String × Joint)) : Joints := do
  match ← peek with
  | some ⟨.mark m, _⟩ =>
      match table.lookup m with
      | some j => skip; return some j
      | none => return none
  | _ => return none

/-- A joint for a word. -/
def worded (k : String) (j : Joint) : Joints := do
  if ← word k then return some j else return none

/-- Joins one more operand to what stands to the left, if an operator follows. -/
def joinOne (operand : Reader (Option Phrase)) (joints : Joints) (left : Phrase) :
    Reader (Option Phrase) := do
  match ← joints with
  | none => return none
  | some j =>
      match j left (← operand) with
      | some p => return some p
      | none => failure

/-- Operands joined from left to right, beginning with `left`. An operator without an operand to
its left is at fault. -/
def chainFrom (operand : Reader (Option Phrase)) (joints : Joints) (left : Option Phrase) :
    Reader (Option Phrase) := do
  match left with
  | some p => return some (← goOn (joinOne operand joints) p)
  | none =>
      match ← joints with
      | some _ => failure
      | none => return none

def chain (operand : Reader (Option Phrase)) (joints : Joints) : Reader (Option Phrase) := do
  chainFrom operand joints (← operand)

/-- A time with a zone. -/
def zoned (g : Grammar) (_ : Phrase) : Reader (Option Phrase) := do
  if ← words ["AT", "TIME", "ZONE"] then
    let _ ← need (g .signed)
    return some (.form "AtTimeZone")
  else return none

def power (g : Grammar) : Reader (Option Phrase) :=
  chain (g .signed) (marked [("^", .call "power"), ("**", .call "power")])

/-- Division of integers, unless the word for it is a name. -/
def integerDivision (g : Grammar) : Joints := do
  match ← peek with
  | some ⟨.word _, _⟩ =>
      let start ← get
      if ← word "DIV" then
        let after ← get
        match ← power g with
        | some _ =>
            set after
            return some (.form "IntDiv")
        | none =>
            set start
            return none
      else return none
  | _ => return none

def product (g : Grammar) : Reader (Option Phrase) := do
  let first ←
    match ← power g with
    | some p => pure (some (← goOn (zoned g) p))
    | none => pure none
  chainFrom (power g)
    (either
      (marked [("*", .arith .mul), ("/", .arith .div), ("//", .form "IntDiv"),
        ("<->", .form "Distance")])
      (integerDivision g)) first

def sum (g : Grammar) : Reader (Option Phrase) :=
  chain (product g)
    (either (marked [("+", .arith .add), ("-", .arith .sub), ("%", .form "Mod")])
      (worded "COLLATE" (.call "collate")))

/-- Two marks in a row that shift bits. -/
def shift (m name : String) : Joints := do
  if (← atMark m) && (← secondAtMark m) then
    skip
    skip
    return some (.form name)
  else return none

def bits (g : Grammar) : Reader (Option Phrase) :=
  chain (sum g)
    (either
      (marked [("&", .form "BitwiseAnd"), ("|", .form "BitwiseOr"), ("||", .form "DPipe"),
        ("??", .coalesce)])
      (either (shift "<" "BitwiseLeftShift") (shift ">" "BitwiseRightShift")))

/-- The operators of a range that stand between two operands. -/
def rangeMarks : List (String × Joint) :=
  [("~", .call "regexp_like"), ("~*", .call "regexp_i_like"), ("~~", .form "Like"),
    ("~~*", .form "ILike"), ("~~~", .form "Glob"), ("@>", .call "array_contains_all"),
    ("<@", .call "array_contains_all"), ("&&", .call "array_overlaps"),
    ("^@", .call "starts_with"), ("&<", .form "ExtendsLeft"), ("&>", .form "ExtendsRight"),
    ("-|-", .form "Adjacent")]

def rangeWords : List (String × Joint) :=
  [("LIKE", .form "Like"), ("ILIKE", .form "ILike"), ("GLOB", .form "Glob"),
    ("RLIKE", .call "regexp_like"), ("REGEXP", .call "regexp_like"),
    ("SIMILAR TO", .form "SimilarTo"), ("OVERLAPS", .form "Overlaps")]

/-- An operator of a range and its right operand, which an escape may follow. -/
def rangeOperator (g : Grammar) (left : Phrase) : Reader (Option Phrase) := do
  let joint : Option Joint ←
    match ← marked rangeMarks with
    | some j => pure (some j)
    | none =>
        match rangeWords.lookup (← key) with
        | some j => skip; pure (some j)
        | none => pure none
  match joint with
  | none => return none
  | some j =>
      match j left (← g .bits) with
      | none => failure
      | some p =>
          if ← word "ESCAPE" then
            match ← peek with
            | some ⟨.string _, _⟩ => skip
            | _ => expect (word "NULL")
            return some (.form "Escape")
          else return some p

/-- Whether an operand stands between two others. -/
def between (g : Grammar) : Reader (Option Phrase) := do
  if ← word "BETWEEN" then
    let _ ← oneOf ["SYMMETRIC", "ASYMMETRIC"]
    let _ ← need (g .bits)
    let _ ← word "AND"
    let _ ← need (g .bits)
    return some (.form "Between")
  else return none

/-- Whether an operand is among others. -/
def membership (g : Grammar) : Reader (Option Phrase) := do
  if ← word "IN" then
    if ← mark "(" then
      let _ ← separated (either (g (.select false)) (g .assignment))
      expect (mark ")")
    else if ← mark "[" then
      let _ ← separated (either (g (.select false)) (g .assignment))
      expect (mark "]")
    else
      let _ ← g .column
    return some (.form "In")
  else return none

/-- A list by its members. -/
def comprehension (g : Grammar) : Reader (Option Phrase) := do
  let start ← get
  if ← word "FOR" then
    let _ ← g .column
    if ← mark "," then
      let _ ← g .column
    if ← word "IN" then
      let _ ← need (g .column)
      if ← word "IF" then
        let _ ← need (g .disjunction)
      return some (.form "Comprehension")
    else
      set start
      return none
  else return none

/-- Operators that are written out; the word alone is passed over. -/
def writtenOperator (g : Grammar) (left : Phrase) : Reader (Option Phrase) := do
  if ← word "OPERATOR" then
    if ← mark "(" then
      let ls ← get
      set (ls.dropWhile fun l => l.token ≠ .mark ")")
      expect (mark ")")
      let _ ← need (g .bits)
      return some (.form "Operator")
    else return some left
  else return none

def rangeStep (g : Grammar) (left : Phrase) : Reader (Option Phrase) :=
  either (rangeOperator g left)
    (either (between g)
      (either (membership g) (either (comprehension g) (writtenOperator g left))))

/-- A range after its first operand; a NOT before the operator is a NOT of the whole. -/
def rangeTail (g : Grammar) (left : Phrase) : Reader (Option Phrase) := do
  let start ← get
  if ← word "NOT" then
    match ← rangeStep g left with
    | some p => return some (.not p)
    | none =>
        set start
        return none
  else rangeStep g left

/-- A range that begins with `left`, or with bits. -/
def rangeFrom (g : Grammar) (left : Option Phrase) : Reader (Option Phrase) := do
  let first ←
    match left with
    | some p => pure (some p)
    | none => g .bits
  match first with
  | none => return none
  | some p =>
      match ← rangeTail g p with
      | some q => return some q
      | none => return some p

def comparisonFrom (g : Grammar) (left : Option Phrase) : Reader (Option Phrase) := do
  chainFrom (rangeFrom g none)
    (marked [("<", .compare (.order .lt)), ("<=", .compare (.order .le)),
      (">", .compare (.order .gt)), (">=", .compare (.order .ge))]) (← rangeFrom g left)

def equalityFrom (g : Grammar) (left : Option Phrase) : Reader (Option Phrase) := do
  chainFrom (comparisonFrom g none)
    (marked [("=", .compare .eq), ("==", .compare .eq), ("<>", .compare .ne), ("!=", .compare .ne),
      ("<=>", .form "NullSafeEQ")]) (← comparisonFrom g left)

/-- What stands after the words of a test by `IS`, of which a null is the one that expressions have.
-/
def testedFor (g : Grammar) (left : Phrase) : Reader (Option Phrase) := do
  if ← oneOf ["NULL", "UNKNOWN"] then return some (.isNull left)
  else if ← word "JSON" then
    let _ ← oneOf ["VALUE", "SCALAR", "ARRAY", "OBJECT"]
    let _ ← oneOf ["WITH", "WITHOUT"]
    let _ ← word "UNIQUE"
    let _ ← word "KEYS"
    return some .otherTest
  else return (← rangeFrom g none).map fun _ => .otherTest

/-- A test by `IS`, unless nothing follows the word. What may follow an operand may follow a test.
-/
def isTest (g : Grammar) (suffix : Phrase → Reader Phrase) (left : Phrase) :
    Reader (Option Phrase) := do
  let start ← get
  if ← word "IS" then
    let negated ← word "NOT"
    if ← words ["DISTINCT", "FROM"] then
      let _ ← need (rangeFrom g none)
      return some (.form (if negated then "NullSafeEQ" else "NullSafeNEQ"))
    else
      match ← testedFor g left with
      | some p => return some (← suffix (if negated then .not p else p))
      | none =>
          set start
          return none
  else return none

/-- A test for a null by one word. -/
def nullTest (left : Phrase) : Reader (Option Phrase) := do
  if ← word "ISNULL" then return some (.isNull left)
  else if ← word "NOTNULL" then return some (.not (.isNull left))
  else if ← words ["NOT", "NULL"] then return some (.not (.isNull left))
  else return none

/-- A test after its operand, and what may follow it. -/
def testTail (g : Grammar) (suffix : Phrase → Reader Phrase) (left : Phrase) :
    Reader (Option Phrase) := do
  match ← either (isTest g suffix left) (nullTest left) with
  | some p => equalityFrom g (some p)
  | none => return none

def conditionRule (g : Grammar) (suffix : Phrase → Reader Phrase) : Reader (Option Phrase) := do
  match ← equalityFrom g none with
  | some p => return some (← goOn (testTail g suffix) p)
  | none => if ← word "NOTNULL" then failure else return none

def disjunctionRule (g : Grammar) : Reader (Option Phrase) :=
  chain (chain (g .condition) (worded "AND" (.junction .and))) (worded "OR" (.junction .or))

/-- A sign, a NOT, a complement, or something without any. -/
def signedRule (g : Grammar) (operand : Reader (Option Phrase)) : Reader (Option Phrase) := do
  if ← mark "+" then g .signed
  else if ← mark "-" then return some (.minus (← need (g .signed)))
  else if ← mark "~" then
    let _ ← need (g .signed)
    return some (.form "BitwiseNot")
  else if ← word "NOT" then return some (.not (← need (g .condition)))
  else operand

end Tabula
