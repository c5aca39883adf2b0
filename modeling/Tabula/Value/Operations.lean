import Tabula.Failure
import Tabula.Text.Casing

/-!
What expressions compute from values. Null goes through every operation but the tests for it and
`coalesce`; conditions have three truth values; a quotient by zero is null. Integers are exact of
any size, and an operation on an integer and a double takes the integer as a double first.
-/

namespace Tabula

/-- Why an operation has no result. -/
inductive OpFault
  | notDefined (what : String) (values : List Value)
  | range (cause : RangeCause)
  | negativeRoot (v : Value)
  | nonPositiveLogarithm (v : Value)
  | noOrder (clash : Clash)

namespace Value

/-- A number as a double. -/
def toFloat : Value → Except OpFault Float
  | int n => (Number.ofInt? n).elim (.error (.range .integerTooLarge)) .ok
  | float x => .ok x
  | v => .error (.notDefined "number" [v])

/-- Whether a number is zero. -/
def isZero (v : Value) : Bool := v.same (int 0)

def exactArith (op : ArithOp) (a b : Int) : Except OpFault Value :=
  match op with
  | .add => .ok (int (a + b))
  | .sub => .ok (int (a - b))
  | .mul => .ok (int (a * b))
  | .div => (Number.ofDiv? a b).elim (.error (.range .quotientTooLarge)) fun x => .ok (float x)

def floatArith (op : ArithOp) (x y : Float) : Float :=
  match op with
  | .add => x + y
  | .sub => x - y
  | .mul => x * y
  | .div => x / y

/-- Arithmetic on numbers. -/
def numberArith (op : ArithOp) (a b : Value) : Except OpFault Value :=
  if op = .div ∧ b.isZero then .ok null
  else match a, b with
    | int m, int n => exactArith op m n
    | a, b => do return float (floatArith op (← a.toFloat) (← b.toFloat))

def arith (op : ArithOp) (a b : Value) : Except OpFault Value :=
  if a.isNull || b.isNull then .ok null
  else if a.kind = .number ∧ b.kind = .number then numberArith op a b
  else .error (.notDefined ("operator " ++ op.symbol) [a, b])

/-- A comparison inside one kind. -/
def compareSame (op : CompareOp) (a b : Value) : Except OpFault Bool :=
  match op with
  | .eq => .ok (a.same b)
  | .ne => .ok !(a.same b)
  | .order o => (a.compare o b).mapError .noOrder

def comparison (op : CompareOp) (a b : Value) : Except OpFault Value :=
  if a.isNull || b.isNull then .ok null
  else if a.kind = b.kind then do return bool (← compareSame op a b)
  else .error (.notDefined ("comparison " ++ op.symbol) [a, b])

/-- A condition is true, false or unknown. -/
def truth (what : String) : Value → Except OpFault (Option Bool)
  | null => .ok none
  | bool b => .ok (some b)
  | v => .error (.notDefined what [v])

def ofTruth : Option Bool → Value
  | none => null
  | some b => bool b

end Value

/-- One false operand decides a conjunction and one true operand a disjunction; otherwise one
unknown leaves it unknown. -/
def Junction.join (op : Junction) (truths : List (Option Bool)) : Option Bool :=
  let decisive := op = .or
  if truths.contains (some decisive) then some decisive
  else if truths.contains none then none
  else some !decisive

namespace Value

def negation (v : Value) : Except OpFault Value := do
  return ofTruth ((← v.truth "NOT").map (!·))

def junction (op : Junction) (vs : List Value) : Except OpFault Value := do
  return ofTruth (op.join (← vs.mapM (truth op.symbol)))

def nullTest (negated : Bool) (v : Value) : Value := bool (v.isNull != negated)

/-- The first value that is not null. -/
def coalesce (vs : List Value) : Value := (vs.find? fun v => !v.isNull).getD null

def unaryNumber (f : UnaryFn) (v : Value) : Except OpFault Value :=
  match f with
  | .abs =>
      match v with
      | int n => .ok (int n.natAbs)
      | v => do return float (← v.toFloat).abs
  | .sqrt =>
      if v.compare .lt (int 0) matches .ok true then .error (.negativeRoot v)
      else do return float (← v.toFloat).sqrt
  | .exp => do
      let x ← v.toFloat
      let y := x.exp
      if x.isFinite && !y.isFinite then throw (.range .exponential)
      return float y
  | .ln =>
      if v.compare .le (int 0) matches .ok true then .error (.nonPositiveLogarithm v)
      else match v with
        | int n => .ok (float (Number.logNat n.natAbs))
        | v => do return float (← v.toFloat).log
  | .lower | .upper => .error (.notDefined (f.name ++ "()") [v])

def unary (f : UnaryFn) (v : Value) : Except OpFault Value :=
  match f, v with
  | _, null => .ok null
  | .lower, str s => .ok (str (Text.lower s))
  | .upper, str s => .ok (str (Text.upper s))
  | f, v =>
      if v.kind = .number then unaryNumber f v else .error (.notDefined (f.name ++ "()") [v])

/-- The power of ten by which a double is scaled to round it. -/
def roundingPower (places : Int) : Except OpFault Float := do
  let exponent ← (int places.natAbs).toFloat
  let power := Float.pow 10.0 exponent
  if power.isFinite then return power else throw (.range .powerOfTen)

def roundNumber (v : Value) (places : Int) : Except OpFault Value :=
  match v with
  | int n => .ok (int (Number.roundInt n places))
  | v => do
      let x ← v.toFloat
      return float (Number.roundScaled x (← roundingPower places) (0 ≤ places))

def round (v : Value) : Except OpFault Value :=
  if v.isNull then .ok null
  else if v.kind = .number then roundNumber v 0
  else .error (.notDefined "round()" [v])

def roundTo (v places : Value) : Except OpFault Value :=
  if v.isNull || places.isNull then .ok null
  else if v.kind = .number ∧ places.kind = .number then
    match places with
    | int p => roundNumber v p
    | p => .error (.notDefined "round() precision" [p])
  else .error (.notDefined "round()" [v, places])

end Value

end Tabula
