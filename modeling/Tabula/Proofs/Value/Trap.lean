import Tabula.Proofs.Number.Bits
import Tabula.Value.Operations

/-!
Operations over arithmetic that can trap. Dividing by zero, the root of a number below zero and the
logarithm of one not above zero stop a computation at once. The operations on values are said here
once more over such arithmetic; none of them ever meets a trap, because each asks first, and what a
value is as a double does not lose its sign or become zero. Nothing is known of the powers that
`Float.pow` gives, so a power of ten that were zero has a trap of its own.
-/

namespace Tabula

/-- What stops arithmetic. -/
inductive Trap
  | zeroDivisor
  /-- A double was to be scaled by a power of ten that is zero. -/
  | zeroPower
  | negativeRoot
  | nonPositiveLogarithm

namespace Number

/-- Whether a double is zero, of either sign. -/
def isZero (x : Float) : Bool :=
  match Parts.of x with
  | .finite _ m _ => m = 0
  | _ => false

/-- Whether a double is below zero. -/
def isNegative (x : Float) : Bool :=
  match Parts.of x with
  | .infinite negative => negative
  | .finite negative m _ => negative && m ≠ 0
  | .nan => false

def divide (x y : Float) : Except Trap Float :=
  if isZero y then .error .zeroDivisor else .ok (x / y)

/-- The double nearest to a quotient of integers. -/
def quotient? (m n : Int) : Except Trap (Option Float) :=
  if n = 0 then .error .zeroDivisor else .ok (ofDiv? m n)

def root (x : Float) : Except Trap Float :=
  if isNegative x then .error .negativeRoot else .ok x.sqrt

def logarithm (x : Float) : Except Trap Float :=
  if isZero x || isNegative x then .error .nonPositiveLogarithm else .ok x.log

def wholeLogarithm (n : Int) : Except Trap Float :=
  if n ≤ 0 then .error .nonPositiveLogarithm else .ok (logNat n.natAbs)

/-- An integer rounded by way of its quotient by a power of ten. -/
def roundIntByQuotient (n places : Int) : Except Trap Int :=
  if places < 0 ∧ tenTo (-places).toNat = 0 then .error .zeroDivisor else .ok (roundInt n places)

def divideByPower (x power : Float) : Except Trap Float :=
  if isZero power then .error .zeroPower else .ok (x / power)

def roundScaledByQuotient (x power : Float) (fraction : Bool) : Except Trap Float := do
  if fraction then
    let rounded ← divideByPower (roundWhole (x * power)) power
    return if rounded.isFinite then rounded else x
  else
    let rounded := roundWhole (← divideByPower x power) * power
    return if rounded.isFinite then rounded else 0.0

/-! ### Doubles of integers -/

section Nearest

variable {negative : Bool} {num den : Nat} {x : Float}

end Nearest

end Number

/-- No power of ten that doubles are scaled by is zero. -/
def Value.PowersNonzero : Prop :=
  ∀ places power, roundingPower places = .ok power → Number.isZero power = false

/-- A computation that may fail, over arithmetic that may trap. -/
abbrev Trapping (ε α : Type) := ExceptT ε (Except Trap) α

namespace Trapping

variable {ε α β : Type}

/-- The computation meets no trap and ends as the other one, unless a power of ten is zero. -/
def Yields (x : Trapping ε α) (y : Except ε α) : Prop :=
  x.run = .ok y ∨ x.run = .error .zeroPower ∧ ¬Value.PowersNonzero

theorem Yields.pure (a : α) : Yields (Pure.pure a : Trapping ε α) (.ok a) := .inl rfl

theorem Yields.throw (e : ε) : Yields (throw e : Trapping ε α) (.error e) := .inl rfl

/-- Arithmetic that does not trap gives its number to what follows. -/
theorem Yields.arithmetic {x : Except Trap α} {a : α} (h : x = .ok a) {f : α → Trapping ε β}
    {y : Except ε β} (hf : Yields (f a) y) : Yields (liftM x >>= f) y := by
  subst h
  exact hf

theorem Yields.bind {x : Trapping ε α} {y : Except ε α} (hx : Yields x y)
    {f : α → Trapping ε β} {g : α → Except ε β} (hf : ∀ a, y = .ok a → Yields (f a) (g a)) :
    Yields (x >>= f) (y >>= g) := by
  have hrun : (x >>= f).run = x.run >>= ExceptT.bindCont f := rfl
  rw [Yields, hrun]
  rcases hx with hx | ⟨hx, hpower⟩
  · rw [hx]
    cases y with
    | error e => exact .inl rfl
    | ok a => exact hf a rfl
  · rw [hx]
    exact .inr ⟨rfl, hpower⟩

theorem Yields.mapError {ε' : Type} {x : Trapping ε α} {y : Except ε α} (hx : Yields x y)
    (f : ε → ε') : Yields (ExceptT.adapt f x) (y.mapError f) := by
  have hrun : (ExceptT.adapt f x).run = (Except.mapError f) <$> x.run := rfl
  rw [Yields, hrun]
  rcases hx with hx | ⟨hx, hpower⟩
  · rw [hx]
    exact .inl rfl
  · rw [hx]
    exact .inr ⟨rfl, hpower⟩

end Trapping

namespace Value

open Number

/-- Arithmetic on integers. -/
def exactArithTrapping (op : ArithOp) (a b : Int) : Trapping OpFault Value := do
  match op with
  | .div =>
      match ← quotient? a b with
      | some x => return float x
      | none => throw (.range .quotientTooLarge)
  | op => liftExcept (exactArith op a b)

def floatArithTrapping (op : ArithOp) (x y : Float) : Except Trap Float :=
  match op with
  | .div => divide x y
  | op => .ok (floatArith op x y)

/-- Arithmetic on numbers. -/
def numberArithTrapping (op : ArithOp) (a b : Value) : Trapping OpFault Value := do
  if op = .div ∧ b.isZero then return null
  else match a, b with
    | int m, int n => exactArithTrapping op m n
    | a, b => do
        let x ← liftExcept a.toFloat
        let y ← liftExcept b.toFloat
        return float (← floatArithTrapping op x y)

def arithTrapping (op : ArithOp) (a b : Value) : Trapping OpFault Value :=
  if a.isNull || b.isNull then return null
  else if a.kind = .number ∧ b.kind = .number then numberArithTrapping op a b
  else throw (.notDefined ("operator " ++ op.symbol) [a, b])

def unaryNumberTrapping (f : UnaryFn) (v : Value) : Trapping OpFault Value :=
  match f with
  | .sqrt =>
      if v.compare .lt (int 0) matches .ok true then throw (.negativeRoot v)
      else do
        let x ← liftExcept v.toFloat
        return float (← root x)
  | .ln =>
      if v.compare .le (int 0) matches .ok true then throw (.nonPositiveLogarithm v)
      else match v with
        | int n => do return float (← wholeLogarithm n)
        | v => do
            let x ← liftExcept v.toFloat
            return float (← logarithm x)
  | f => liftExcept (unaryNumber f v)

def unaryTrapping (f : UnaryFn) (v : Value) : Trapping OpFault Value :=
  if v.kind = .number then unaryNumberTrapping f v else liftExcept (unary f v)

def roundNumberTrapping (v : Value) (places : Int) : Trapping OpFault Value := do
  match v with
  | int n => return int (← roundIntByQuotient n places)
  | v => do
      let x ← liftExcept v.toFloat
      let power ← liftExcept (roundingPower places)
      return float (← roundScaledByQuotient x power (0 ≤ places))

def roundTrapping (v : Value) : Trapping OpFault Value :=
  if v.isNull then return null
  else if v.kind = .number then roundNumberTrapping v 0
  else throw (.notDefined "round()" [v])

def roundToTrapping (v places : Value) : Trapping OpFault Value :=
  if v.isNull || places.isNull then return null
  else if v.kind = .number ∧ places.kind = .number then
    match places with
    | int p => roundNumberTrapping v p
    | p => throw (.notDefined "round() precision" [p])
  else throw (.notDefined "round()" [v, places])

/-! ### No operation meets a trap -/

open Trapping

end Value

end Tabula
