import Tabula.Value

/-!
Order and equality of values. Numbers are compared exactly, whatever their form: each stands at a
whole number of units of the finest double, or past all of them. Not-a-number stands nowhere, so no
comparison with it holds. Booleans count as zero and one. Texts are ordered by code points, lists
by their first difference, and a list never differs from itself; values of unlike kinds are never
equal and have no order.
-/

namespace Tabula

/-- Where a number stands among all integers and doubles. -/
inductive Place
  | below
  | at (units : Int)
  | above
  deriving DecidableEq, Repr

namespace Place

def lt : Place → Place → Bool
  | below, below => false
  | below, _ => true
  | _, below => false
  | above, _ => false
  | _, above => true
  | .at a, .at b => a < b

def le (a b : Place) : Bool := !b.lt a

@[simp] theorem lt_irrefl (a : Place) : a.lt a = false := by cases a <;> simp [lt]

theorem le_refl (a : Place) : a.le a = true := by simp [le]

theorem le_trans {a b c : Place} : a.le b = true → b.le c = true → a.le c = true := by
  cases a <;> cases b <;> cases c <;> simp [le, lt]
  omega

theorem le_total (a b : Place) : (a.le b || b.le a) = true := by
  cases a <;> cases b <;> simp [le, lt]
  omega

theorem le_antisymm {a b : Place} : a.le b = true → b.le a = true → a = b := by
  cases a <;> cases b <;> simp [le, lt]
  omega

end Place

/-- The four order comparisons. -/
inductive Order
  | lt
  | le
  | gt
  | ge
  deriving DecidableEq, Repr

def Order.symbol : Order → String
  | lt => "<"
  | le => "<="
  | gt => ">"
  | ge => ">="

/-- What the comparison says of two things, given whether the first is before the second and
whether they are equal. -/
def Order.holds (o : Order) (before same : Bool) : Bool :=
  match o with
  | lt => before
  | le => before || same
  | gt => !before && !same
  | ge => !before

/-- Two forms that a comparison found no order between. -/
structure Clash where
  order : Order
  left : String
  right : String
  deriving DecidableEq, Repr

def Clash.message (c : Clash) : String :=
  s!"'{c.order.symbol}' not supported between instances of '{c.left}' and '{c.right}'"

namespace Value

/-- The place of a number or boolean. -/
def place? : Value → Option Place
  | bool b => some (.at ((if b then 1 else 0) * Number.twoTo Number.unitBits))
  | int n => some (.at (n * Number.twoTo Number.unitBits))
  | float x =>
      match Number.Parts.of x with
      | .nan => none
      | .infinite true => some .below
      | .infinite false => some .above
      | .finite false m e => some (.at (m <<< e : Nat))
      | .finite true m e => some (.at (-(m <<< e : Nat) : Int))
  | _ => none

/-- Whether the value is a number or a boolean. -/
def isNumeric : Value → Bool
  | bool _ => true
  | int _ => true
  | float _ => true
  | _ => false

mutual
/-- Equality of values: numbers by place, not-a-number to nothing. -/
def same : Value → Value → Bool
  | null, null => true
  | str a, str b => a == b
  | list i xs, list j ys => i == j || sameItems xs ys
  | a, b =>
      match a.place?, b.place? with
      | some p, some q => p == q
      | _, _ => false
def sameItems : List Value → List Value → Bool
  | [], [] => true
  | x :: xs, y :: ys => x.same y && sameItems xs ys
  | _, _ => false
end

mutual
/-- Whether an order comparison holds, or the two forms that have no order. -/
def compare (o : Order) : Value → Value → Except Clash Bool
  | str a, str b => .ok (o.holds (a < b) (a == b))
  | list i xs, list j ys => if i = j then .ok (o.holds false true) else compareItems o xs ys
  | a, b =>
      if a.isNumeric && b.isNumeric then
        match a.place?, b.place? with
        | some p, some q => .ok (o.holds (p.lt q) (p == q))
        | _, _ => .ok false
      else .error ⟨o, a.formName, b.formName⟩
/-- Lists are compared at their first difference, or else by length. -/
def compareItems (o : Order) : List Value → List Value → Except Clash Bool
  | [], [] => .ok (o.holds false true)
  | [], _ :: _ => .ok (o.holds true false)
  | _ :: _, [] => .ok (o.holds false false)
  | x :: xs, y :: ys => if x.same y then compareItems o xs ys else compare o x y
end

end Value

end Tabula
