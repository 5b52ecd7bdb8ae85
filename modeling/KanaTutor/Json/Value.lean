/-
JSON values. A number is kept as its leading digits and a power of ten, an object as its members with
distinct keys.
-/
import KanaTutor.Number.Double

namespace KanaTutor

namespace Json

/-- The number `mantissa · 10 ^ exponent` with its sign; the mantissa is a 64-bit word. -/
structure Number where
  negative : Bool
  mantissa : Nat
  exponent : Int
deriving DecidableEq, Repr

/-- A JSON value. -/
inductive Value where
  | null
  | bool (b : Bool)
  | number (n : Number)
  | string (t : Text)
  | array (items : List Value)
  | object (members : List (Text × Value))
deriving Repr

/-- The members with a value for `key`, in place of an earlier one. -/
def setMember (members : List (Text × Value)) (key : Text) (v : Value) : List (Text × Value) :=
  members.filter (·.1 ≠ key) ++ [(key, v)]

/-- The value of a member. -/
def member? (members : List (Text × Value)) (key : Text) : Option Value :=
  (members.find? (·.1 = key)).map (·.2)

/-! ## Numbers -/

/-- Divides by a power of ten that may lie beyond the largest binary64 number. -/
def divideByPower (x : Float) (e : Nat) : Float :=
  if e ≤ 308 then x / Double.ofDecimal 1 e
  else if x == 0.0 then x
  else divideByPower (x / 1e308) (e - 308)
termination_by e

/-- The binary64 number of a mantissa scaled once by a power of ten; nothing if that is too large. -/
def Number.magnitude? (n : Number) : Option Float :=
  let x := Double.ofNat n.mantissa
  match n.exponent with
  | .negSucc k => some (divideByPower x (k + 1))
  | .ofNat e =>
    if 308 < e then if n.mantissa = 0 then some x else none
    else
      let scaled := x * Double.ofDecimal 1 e
      if scaled == 1.0 / 0.0 then none else some scaled

/-- The binary64 number of a JSON number; nothing if that is too large. -/
def Number.toDouble? (n : Number) : Option Float := n.magnitude?.map (Double.signed n.negative)

end Json

end KanaTutor
