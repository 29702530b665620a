namespace DclServer

/-- A binary floating point number of 53 bits: a finite one is its significand times two to its
exponent, with the sign kept apart so that zero has two. -/
inductive Double where
  | nan
  | infinite (negative : Bool)
  | finite (negative : Bool) (significand : Nat) (exponent : Int)
  deriving DecidableEq, Repr

namespace Double

def zero (negative : Bool) : Double := .finite negative 0 (-1074)

def roundQuotient (num den : Nat) : Nat :=
  let q := num / den
  let r := num % den
  if 2 * r < den ∨ 2 * r = den ∧ q % 2 = 0 then q else q + 1

def power (base : Nat) (e : Int) : Nat := base.pow e.toNat

def scale (num den : Nat) (e : Int) : Nat × Nat :=
  (num * power 2 (-e), den * power 2 e)

/-- The exponent of the last bit that a fraction keeps: 53 bits, or fewer at the lower end. -/
def lastBit (num den : Nat) : Int :=
  let e : Int := (num.log2 : Int) - den.log2 - 52
  let (n, d) := scale num den e
  max (-1074) (if n / d < power 2 52 then e - 1 else e)

def ofFraction (negative : Bool) (num den : Nat) : Double :=
  if num = 0 then zero negative
  else
    let e := lastBit num den
    let (n, d) := scale num den e
    let m := roundQuotient n d
    let (m, e) := if m = power 2 53 then (power 2 52, e + 1) else (m, e)
    if 971 < e then .infinite negative else .finite negative m e

/-- The number nearest to `coefficient * 10 ^ exponent`. Powers of ten that no finite number can
need are not computed. -/
def ofDecimal (negative : Bool) (coefficient : Nat) (exponent : Int) : Double :=
  let size := (Nat.toDigits 10 coefficient).length + exponent
  if coefficient = 0 ∨ size < -330 then zero negative
  else if 310 < size then .infinite negative
  else ofFraction negative (coefficient * power 10 exponent) (power 10 (-exponent))

def isZero : Double → Bool
  | .finite _ m _ => m == 0
  | _ => false

def toInt? : Double → Option Int
  | .finite negative m e =>
    let d := power 2 (-e)
    if m % d = 0 then
      let n : Int := (m / d * power 2 e : Nat)
      some (if negative then -n else n)
    else none
  | _ => none

def fraction? : Double → Option (Nat × Nat)
  | .finite _ m e => some (m * power 2 e, power 2 (-e))
  | _ => none

def plus (x y : Double) : Double :=
  match x.fraction?, y.fraction? with
  | some (n, d), some (m, e) => ofFraction false (n * e + m * d) (d * e)
  | _, _ => .infinite false

def times (x y : Double) : Double :=
  match x.fraction?, y.fraction? with
  | some (n, d), some (m, e) => ofFraction false (n * m) (d * e)
  | _, _ => .infinite false

def negate : Double → Double
  | .nan => .nan
  | .infinite negative => .infinite !negative
  | .finite negative m e => .finite (!negative) m e

end Double

end DclServer
