import DclServer.Double.Basic
import DclServer.Text.Basic

namespace DclServer.Double

structure Decimal where
  coefficient : Nat
  exponent : Int
  deriving DecidableEq, Repr

def narrowBelow (m : Nat) (q : Int) : Bool :=
  m == power 2 52 && -1074 < q

/-- The multiple of `10 ^ p` nearest to `m * 2 ^ q` among the two around it that round to it. The
values that round to it reach half way to its neighbours, ends included when `m` is even; all is
counted in units in which both grids are whole. -/
def nearestOnGrid (m : Nat) (q p : Int) : Option Nat :=
  let r := q - 2
  let ten := power 10 p * power 2 (-r)
  let bit := power 2 r * power 10 (-p)
  let value := 4 * m * bit
  let low := (4 * m - if narrowBelow m q then 1 else 2) * bit
  let high := (4 * m + 2) * bit
  let inside (c : Nat) : Bool :=
    if m % 2 = 0 then low ≤ c * ten && c * ten ≤ high else low < c * ten && c * ten < high
  let below := value / ten
  let above := below + 1
  let gap := 2 * (value - below * ten)
  if inside below then
    if inside above && (ten < gap || gap == ten && below % 2 == 1) then some above else some below
  else if inside above then some above
  else none

def decade (m : Nat) (q : Int) : Int :=
  let num := m * power 2 q
  let den := power 2 (-q)
  if den ≤ num then (Nat.toDigits 10 (num / den)).length - 1
  else -((Nat.toDigits 10 ((den - 1) / num)).length : Int)

/-- The fewest digits that read back as `m * 2 ^ q`; seventeen always do. -/
def shortest (m : Nat) (q : Int) : Decimal :=
  let k := decade m q
  ((List.range 17).findSome? fun (i : Nat) =>
    (nearestOnGrid m q (k - i)).map fun c => ⟨c, k - i⟩).getD ⟨0, 0⟩

def dropZeros (ds : List Char) : List Char :=
  (ds.reverse.dropWhile (· == '0')).reverse

def positional (ds : List Char) (e : Int) : List Char :=
  if e < 0 then '0' :: '.' :: List.replicate (-e - 1).toNat '0' ++ ds
  else
    let whole := ds.take (e + 1).toNat
    let rest := ds.drop (e + 1).toNat
    whole ++ List.replicate ((e + 1).toNat - whole.length) '0' ++ '.' :: (if rest = [] then ['0'] else rest)

def scientific (ds : List Char) (e : Int) : List Char :=
  ds.take 1 ++ (if ds.length ≤ 1 then [] else '.' :: ds.drop 1) ++ 'e' :: (if e < 0 then '-' else '+') ::
    Text.padZeros 2 (Nat.toDigits 10 e.natAbs)

def Decimal.toChars (d : Decimal) : List Char :=
  let ds := Nat.toDigits 10 d.coefficient
  let e : Int := ds.length - 1 + d.exponent
  let ds := dropZeros ds
  if -4 ≤ e ∧ e < 16 then positional ds e else scientific ds e

def toChars : Double → List Char
  | .nan => "nan".toList
  | .infinite negative => if negative then "-inf".toList else "inf".toList
  | .finite negative m q =>
    (if negative then ['-'] else []) ++ if m = 0 then "0.0".toList else (shortest m q).toChars

def text (x : Double) : String :=
  String.ofList x.toChars

end DclServer.Double
