import SelectorRank.Text.Digit

/-! Decimal text of binary floating-point numbers: the coarsest decimal grid that has a point among
the reals that round to the number, and the nearest such point. -/
namespace SelectorRank.Decimal
open Text (natural)

/-- The reals that round to a number, as numerators over one denominator. -/
structure Interval where
  low : Nat
  value : Nat
  high : Nat
  unit : Nat
  closed : Bool
  deriving DecidableEq, Repr

/-- Neighbours of `m * 2 ^ q` lie half a step away, a quarter step below a power of two. -/
def interval (m : Nat) (q : Int) (narrow : Bool) : Interval :=
  let scale := Nat.pow 2 (q - 2).toNat
  ⟨(if narrow then 4 * m - 1 else 4 * m - 2) * scale, 4 * m * scale, (4 * m + 2) * scale,
    Nat.pow 2 (2 - q).toNat, m % 2 == 0⟩

def Interval.holds (i : Interval) (num den : Nat) : Bool :=
  if i.closed then i.low * den ≤ num * i.unit && num * i.unit ≤ i.high * den
  else i.low * den < num * i.unit && num * i.unit < i.high * den

structure Point where
  digits : Nat
  exponent : Int
  deriving DecidableEq, Repr

def gridNum (k : Nat) (g : Int) : Nat := k * Nat.pow 10 g.toNat

def gridDen (g : Int) : Nat := Nat.pow 10 (-g).toNat

def Interval.onGrid? (i : Interval) (g : Int) : Option Point :=
  let below := i.value * gridDen g / (i.unit * gridNum 1 g)
  let rest := i.value * gridDen g % (i.unit * gridNum 1 g)
  let fits := fun k => k ≠ 0 && i.holds (gridNum k g) (gridDen g)
  let lowerNearer := 2 * rest < i.unit * gridNum 1 g ||
    (2 * rest == i.unit * gridNum 1 g && below % 2 == 0)
  if fits below && (lowerNearer || !fits (below + 1)) then some ⟨below, g⟩
  else if fits (below + 1) then some ⟨below + 1, g⟩
  else none

def Interval.coarsest (i : Interval) : Nat → Int → Point
  | 0, g => ⟨0, g⟩
  | n + 1, g => (i.onGrid? g).getD (i.coarsest n (g - 1))

def shortest (m : Nat) (q : Int) (narrow : Bool) : Point := (interval m q narrow).coarsest 650 309

def Point.text (p : Point) : List Char :=
  let ds := natural p.digits
  let whole : Int := ds.length + p.exponent
  if whole < -3 || 16 < whole then
    let e := whole - 1
    let mark := if e < 0 then '-' else '+'
    let size := natural e.natAbs
    ds.take 1 ++ (if ds.length = 1 then [] else '.' :: ds.drop 1) ++
      ['e', mark] ++ (if size.length < 2 then '0' :: size else size)
  else if whole ≤ 0 then ['0', '.'] ++ List.replicate (-whole).toNat '0' ++ ds
  else if ds.length ≤ whole then
    ds ++ List.replicate (whole.toNat - ds.length) '0' ++ ['.', '0']
  else ds.take whole.toNat ++ '.' :: ds.drop whole.toNat

def fractionSize : Nat := 0x10000000000000

def exponentSize : Nat := 0x800

def float (f : Float) : String :=
  let bits : Nat := f.toBits.toNat
  let negative := fractionSize * exponentSize ≤ bits
  let exponent : Nat := bits / fractionSize % exponentSize
  let fraction : Nat := bits % fractionSize
  let sign := if negative then "-" else ""
  if exponent = 2047 then (if fraction = 0 then sign ++ "inf" else "nan")
  else if exponent = 0 && fraction = 0 then sign ++ "0.0"
  else
    let p := if exponent = 0 then shortest fraction (-1074) false
      else shortest (fractionSize + fraction) (exponent - 1075) (fraction = 0 && 1 < exponent)
    sign ++ String.ofList p.text

def nearest (digits : Nat) (exponent : Int) : Float :=
  let size : Int := (natural digits).length + exponent
  if digits = 0 || size < -400 then 0
  else if 400 < size then 1 / 0
  else Float.ofScientific digits (exponent < 0) exponent.natAbs

end SelectorRank.Decimal
