import ChannelFeed.Number.Binary64

namespace ChannelFeed

/-- `digits` times ten to the power `exponent`. -/
structure Decimal where
  digits : Nat
  exponent : Int
  deriving DecidableEq, Repr

namespace Decimal

/-- How many decimal digits a natural has, none for zero. -/
def digitCount (n : Nat) : Nat :=
  if n = 0 then 0 else (Nat.toDigits 10 n).length

/-- The power of ten of the first digit. -/
def leadingExponent (d : Decimal) : Int := d.exponent + digitCount d.digits - 1

/-- Moves trailing zeros into the exponent. -/
def trim (d : Decimal) : Decimal :=
  if h : d.digits ≠ 0 ∧ d.digits % 10 = 0 then trim ⟨d.digits / 10, d.exponent + 1⟩ else d
termination_by d.digits
decreasing_by exact Nat.div_lt_self (Nat.pos_of_ne_zero h.1) (by decide)

end Decimal

/-- Which of two equally near decimals is taken. -/
inductive Tie where
  | even
  | up
  deriving DecidableEq, Repr

/-- The whole number nearest to a quotient. -/
def Tie.round : Tie → Nat → Nat → Nat
  | even, num, den => roundDiv num den
  | up, num, den => (2 * num + den) / (2 * den)

namespace Binary64

/-- Four times a significand beside the doubles' midpoints below and above it, in the same unit. -/
structure Interval where
  low : Nat
  value : Nat
  high : Nat
  closed : Bool

/-- The reals that round to a positive double, in units of a quarter of its last bit. -/
def interval (significand : Nat) (exponent : Int) : Interval :=
  let narrow := significand = hiddenBit ∧ -1074 < exponent
  { low := 4 * significand - if narrow then 1 else 2
    value := 4 * significand
    high := 4 * significand + 2
    closed := significand % 2 = 0 }

/-- Whether `c` times ten to the `k` over 2^`q` lies in an interval. -/
def Interval.holds (i : Interval) (q k : Int) (c : Nat) : Bool :=
  let left := c * Nat.pow 10 k.toNat * Nat.pow 2 (-q).toNat
  let unit := Nat.pow 10 (-k).toNat * Nat.pow 2 q.toNat
  if i.closed then i.low * unit ≤ left && left ≤ i.high * unit
  else i.low * unit < left && left < i.high * unit

/-- The power of ten at or below a positive ratio. -/
def decimalExponent (num den : Nat) : Int :=
  let guess := ((Nat.log2 num : Int) - Nat.log2 den) * 30103 / 100000
  let reaches (k : Int) : Bool := Nat.pow 10 k.toNat * den ≤ num * Nat.pow 10 (-k).toNat
  if reaches (guess + 1) then guess + 1 else if reaches guess then guess else guess - 1

/-- The nearer of the double's neighbours among decimals of step ten to the `k`, if it reads back. -/
def onGrid (tie : Tie) (i : Interval) (q k : Int) : Option Decimal :=
  let num := i.value * Nat.pow 2 q.toNat * Nat.pow 10 (-k).toNat
  let den := Nat.pow 2 (-q).toNat * Nat.pow 10 k.toNat
  let below := num / den
  let nearer := tie.round num den
  if i.holds q k nearer then some ⟨nearer, k⟩
  else if i.holds q k below then some ⟨below, k⟩
  else if i.holds q k (below + 1) then some ⟨below + 1, k⟩
  else none

/-- The shortest decimal that reads back as a positive finite double: each grid of decimals, from
one digit up, is tried at the double's two neighbours on it. -/
def shortest (tie : Tie) (significand : Nat) (exponent : Int) : Decimal :=
  let i := interval significand exponent
  let q := exponent - 2
  let first := decimalExponent (i.value * Nat.pow 2 q.toNat) (Nat.pow 2 (-q).toNat)
  let grids := (List.range 17).map (fun n : Nat => first - n)
  ((grids.findSome? (onGrid tie i q)).getD ⟨significand, 0⟩).trim

end Binary64

end ChannelFeed
