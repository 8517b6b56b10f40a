import ChannelFeed.Json.Token
import ChannelFeed.Number.Binary64

namespace ChannelFeed.Json

/-- A number of a JSON value: whole ones lie between -2^63 and 2^64 - 1. -/
inductive Number where
  | whole (n : Int)
  | real (x : Binary64)
  deriving DecidableEq, Repr

namespace Numeral

def wordLimit : Nat := 18446744073709551616

/-- Powers of ten are counted in 32 bits. -/
def powerLimit : Int := 2147483647

/-- Takes digits while the significand fits 64 bits: what was taken and the digits left over. -/
def takeDigits (significand : Nat) : List Nat → Nat × List Nat
  | [] => (significand, [])
  | d :: rest =>
    if 10 * significand + d < wordLimit then takeDigits (10 * significand + d) rest
    else (significand, d :: rest)

def power? (n : Numeral) : Option Int :=
  match n.power with
  | none => some 0
  | some (negative, digits) =>
    let value : Nat := digits.foldl (fun value d => 10 * value + d) 0
    if powerLimit < value then none else some (if negative then -(value : Int) else value)

/-- Scales by a power of ten, in steps of at most ten to the 308; none if it would be infinite. -/
def scaleTen (x : Binary64) (exponent : Int) : Option Binary64 :=
  if exponent.natAbs ≤ 308 then
    let ten := Binary64.ofNat (Nat.pow 10 exponent.natAbs)
    if 0 ≤ exponent then
      match x.mul ten with
      | .infinite _ => none
      | y => some y
    else some (x.div ten)
  else if x.isZero then some x
  else if h : 0 < exponent then none
  else scaleTen (x.div (Binary64.ofNat (Nat.pow 10 308))) (exponent + 308)
termination_by exponent.natAbs
decreasing_by omega

def signed (negative : Bool) (x : Binary64) : Binary64 := if negative then x.neg else x

/-- The double of a number, not always the nearest one: digits that do not fit 64 bits are dropped,
and powers of ten are applied to a rounded significand. -/
def toReal? (n : Numeral) : Option Binary64 :=
  let (significand, dropped) := takeDigits 0 n.whole
  let (significand, ignored) := takeDigits significand n.fraction
  let places : Int := dropped.length - (n.fraction.length - ignored.length)
  match n.power? with
  | some power =>
    let exponent := max (-powerLimit - 1) (min powerLimit (places + power))
    (scaleTen (Binary64.ofNat significand) exponent).map (signed n.negative)
  | none =>
    let shrinks := match n.power with
      | some (negative, _) => negative
      | none => false
    if significand ≠ 0 ∧ !shrinks then none else some (signed n.negative Binary64.zero)

/-- Written without fraction and power. -/
def isWhole (n : Numeral) : Bool := n.fraction.isEmpty && n.power.isNone

/-- The value of a number; minus zero is a double. -/
def value? (n : Numeral) : Option Number :=
  let magnitude : Nat := n.whole.foldl (fun value d => 10 * value + d) 0
  if n.isWhole && !n.negative && decide (magnitude < wordLimit) then
    some (.whole magnitude)
  else if n.isWhole && n.negative && decide (0 < magnitude ∧ magnitude ≤ 9223372036854775808) then
    some (.whole (-(magnitude : Int)))
  else n.toReal?.map .real

end Numeral

end ChannelFeed.Json
