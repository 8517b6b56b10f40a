namespace ChannelFeed

/-- A quotient to the nearest whole number, a tie to the even one. -/
def roundDiv (num den : Nat) : Nat :=
  let q := num / den
  let twice := 2 * (num % den)
  if twice < den then q
  else if den < twice then q + 1
  else if q % 2 = 0 then q else q + 1

/-- A binary format: the bits of a significand and the range of its exponent. -/
structure BinaryFormat where
  precision : Nat
  minExponent : Int
  maxExponent : Int

def BinaryFormat.double : BinaryFormat := ⟨53, -1074, 971⟩

def BinaryFormat.single : BinaryFormat := ⟨24, -149, 104⟩

/-- A double. The significand of a finite one is below 2^53, and at least 2^52 unless the exponent
is the least one. Every operation is its exact result rounded to the nearest double, a tie going to
the even significand. -/
inductive Binary64 where
  | nan
  | infinite (negative : Bool)
  | finite (negative : Bool) (significand : Nat) (exponent : Int)
  deriving DecidableEq, Repr, Inhabited

namespace Binary64

/-- The least significand of full length, 2^52; bit patterns leave its first bit out. -/
def hiddenBit : Nat := 4503599627370496

/-- The two naturals whose quotient is `num / den` over 2^`exponent`. -/
def scaled (num den : Nat) (exponent : Int) : Nat × Nat :=
  if 0 ≤ exponent then (num, den * Nat.pow 2 exponent.toNat)
  else (num * Nat.pow 2 (-exponent).toNat, den)

/-- The least exponent at which a positive ratio has no more than the format's bits. -/
def fitExponent (f : BinaryFormat) (num den : Nat) : Int :=
  let low := max f.minExponent ((Nat.log2 num : Int) - Nat.log2 den - f.precision)
  let (n, d) := scaled num den low
  if n / d < Nat.pow 2 f.precision then low else low + 1

/-- The number of a format nearest to a ratio. -/
def roundRatio (f : BinaryFormat) (negative : Bool) (num den : Nat) : Binary64 :=
  if num = 0 then .finite negative 0 f.minExponent
  else
    let e := fitExponent f num den
    let (n, d) := scaled num den e
    let m := roundDiv n d
    let (m, e) := if m = Nat.pow 2 f.precision then (m / 2, e + 1) else (m, e)
    if f.maxExponent < e then .infinite negative else .finite negative m e

def ofRatio (negative : Bool) (num den : Nat) : Binary64 :=
  roundRatio .double negative num den

/-- The double nearest to `significand` times 2^`exponent`. -/
def ofScaled (negative : Bool) (significand : Nat) (exponent : Int) : Binary64 :=
  if 0 ≤ exponent then ofRatio negative (significand * Nat.pow 2 exponent.toNat) 1
  else ofRatio negative significand (Nat.pow 2 (-exponent).toNat)

def ofNat (n : Nat) : Binary64 := ofRatio false n 1

def ofInt (i : Int) : Binary64 := ofRatio (decide (i < 0)) i.natAbs 1

def zero : Binary64 := .finite false 0 (-1074)

def one : Binary64 := ofNat 1

def neg : Binary64 → Binary64
  | nan => nan
  | infinite s => infinite (!s)
  | finite s m e => finite (!s) m e

def negative : Binary64 → Bool
  | nan => false
  | infinite s => s
  | finite s _ _ => s

def isZero : Binary64 → Bool
  | finite _ m _ => m == 0
  | _ => false

/-- Above zero; infinity counts, zeros and not-a-number do not. -/
def isPositive : Binary64 → Bool
  | nan => false
  | infinite s => !s
  | finite s m _ => !s && m != 0

/-- The whole number a double stands for, if it stands for one. -/
def toInt? : Binary64 → Option Int
  | finite s m e =>
    let magnitude? : Option Nat :=
      if 0 ≤ e then some (m * Nat.pow 2 e.toNat)
      else if m % Nat.pow 2 (-e).toNat = 0 then some (m / Nat.pow 2 (-e).toNat) else none
    magnitude?.map (fun n => if s then -(n : Int) else n)
  | _ => none

def mul : Binary64 → Binary64 → Binary64
  | nan, _ => nan
  | _, nan => nan
  | infinite s, infinite t => infinite (s != t)
  | infinite s, finite t m _ => if m = 0 then nan else infinite (s != t)
  | finite s m _, infinite t => if m = 0 then nan else infinite (s != t)
  | finite s m e, finite t n d => ofScaled (s != t) (m * n) (e + d)

def div : Binary64 → Binary64 → Binary64
  | nan, _ => nan
  | _, nan => nan
  | infinite _, infinite _ => nan
  | infinite s, finite t _ _ => infinite (s != t)
  | finite s _ _, infinite t => .finite (s != t) 0 (-1074)
  | finite s m e, finite t n d =>
    if n = 0 then if m = 0 then nan else infinite (s != t)
    else if 0 ≤ e - d then ofRatio (s != t) (m * Nat.pow 2 (e - d).toNat) n
    else ofRatio (s != t) m (n * Nat.pow 2 (d - e).toNat)

def add : Binary64 → Binary64 → Binary64
  | nan, _ => nan
  | _, nan => nan
  | infinite s, infinite t => if s = t then infinite s else nan
  | infinite s, finite _ _ _ => infinite s
  | finite _ _ _, infinite t => infinite t
  | finite s m e, finite t n d =>
    let low := min e d
    let left : Int := (m * Nat.pow 2 (e - low).toNat : Nat)
    let right : Int := (n * Nat.pow 2 (d - low).toNat : Nat)
    let sum := (if s then -left else left) + (if t then -right else right)
    if sum = 0 then .finite (s && t) 0 (-1074)
    else ofScaled (decide (sum < 0)) sum.natAbs low

/-- Squares the base at each binary digit of the exponent, starting from the lowest. -/
def powLoop (power base : Binary64) (n : Nat) : Binary64 :=
  let power := if n % 2 = 1 then power.mul base else power
  if n / 2 = 0 then power else powLoop power (base.mul base) (n / 2)
termination_by n
decreasing_by omega

/-- A whole power by repeated squaring. -/
def pow (base : Binary64) (n : Nat) : Binary64 := powLoop one base n

/-- The nearest number of single precision, kept as a double. -/
def toSingle : Binary64 → Binary64
  | finite s m e =>
    let rounded :=
      if 0 ≤ e then roundRatio .single s (m * Nat.pow 2 e.toNat) 1
      else roundRatio .single s m (Nat.pow 2 (-e).toNat)
    match rounded with
    | finite t n d => ofScaled t n d
    | other => other
  | other => other

/-- The weight of the sign in a bit pattern, 2^63. -/
def signBit : Nat := 9223372036854775808

/-- Reads a bit pattern: sign, eleven bits of exponent, fifty-two of fraction. -/
def ofBits (bits : Nat) : Binary64 :=
  let sign := bits / signBit % 2 == 1
  let exponent : Nat := bits / hiddenBit % 2048
  let fraction : Nat := bits % hiddenBit
  if exponent = 2047 then if fraction = 0 then infinite sign else nan
  else if exponent = 0 then finite sign fraction (-1074)
  else finite sign (hiddenBit + fraction) ((exponent : Int) - 1075)

/-- The bit pattern; not-a-number has the quiet one. -/
def toBits : Binary64 → Nat
  | nan => 2047 * hiddenBit + hiddenBit / 2
  | infinite s => (if s then signBit else 0) + 2047 * hiddenBit
  | finite s m e =>
    (if s then signBit else 0) +
      if m < hiddenBit then m else (e + 1075).toNat * hiddenBit + (m - hiddenBit)

end Binary64

end ChannelFeed
