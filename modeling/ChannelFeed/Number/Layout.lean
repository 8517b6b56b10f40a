import ChannelFeed.Number.Shortest

namespace ChannelFeed

/-- The decisions of one way to write doubles. -/
structure DecimalLayout where
  tie : Tie
  /-- Leading exponents written without a power of ten; all of them if absent. -/
  positional : Option (Int × Int)
  /-- Whether a whole number is written with a fraction of zero. -/
  wholeFraction : Bool
  notANumber : String
  infinity : String
  negativeInfinity : String

namespace DecimalLayout

def zeros (n : Nat) : String := String.ofList (List.replicate n '0')

/-- A decimal without a power of ten. -/
def positionalText (wholeFraction : Bool) (d : Decimal) : String :=
  let text := toString d.digits
  let count := text.length
  if 0 ≤ d.exponent then
    text ++ zeros d.exponent.toNat ++ if wholeFraction then ".0" else ""
  else
    let places := (-d.exponent).toNat
    if places < count then
      let cs := text.toList
      String.ofList (cs.take (count - places)) ++ "." ++ String.ofList (cs.drop (count - places))
    else "0." ++ zeros (places - count) ++ text

/-- A decimal with one digit before the point and a signed power of ten. -/
def scientificText (d : Decimal) : String :=
  let cs := (toString d.digits).toList
  let e := d.leadingExponent
  let fraction := match cs.drop 1 with
    | [] => ""
    | rest => "." ++ String.ofList rest
  String.ofList (cs.take 1) ++ fraction ++ "e" ++ (if 0 ≤ e then "+" else "-") ++ toString e.natAbs

def text (layout : DecimalLayout) : Binary64 → String
  | .nan => layout.notANumber
  | .infinite true => layout.negativeInfinity
  | .infinite false => layout.infinity
  | .finite s m e =>
    let magnitude :=
      if m = 0 then "0" ++ if layout.wholeFraction then ".0" else ""
      else
        let d := Binary64.shortest layout.tie m e
        let inside := match layout.positional with
          | none => true
          | some (low, high) => low ≤ d.leadingExponent && d.leadingExponent < high
        if inside then positionalText layout.wholeFraction d else scientificText d
    (if s then "-" else "") ++ magnitude

/-- Plain reading: never a power of ten, and no fraction on whole numbers. -/
def plain : DecimalLayout :=
  ⟨.up, none, false, "NaN", "inf", "-inf"⟩

/-- In JSON a fraction or a power of ten always shows that the number is real, and what is no number
is null. -/
def json : DecimalLayout :=
  ⟨.even, some (-5, 16), true, "null", "null", "null"⟩

end DecimalLayout

end ChannelFeed
