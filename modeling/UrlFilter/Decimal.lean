import UrlFilter.Text

/-!
# Decimal numbers

Numbers with a fixed number of places behind the point. A number is rounded to the nearest one that can
be written, and a tie goes to the even neighbour.
-/

namespace UrlFilter.Decimal

/-- The quotient rounded to the nearest natural number, a tie to the even one. -/
def roundDiv (num den : Nat) : Nat :=
  let q := num / den
  let r := num % den
  if 2 * r < den then q
  else if den < 2 * r then q + 1
  else if q % 2 = 0 then q
  else q + 1

/-- A quotient with a fixed number of places. -/
def fixed (places num den : Nat) : Text :=
  let unit := Nat.pow 10 places
  let n := roundDiv (num * unit) den
  let digits := Text.ofNat (n % unit)
  let fraction := List.replicate (places - digits.length) '0' ++ digits
  Text.ofNat (n / unit) ++ if places = 0 then [] else '.' :: fraction

/-- The quotient that a floating-point number stands for, if it is finite and not negative. -/
def ratioOf (x : Float) : Nat × Nat :=
  let bits := x.toBits.toNat
  let hidden := 1 <<< 52
  let exponent := (bits >>> 52) % (1 <<< 11)
  let mantissa := bits % hidden
  if exponent = 0 then (mantissa, 1 <<< 1074)
  else if exponent < 1075 then (hidden + mantissa, 1 <<< (1075 - exponent))
  else ((hidden + mantissa) <<< (exponent - 1075), 1)

/-- A share in percent, computed in floating point and written with one place. -/
def percent (part whole : Nat) : Text :=
  let (num, den) := ratioOf (Float.ofNat (100 * part) / Float.ofNat whole)
  fixed 1 num den

end UrlFilter.Decimal
