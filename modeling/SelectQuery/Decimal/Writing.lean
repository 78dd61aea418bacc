import SelectQuery.Binary64.Shortest

/-!
# Writing binary64 numbers

* `Decimal.Style`: the choices that a format leaves open;
* `Decimal.plain`: digits and a point, never an exponent, nothing after a whole number;
* `Decimal.write`: a finite number in a style;
* `Decimal.text`: a number in the plain style, with words for what is not finite.
-/

namespace SelectQuery.Decimal

/-- The choices that a format for numbers leaves open. The *place* of a number is the exponent of
its first digit. -/
structure Style where
  /-- Places from here on are written with an exponent. -/
  exponentFrom : Option Int
  /-- Places below this one are written with an exponent. -/
  exponentBelow : Option Int
  /-- Whether a whole number without exponent ends in `.0`. -/
  pointZero : Bool
  /-- Which of two equally near digit strings is taken. -/
  tie : Tie

/-- Digits and a point, never an exponent; whole numbers have no point. -/
def plain : Style := ⟨none, none, false, .up⟩

/-- A text of `n` zeros. -/
def zeros (n : Nat) : String := String.ofList (List.replicate n '0')

/-- Digits at their place around the point. -/
def Style.positional (style : Style) (digits : String) (exponent : Int) : String :=
  let whole := digits.length + exponent
  if 0 ≤ exponent then
    digits ++ zeros exponent.toNat ++ (if style.pointZero then ".0" else "")
  else if 0 < whole then
    String.ofList (digits.toList.take whole.toNat) ++ "." ++
      String.ofList (digits.toList.drop whole.toNat)
  else "0." ++ zeros (-whole).toNat ++ digits

/-- Digits with the point behind the first one and an exponent with its sign and no zeros in
front. -/
def scientific (digits : String) (place : Int) : String :=
  let fraction := String.ofList (digits.toList.drop 1)
  String.ofList (digits.toList.take 1) ++ (if fraction = "" then "" else "." ++ fraction) ++
    (if place < 0 then "e-" else "e+") ++ toString place.natAbs

/-- The text of a finite number. -/
def write (style : Style) (x : Float) : String :=
  let bits := x.toBits.toNat
  let sign := if bits < Nat.pow 2 63 then "" else "-"
  if bits % Nat.pow 2 63 = 0 then sign ++ (if style.pointZero then "0.0" else "0")
  else
    let (significand, exponent) := Binary64.shortest (bits % Nat.pow 2 63) style.tie
    let digits := toString significand
    let place := digits.length + exponent - 1
    if style.exponentFrom.any (· ≤ place) || style.exponentBelow.any (place < ·) then
      sign ++ scientific digits place
    else sign ++ style.positional digits exponent

/-- The text of a number: plain if it is finite. -/
def text (x : Float) : String :=
  if x.isNaN then "NaN"
  else if x.isInf then (if x < 0 then "-inf" else "inf")
  else write plain x

end SelectQuery.Decimal
