/-!
# Shortest decimal digits of a binary64 number

A finite positive binary64 number is `m * 2 ^ q`. The reals that round to it form an interval, whose
ends belong to it exactly when `m` is even. The digits wanted are those of the decimal number with
the fewest digits in that interval, and of several the one nearest to the number.

* `Binary64.Parts`, `Binary64.parts`: `m` and `q`, read off the bits;
* `Binary64.Interval`: the interval over one denominator;
* `Binary64.shortest`: the digits as a natural number, and the power of ten they are multiplied by.

On each grid of decimal numbers with a given count of digits only the two neighbours of the number
can be nearest, so the first grid with a neighbour inside the interval has the answer.
-/

namespace SelectQuery

/-- Which of two equally near decimals is taken. -/
inductive Tie where
  /-- The larger one. -/
  | up
  /-- The one with the even last digit. -/
  | even
  deriving DecidableEq, Repr

namespace Binary64

/-- A positive number `significand * 2 ^ exponent`; `boundary` marks the powers of two below which
the numbers lie twice as dense as above. -/
structure Parts where
  significand : Nat
  exponent : Int
  boundary : Bool
  deriving DecidableEq, Repr

/-- The size of the number with these bits, which are those of a finite number; its sign is left
out. -/
def parts (bits : Nat) : Parts :=
  let field : Nat := bits / Nat.pow 2 52 % Nat.pow 2 11
  let fraction : Nat := bits % Nat.pow 2 52
  if field = 0 then ⟨fraction, -1074, false⟩
  else ⟨fraction + Nat.pow 2 52, (field : Int) - 1075, fraction = 0 && 1 < field⟩

/-- The number and the ends of the interval that rounds to it, as numerators over `den`. -/
structure Interval where
  low : Nat
  mid : Nat
  high : Nat
  den : Nat
  /-- Whether the ends belong to the interval. -/
  closed : Bool
  deriving DecidableEq, Repr

/-- The interval of reals that round to a number: half a step up, and half a step down, which at a
boundary is a quarter. -/
def Parts.interval (p : Parts) : Interval :=
  let scale := Nat.pow 2 (p.exponent - 2).toNat
  let mid := 4 * p.significand
  { low := (mid - if p.boundary then 1 else 2) * scale
    mid := mid * scale
    high := (mid + 2) * scale
    den := Nat.pow 2 (2 - p.exponent).toNat
    closed := p.significand % 2 = 0 }

/-- A count of decimal digits. -/
def digitCount (n : Nat) : Nat := (Nat.toDigits 10 n).length

/-- The place of the first digit: the number lies in `[10 ^ (place - 1), 10 ^ place)`. Every number
here is at least `10 ^ (-400)`. -/
def Interval.place (i : Interval) : Int := digitCount (i.mid * Nat.pow 10 400 / i.den) - 400

/-- The interval with `10 ^ k` as its unit. -/
def Interval.inUnits (i : Interval) (k : Int) : Interval :=
  let up := Nat.pow 10 (-k).toNat
  let down := Nat.pow 10 k.toNat
  { i with low := i.low * up, mid := i.mid * up, high := i.high * up, den := i.den * down }

/-- Whether the whole number `n` lies in the interval. -/
def Interval.has (i : Interval) (n : Nat) : Bool :=
  let x := n * i.den
  if i.closed then i.low ≤ x && x ≤ i.high else i.low < x && x < i.high

/-- The whole number nearest to the middle, among its two neighbours that lie in the interval. -/
def Interval.nearest? (i : Interval) (tie : Tie) : Option Nat :=
  let below := i.mid / i.den
  let above := below + 1
  match i.has below, i.has above with
  | false, false => none
  | true, false => some below
  | false, true => some above
  | true, true =>
    let down := i.mid - below * i.den
    let up := above * i.den - i.mid
    if down < up then some below
    else if up < down then some above
    else match tie with
      | .up => some above
      | .even => some (if below % 2 = 0 then below else above)

/-- The first hit on the grids of `count`, `count + 1`, … digits, `tries` of them. -/
def Interval.search (i : Interval) (tie : Tie) (place : Int) : Nat → Nat → Option (Nat × Int)
  | 0, _ => none
  | tries + 1, count =>
    match (i.inUnits (place - count)).nearest? tie with
    | some digits => some (digits, place - count)
    | none => i.search tie place tries (count + 1)

/-- The shortest digits of a positive finite number and the power of ten for them. Seventeen digits
always suffice. -/
def shortest (bits : Nat) (tie : Tie) : Nat × Int :=
  let i := (parts bits).interval
  match i.search tie i.place 17 1 with
  | some (10, k) => (1, k + 1)
  | some found => found
  | none => (i.mid / i.den, 0)

end Binary64

end SelectQuery
