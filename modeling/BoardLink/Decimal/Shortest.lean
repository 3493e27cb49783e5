/-!
# Shortest decimals of binary floats

A finite binary float is `m * 2 ^ q` for a natural `m` and an integer `q`; the reals that round to
it form an interval around it, whose ends belong to it when `m` is even. `shortest` picks a multiple
of a power of ten inside that interval. It takes the largest power that has one, so no decimal with
fewer digits reads back, and of two multiples inside it the nearer one; a tie goes to the larger.

`Layout` says how the digits are laid out: whether a whole number keeps a mark behind it, and which
magnitudes are written with an exponent.
-/

namespace BoardLink.Decimal

/-- The fields of a binary interchange format. -/
structure BinaryFormat where
  fractionBits : Nat
  exponentBits : Nat

/-- The 32 bit format. -/
def binary32 : BinaryFormat := ⟨23, 8⟩

/-- The 64 bit format. -/
def binary64 : BinaryFormat := ⟨52, 11⟩

/-- What a bit pattern stands for. -/
inductive Reading where
  | nan
  | infinite (negative : Bool)
  /-- The number `m * 2 ^ q`. Under a power of two the next float is only half as far away. -/
  | finite (negative : Bool) (m : Nat) (q : Int) (atPowerOfTwo : Bool)

/-- Reads sign, exponent and fraction off a bit pattern. -/
def BinaryFormat.read (f : BinaryFormat) (bits : Nat) : Reading :=
  let fractions := Nat.pow 2 f.fractionBits
  let exponents := Nat.pow 2 f.exponentBits
  let fraction := bits % fractions
  let exponent := bits / fractions % exponents
  let negative := bits / (fractions * exponents) % 2 = 1
  let lowest : Int := 2 - (exponents / 2 : Nat) - f.fractionBits
  if exponent = exponents - 1 then
    if fraction = 0 then .infinite negative else .nan
  else if exponent = 0 then .finite negative fraction lowest false
  else
    .finite negative (fractions + fraction) (lowest + (exponent - 1))
      (fraction = 0 && 1 < exponent)

/-- The interval of reals that round to `m * 2 ^ q`, in quarters of `2 ^ q`. -/
structure Interval where
  low : Nat
  value : Nat
  high : Nat
  q : Int
  closed : Bool

/-- The interval around a positive float. -/
def Interval.around (m : Nat) (q : Int) (atPowerOfTwo : Bool) : Interval where
  low := if atPowerOfTwo then 4 * m - 1 else 4 * m - 2
  value := 4 * m
  high := 4 * m + 2
  q := q - 2
  closed := m % 2 = 0

/-- The multiple of `10 ^ g` in the interval that is nearest to its value, as a count of that
power. -/
def Interval.onGrid? (i : Interval) (g : Int) : Option Nat :=
  -- `x * 2 ^ i.q` compares with `c * 10 ^ g` as `x * up` with `c * down`
  let up := Nat.pow 2 i.q.toNat * Nat.pow 10 (-g).toNat
  let down := Nat.pow 2 (-i.q).toNat * Nat.pow 10 g.toNat
  let inside (c : Nat) : Bool :=
    if i.closed then i.low * up ≤ c * down && c * down ≤ i.high * up
    else i.low * up < c * down && c * down < i.high * up
  let below := i.value * up / down
  match inside below, inside (below + 1) with
  | false, false => none
  | true, false => some below
  | false, true => some (below + 1)
  | true, true =>
    if i.value * up - below * down < (below + 1) * down - i.value * up then some below
    else some (below + 1)

/-- The first grid among `10 ^ (start - 1)`, `10 ^ (start - 2)`, … that meets the interval. -/
def Interval.coarsest (i : Interval) (start : Int) : (grids : Nat) → Nat × Int
  | 0 => (0, 0)
  | grids + 1 =>
    match i.onGrid? (start - 1) with
    | some c => (c, start - 1)
    | none => coarsest i (start - 1) grids

/-- The shortest decimal that reads back as the positive float `m * 2 ^ q`, as digits and the power
of ten of the last one. No float of the two formats lies outside `10 ^ (-400)` to `10 ^ 400`. -/
def shortest (m : Nat) (q : Int) (atPowerOfTwo : Bool) : Nat × Int :=
  (Interval.around m q atPowerOfTwo).coarsest 400 800

/-- How a float is laid out. -/
structure Layout where
  /-- A whole number written without an exponent ends in `.0`. -/
  marksWhole : Bool
  /-- The least and greatest exponent of the leading digit that are written out in full, `none` if
  all are. -/
  inFull : Option (Int × Int)

/-- Digits with a point, without an exponent. -/
def Layout.positional (l : Layout) (digits : String) (g : Int) : String :=
  let point := digits.length + g
  if point ≤ 0 then "0." ++ "".pushn '0' (-point).toNat ++ digits
  else if point < digits.length then
    let whole := point.toNat
    String.ofList (digits.toList.take whole) ++ "." ++ String.ofList (digits.toList.drop whole)
  else digits.pushn '0' g.toNat ++ if l.marksWhole then ".0" else ""

/-- Digits with a point after the first one, and an exponent. -/
def scientific (digits : String) (exponent : Int) : String :=
  let tail := digits.toList.drop 1
  String.ofList (digits.toList.take 1)
    ++ (if tail.isEmpty then "" else "." ++ String.ofList tail)
    ++ "e" ++ toString exponent

/-- The text of what a bit pattern stands for. -/
def Layout.write (l : Layout) : Reading → String
  | .nan => "NaN"
  | .infinite negative => if negative then "-inf" else "inf"
  | .finite negative m q atPowerOfTwo =>
    let sign := if negative then "-" else ""
    if m = 0 then sign ++ l.positional "0" 0
    else
      let (c, g) := shortest m q atPowerOfTwo
      let digits := toString c
      let exponent := digits.length + g - 1
      match l.inFull with
      | some (least, greatest) =>
        if least ≤ exponent && exponent ≤ greatest then sign ++ l.positional digits g
        else sign ++ scientific digits exponent
      | none => sign ++ l.positional digits g

end BoardLink.Decimal
