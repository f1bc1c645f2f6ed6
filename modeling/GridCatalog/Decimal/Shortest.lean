import GridCatalog.Decimal.Basic

/-! The shortest decimal that reads back as a given double.

    A double stands for an interval of reals, those that round to it. Among the decimals in the
    interval `shortest` takes one with the fewest digits and, among those, the one nearest to the
    double; between two equally near ones a `Tie` decides. -/

namespace GridCatalog.Decimal

/-- The magnitude `significand · 2 ^ exponent` of a finite double. -/
structure Binary where
  significand : Nat
  exponent : Int
deriving DecidableEq, Repr

def leastExponent : Int := -1074

/-- The weight of the lowest bit of a double's exponent: its fraction has 52 bits. -/
def exponentBit : Nat := 0x10000000000000

/-- The number of exponents of a double, in 11 bits. -/
def exponents : Nat := 0x800

/-- The weight of the sign bit of a double. -/
def signBit : Nat := 0x8000000000000000

def magnitude (x : Float) : Binary :=
  let bits : Nat := x.toBits.toNat
  let fraction := bits % exponentBit
  let biased : Nat := bits / exponentBit % exponents
  if biased = 0 then ⟨fraction, leastExponent⟩ else ⟨fraction + exponentBit, (biased : Int) - 1075⟩

def isNegative (x : Float) : Bool := x.toBits.toNat / signBit = 1

/-- The reals that round to a double, as numerators over a common denominator: the double itself,
    the ends of the interval, and whether the ends belong to it. -/
structure Interval where
  low : Nat
  value : Nat
  high : Nat
  denominator : Nat
  closed : Bool
deriving DecidableEq, Repr

/-- The interval of the reals that round to `b`. The gap below a power of two is half as wide as
    the one above, except at the least exponent. -/
def Binary.interval (b : Binary) : Interval :=
  let unit := Nat.pow 2 b.exponent.toNat
  let narrow := b.significand = exponentBit ∧ leastExponent < b.exponent
  { low := 4 * b.significand * unit - (if narrow then 1 else 2) * unit
    value := 4 * b.significand * unit
    high := 4 * b.significand * unit + 2 * unit
    denominator := 4 * Nat.pow 2 (-b.exponent).toNat
    closed := b.significand % 2 = 0 }

/-- The exponent of the first digit of a positive ratio. -/
def leadingExponent (numerator denominator : Nat) : Int :=
  let guess : Int := (Text.digits numerator).length - (Text.digits denominator).length
  if numerator * Nat.pow 10 (-guess).toNat < denominator * Nat.pow 10 guess.toNat then guess - 1
  else guess

/-- Which of two equally near decimals is taken. -/
inductive Tie where
  /-- The one with an even last digit. -/
  | toEven
  /-- The one farther from zero. -/
  | awayFromZero
deriving DecidableEq, Repr

/-- Whether a tie between `below` and `below + 1` goes to `below`. -/
def Tie.goesBelow : Tie → Nat → Bool
  | toEven, below => below % 2 = 0
  | awayFromZero, _ => false

/-- A decimal of the grid `10 ^ exponent` inside the interval, if one of the two neighbours of the
    value on that grid lies in it. -/
def Interval.onGrid? (i : Interval) (tie : Tie) (exponent : Int) : Option Decimal :=
  let up := Nat.pow 10 (-exponent).toNat
  let step := i.denominator * Nat.pow 10 exponent.toNat
  let below := i.value * up / step
  let rest := i.value * up % step
  let inside (n : Nat) : Bool :=
    if i.closed then i.low * up ≤ n * step && n * step ≤ i.high * up
    else i.low * up < n * step && n * step < i.high * up
  let nearer := if 2 * rest < step then below
    else if step < 2 * rest then below + 1
    else if tie.goesBelow below then below else below + 1
  match inside below, inside (below + 1) with
  | true, true => some ⟨nearer, exponent⟩
  | true, false => some ⟨below, exponent⟩
  | false, true => some ⟨below + 1, exponent⟩
  | false, false => none

/-- A decimal without a zero as its last digit, when there is at most one such zero. -/
def dropZero (d : Decimal) : Decimal :=
  if d.digits % 10 = 0 then ⟨d.digits / 10, d.exponent + 1⟩ else d

/-- The shortest decimal of a positive finite double: the first of the grids with 1, 2, … digits
    that has a decimal inside the interval. Seventeen digits always suffice. -/
def shortest (tie : Tie) (x : Float) : Decimal :=
  let i := (magnitude x).interval
  let top := leadingExponent i.value i.denominator
  match (List.range 17).findSome? fun (n : Nat) => i.onGrid? tie (top - n) with
  | some d => dropZero d
  | none => ⟨0, 0⟩

end GridCatalog.Decimal
