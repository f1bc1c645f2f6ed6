import GridCatalog.Decimal.Basic
import GridCatalog.Json.Value

/-! Numbers as JSON writes them.

    An integer of 64 bits is kept as it is. Any other number is read as a double: its digits are
    taken into a 64-bit significand as far as they fit and the others are dropped, and the
    significand is multiplied or divided by a power of ten in double arithmetic. The result is not
    always the double nearest to what is written. -/

namespace GridCatalog.Json

/-- The parts of a written number. -/
structure NumberParts where
  isNegative : Bool
  whole : List Char
  /-- The digits behind the point, if there is one. -/
  fraction : Option (List Char)
  exponent : Option Int
deriving DecidableEq, Repr

/-- The part behind the point; with a point there is at least one digit. -/
def fractionOf? (s : List Char) : Option (Option (List Char) × List Char) :=
  match s with
  | '.' :: rest =>
    let ds := rest.takeWhile Char.isDigit
    if ds.isEmpty then none else some (some ds, rest.dropWhile Char.isDigit)
  | _ => some (none, s)

/-- The exponent at the end of a number, if there is one. -/
def exponentOf? : List Char → Option (Option Int)
  | [] => some none
  | c :: rest => if c = 'e' || c = 'E' then (Decimal.wholeExponent? rest).map some else none

/-- Takes a number apart. A zero in front of other digits is refused. -/
def numberParts? (s : List Char) : Option NumberParts := do
  let (isNegative, s) := match s with
    | '-' :: rest => (true, rest)
    | _ => (false, s)
  let whole := s.takeWhile Char.isDigit
  match whole with
  | [] => none
  | '0' :: _ :: _ => none
  | _ =>
    let (fraction, rest) ← fractionOf? (s.dropWhile Char.isDigit)
    let exponent ← exponentOf? rest
    return ⟨isNegative, whole, fraction, exponent⟩

/-- A significand of 64 bits that digits are taken into. -/
structure Significand where
  value : Nat
  /-- The power of ten that the value is to be multiplied by. -/
  exponent : Int
  /-- Whether a digit had to be dropped. -/
  isFull : Bool
deriving DecidableEq, Repr

/-- Takes a digit in front of the point: a dropped one counts for the exponent. -/
def Significand.pushWhole (s : Significand) (c : Char) : Significand :=
  let value := 10 * s.value + (c.toNat - '0'.toNat)
  if s.isFull || Text.natBound64 ≤ value then { s with exponent := s.exponent + 1, isFull := true }
  else { s with value }

/-- Takes a digit behind the point: a dropped one counts for nothing. -/
def Significand.pushFraction (s : Significand) (c : Char) : Significand :=
  let value := 10 * s.value + (c.toNat - '0'.toNat)
  if s.isFull || Text.natBound64 ≤ value then { s with isFull := true }
  else { s with value, exponent := s.exponent - 1 }

/-- The power of ten `10 ^ n` as a double. -/
def tenTo (n : Nat) : Float := Decimal.toFloat ⟨1, n⟩

/-- Division by a power of ten in steps of `10 ^ 308`, until the value is zero. -/
def divideByTenTo (x : Float) (n : Nat) : Float :=
  if n ≤ 308 then x / tenTo n
  else if x == 0 then x
  else divideByTenTo (x / tenTo 308) (n - 308)
termination_by n

/-- The double of a significand and a power of ten, unless it is too large. -/
def scaled? (value : Nat) (exponent : Int) : Option Float :=
  let x := Float.ofNat value
  match exponent with
  | .negSucc n => some (divideByTenTo x (n + 1))
  | .ofNat n =>
    if n ≤ 308 then
      let y := x * tenTo n
      if y.isInf then none else some y
    else if value = 0 then some x
    else none

/-- The magnitude of a number as a double, unless it is too large. Digits behind the point start
    anew where digits in front of it were dropped. -/
def NumberParts.magnitude? (p : NumberParts) : Option Float :=
  let whole := p.whole.foldl Significand.pushWhole ⟨0, 0, false⟩
  let all := (p.fraction.getD []).foldl Significand.pushFraction { whole with isFull := false }
  scaled? all.value (all.exponent + p.exponent.getD 0)

/-- The number that the parts stand for, unless it is too large. A negative zero is a double. -/
def NumberParts.value? (p : NumberParts) : Option Number :=
  let double := p.magnitude?.map fun x => Number.double (if p.isNegative then -x else x)
  if p.fraction.isSome || p.exponent.isSome then double
  else
    let n := Nat.ofDigitChars 10 p.whole 0
    if p.isNegative then
      if 0 < n && n ≤ Text.intBound64 then some (.integer (-n)) else double
    else if n < Text.natBound64 then some (.integer n)
    else double

end GridCatalog.Json
