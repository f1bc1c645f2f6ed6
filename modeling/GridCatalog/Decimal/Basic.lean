import GridCatalog.Text.Numeral

/-! Decimal numbers and the doubles nearest to them.

    `readFloat?` accepts an optional sign and then digits with at most one point and an optional
    exponent, at least one digit standing before the exponent, or one of the words `inf`,
    `infinity` and `nan` in any case. The value is the double nearest to what is written. -/

namespace GridCatalog

/-- The number `digits · 10 ^ exponent`. -/
structure Decimal where
  digits : Nat
  exponent : Int
deriving DecidableEq, Repr

namespace Decimal

def infinity : Float := 1 / 0

def notANumber : Float := 0 / 0

/-- The double nearest to a decimal, ties to the even significand. Decimals of 10^310 or more are
    infinite and those below 10^-330 are zero, so no power of ten outside that span is formed. -/
def toFloat (d : Decimal) : Float :=
  if d.digits = 0 then 0
  else
    let size := (Text.digits d.digits).length + d.exponent
    if size > 310 then infinity
    else if size < -330 then 0
    else match d.exponent with
      | .ofNat e => Float.ofScientific d.digits false e
      | .negSucc e => Float.ofScientific d.digits true (e + 1)

def wholeExponent? (s : List Char) : Option Int :=
  match s with
  | '-' :: rest => (Text.numeral? rest).map fun n => -(n : Int)
  | '+' :: rest => (Text.numeral? rest).map fun n => (n : Int)
  | _ => (Text.numeral? s).map fun n => (n : Int)

/-- Reads the part behind the digits: nothing, or `e` or `E` and a whole number. -/
def exponentPart? : List Char → Option Int
  | [] => some 0
  | c :: rest => if c = 'e' || c = 'E' then wholeExponent? rest else none

/-- The digits behind a leading point, and what follows them. -/
def fractionPart : List Char → List Char × List Char
  | '.' :: rest => (rest.takeWhile Char.isDigit, rest.dropWhile Char.isDigit)
  | rest => ([], rest)

/-- Reads an unsigned decimal. -/
def read? (s : List Char) : Option Decimal :=
  let whole := s.takeWhile Char.isDigit
  let (fraction, rest) := fractionPart (s.dropWhile Char.isDigit)
  if whole.isEmpty && fraction.isEmpty then none
  else (exponentPart? rest).map fun e =>
    ⟨Nat.ofDigitChars 10 (whole ++ fraction) 0, e - fraction.length⟩

/-- Reads an unsigned decimal or one of the words for values that are not numbers. -/
def magnitude? (s : List Char) : Option Float :=
  let word := String.ofList (s.map Char.toLower)
  if word = "inf" || word = "infinity" then some infinity
  else if word = "nan" then some notANumber
  else (read? s).map toFloat

def readFloat? (s : List Char) : Option Float :=
  match s with
  | '-' :: rest => (magnitude? rest).map fun x => -x
  | '+' :: rest => magnitude? rest
  | _ => magnitude? s

end Decimal

end GridCatalog
