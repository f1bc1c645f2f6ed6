import GridCatalog.Decimal.Shortest

/-! Doubles as text.

    The digits are those of the shortest decimal that reads back. A `Layout` says which of two
    equally near ones is taken, when the digits are written without an exponent part and whether a
    whole number ends in `.0`. -/

namespace GridCatalog.Decimal

/-- How the digits of a decimal are laid out. -/
structure Layout where
  /-- Which of two equally near decimals is written. -/
  tie : Tie
  /-- The exponents of the first digit that are written without an exponent part. -/
  positional : Int → Bool
  /-- What stands behind a whole number that is written without an exponent part. -/
  wholeMark : String

/-- Plain text: a tie goes away from zero, there is never an exponent part, and nothing stands
    behind a whole number. -/
def plainLayout : Layout := ⟨.awayFromZero, fun _ => true, ""⟩

/-- The text of numbers in stored records: a tie goes to the even last digit, there is an exponent
    part outside `10 ^ -5` to `10 ^ 15`, and `.0` stands behind a whole number. -/
def recordLayout : Layout := ⟨.toEven, fun e => -5 ≤ e && e ≤ 15, ".0"⟩

/-- Digits with the point in its place and no exponent part. -/
def positionalText (mark : String) (ds : List Char) (exponent : Int) : String :=
  let whole := ds.length + exponent
  if 0 ≤ exponent then String.ofList (ds ++ List.replicate exponent.toNat '0') ++ mark
  else if 0 < whole then
    String.ofList (ds.take whole.toNat ++ '.' :: ds.drop whole.toNat)
  else String.ofList ('0' :: '.' :: List.replicate (-whole).toNat '0' ++ ds)

/-- One digit, the others behind a point, and a signed exponent. -/
def scientificText (ds : List Char) (first : Int) : String :=
  let mantissa := match ds with
    | [] => []
    | [d] => [d]
    | d :: rest => d :: '.' :: rest
  let sign := if first < 0 then '-' else '+'
  String.ofList (mantissa ++ 'e' :: sign :: Text.digits first.natAbs)

def Layout.decimalText (l : Layout) (d : Decimal) : String :=
  let ds := Text.digits d.digits
  let first := d.exponent + ds.length - 1
  if l.positional first then positionalText l.wholeMark ds d.exponent else scientificText ds first

def Layout.text (l : Layout) (x : Float) : String :=
  if x.isNaN then "NaN"
  else
    let sign := if isNegative x then "-" else ""
    if x.isInf then sign ++ "inf"
    else if x == 0 then sign ++ "0" ++ l.wholeMark
    else sign ++ l.decimalText (shortest l.tie x)

end GridCatalog.Decimal
