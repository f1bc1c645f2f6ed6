/-! Whole numbers written in decimal.

    A numeral is a nonempty run of ASCII digits, leading zeros included. Bounded readers fail on a
    value that does not fit; a `+` may stand in front, a `-` only where negative values exist. -/

namespace GridCatalog.Text

/-- The decimal digits of a number, without leading zeros. -/
def digits (n : Nat) : List Char := Nat.toDigits 10 n

def natText (n : Nat) : String := String.ofList (digits n)

/-- The decimal text of an integer, with a `-` in front of a negative one. -/
def intText (n : Int) : String :=
  match n with
  | .ofNat m => natText m
  | .negSucc m => String.ofList ('-' :: digits (m + 1))

/-- Natural numbers of 64 bits lie below this. -/
def natBound64 : Nat := 0x10000000000000000

/-- Natural numbers of 32 bits lie below this. -/
def natBound32 : Nat := 0x100000000

/-- Integers of 64 bits lie below this and not below its negative. -/
def intBound64 : Nat := 0x8000000000000000

/-- Integers of 8 bits lie below this and not below its negative. -/
def intBound8 : Nat := 0x80

/-- The number that a nonempty run of digits stands for. -/
def numeral? (s : List Char) : Option Nat :=
  if s.isEmpty || !s.all Char.isDigit then none else some (Nat.ofDigitChars 10 s 0)

/-- Reads an optional `+` and a numeral below `bound`. -/
def unsigned? (bound : Nat) (s : List Char) : Option Nat :=
  let body := match s with
    | '+' :: rest => rest
    | _ => s
  (numeral? body).bind fun n => if n < bound then some n else none

/-- Reads an optional sign and a numeral; the value lies in `-bound ≤ n < bound`. -/
def signed? (bound : Nat) (s : List Char) : Option Int :=
  match s with
  | '-' :: rest => (numeral? rest).bind fun n => if n ≤ bound then some (-(n : Int)) else none
  | _ => (unsigned? bound s).map fun n => (n : Int)

theorem digits_ne_nil (n : Nat) : digits n ≠ [] := Nat.toDigits_ne_nil

/-- A number is read back from its digits. -/
theorem ofDigitChars_digits (n : Nat) : Nat.ofDigitChars 10 (digits n) 0 = n :=
  Nat.ofDigitChars_ten_toDigits

end GridCatalog.Text
