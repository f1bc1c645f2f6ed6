import GridCatalog.Calendar.Instant
import GridCatalog.Text.Blank
import GridCatalog.Text.Numeral

/-! Instants in the date and time format of RFC 3339.

    Writing gives universal time with `Z` and 0, 3, 6 or 9 digits of fraction, the fewest that are
    exact; a year outside 0 to 9999 has a sign. Reading is more generous: blanks may stand around
    the parts, a space or a lower-case letter may separate date and time, fields may be shorter,
    and the offset may be `Z`, `UTC` or hours and minutes with a sign. -/

namespace GridCatalog.Instant

/-! ### Writing -/

/-- A number with leading zeros up to a width. -/
def padded (width n : Nat) : List Char :=
  let ds := Text.digits n
  List.replicate (width - ds.length) '0' ++ ds

/-- Four digits, or a sign and at least four digits outside the years 0 to 9999. -/
def yearText (year : Int) : List Char :=
  if 0 ≤ year && year ≤ 9999 then padded 4 year.natAbs
  else (if year < 0 then '-' else '+') :: padded 4 year.natAbs

/-- The date with `-` between its parts. -/
def dateText (d : Date) : List Char :=
  yearText d.year ++ '-' :: padded 2 d.month ++ '-' :: padded 2 d.day

/-- Hours, minutes and seconds; the second is 60 in a leap second at the end of a minute. -/
def clockText (i : Instant) : List Char :=
  let second := i.second % 60 + (if i.inLeapSecond then 1 else 0)
  padded 2 (i.second / 3600) ++ ':' :: padded 2 (i.second / 60 % 60) ++ ':' :: padded 2 second

/-- The fraction of a second in 0, 3, 6 or 9 digits. -/
def fractionText (nano : Nat) : List Char :=
  if nano = 0 then []
  else if nano % 1000000 = 0 then '.' :: padded 3 (nano / 1000000)
  else if nano % 1000 = 0 then '.' :: padded 6 (nano / 1000)
  else '.' :: padded 9 nano

def toText (i : Instant) : String :=
  String.ofList (dateText (Date.ofDay i.day) ++ 'T' :: clockText i ++
    fractionText (i.nano % nanosPerSecond) ++ ['Z'])

/-- The text of an instant for people, to the second. -/
def toReadableText (i : Instant) : String :=
  String.ofList (dateText (Date.ofDay i.day) ++ ' ' :: clockText i) ++ " UTC"

/-! ### Reading -/

/-- A step of reading: a value and the rest of the text. -/
abbrev Step (α : Type) := List Char → Option (α × List Char)

/-- The text without the blanks in front. -/
def skipBlanks (s : List Char) : List Char := s.dropWhile Text.isBlank

/-- Blanks and then one to `width` digits. -/
def field? (width : Nat) : Step Nat := fun s =>
  let s := skipBlanks s
  let ds := (s.take width).takeWhile Char.isDigit
  if ds.isEmpty then none else some (Nat.ofDigitChars 10 ds 0, s.drop ds.length)

/-- A year: one to four digits, or a sign and any number of digits. -/
def yearField? : Step Int := fun s =>
  match skipBlanks s with
  | '-' :: rest => if rest.head?.any Char.isDigit then
      (field? rest.length rest).map fun (n, rest) => (-(n : Int), rest) else none
  | '+' :: rest => if rest.head?.any Char.isDigit then
      (field? rest.length rest).map fun (n, rest) => ((n : Int), rest) else none
  | s => (field? 4 s).map fun (n, rest) => ((n : Int), rest)

def mark? (c : Char) : Step Unit := fun s =>
  match skipBlanks s with
  | d :: rest => if d = c then some ((), rest) else none
  | [] => none

/-- A year, a month and a day. -/
def date? : Step Date := fun s => do
  let (year, s) ← yearField? s
  let ((), s) ← mark? '-' s
  let (month, s) ← field? 2 s
  let ((), s) ← mark? '-' s
  let (day, s) ← field? 2 s
  return (⟨year, month, day⟩, s)

/-- The nanoseconds behind a point; digits beyond the ninth are dropped. -/
def fraction? : Step Nat := fun s =>
  match s with
  | '.' :: rest =>
    let ds := rest.takeWhile Char.isDigit
    if ds.isEmpty then none
    else
      let kept := ds.take 9
      some (Nat.ofDigitChars 10 kept 0 * Nat.pow 10 (9 - kept.length), rest.drop ds.length)
  | _ => some (0, s)

/-- Hours, minutes, seconds and a fraction, as a second of the day and nanoseconds. The second may
    be 60. -/
def clock? : Step (Nat × Nat) := fun s => do
  let (hour, s) ← field? 2 s
  let ((), s) ← mark? ':' s
  let (minute, s) ← field? 2 s
  let ((), s) ← mark? ':' s
  let (second, s) ← field? 2 s
  let (nano, s) ← fraction? s
  if 23 < hour || 59 < minute || 60 < second then none
  else if second = 60 then
    return ((hour * 3600 + minute * 60 + 59, nano + nanosPerSecond), skipBlanks s)
  else return ((hour * 3600 + minute * 60 + second, nano), skipBlanks s)

def twoDigits? : Step Nat := fun s =>
  match s with
  | a :: b :: rest =>
    if a.isDigit && b.isDigit then some (Nat.ofDigitChars 10 [a, b] 0, rest) else none
  | _ => none

/-- Hours and minutes, with colons and blanks between them, in seconds. -/
def hoursAndMinutes? : Step Nat := fun s => do
  let (hours, s) ← twoDigits? s
  let (minutes, s) ← twoDigits? (s.dropWhile fun c => c = ':' || Text.isBlank c)
  if 59 < minutes then none else return (hours * 3600 + minutes * 60, s)

/-- An offset from universal time in seconds. -/
def offset? : Step Int := fun s =>
  match s with
  | a :: b :: c :: rest =>
    if a.toUpper = 'U' && b.toUpper = 'T' && c.toUpper = 'C' then some (0, rest) else signed? s
  | _ => signed? s
where
  /-- `Z`, or hours and minutes with a sign. -/
  signed? : Step Int
    | 'Z' :: rest | 'z' :: rest => some (0, rest)
    | '+' :: rest => (hoursAndMinutes? rest).map fun (n, rest) => ((n : Int), rest)
    | '-' :: rest | '−' :: rest => (hoursAndMinutes? rest).map fun (n, rest) => (-(n : Int), rest)
    | _ => none

/-- The instant at a local date and time. The offset is less than a day and moves whole minutes, so
    a leap second stays one. -/
def ofLocal? (date : Date) (second nano : Nat) (offset : Int) : Option Instant :=
  if !date.isValid || 86400 ≤ offset.natAbs then none
  else do
    let wall ← ofParts? date.toDay second nano
    let total := wall.second - offset
    ofParts? (wall.day + total / 86400) (total % 86400).toNat nano

def ofText? (text : String) : Option Instant := do
  let (date, s) ← date? text.toList
  let s ← match s with
    | 'T' :: rest | 't' :: rest | ' ' :: rest => some rest
    | _ => none
  let ((second, nano), s) ← clock? s
  let (offset, s) ← offset? s
  if (skipBlanks s).isEmpty then ofLocal? date second nano offset else none

end GridCatalog.Instant
