import GridCatalog.Json.Value
import GridCatalog.Text.Utf8

/-! Strings as JSON writes them.

    Between the quotes, a backslash starts an escape: a single character for a quote, a backslash,
    a slash and some control characters, or `u` and four hexadecimal digits for a 16-bit code unit.
    Two code units that form a surrogate pair are one character. Bare control characters are not
    allowed. Writing escapes the quote, the backslash and the control characters. -/

namespace GridCatalog.Json

/-! ### Reading -/

/-- A part of a quoted text. -/
inductive QuotedPart where
  | byte (b : UInt8)
  | codeUnit (n : Nat)
deriving DecidableEq, Repr

def hexValue? (b : UInt8) : Option Nat :=
  let c := Text.byteChar b
  if c.isDigit then some (c.toNat - '0'.toNat)
  else if 'a' ≤ c && c ≤ 'f' then some (c.toNat - 'a'.toNat + 10)
  else if 'A' ≤ c && c ≤ 'F' then some (c.toNat - 'A'.toNat + 10)
  else none

def codeUnit? (a b c d : UInt8) : Option Nat := do
  return ((← hexValue? a) * 16 + (← hexValue? b)) * 256 + ((← hexValue? c) * 16 + (← hexValue? d))

/-- The byte that a single-character escape stands for. -/
def escaped? (b : UInt8) : Option UInt8 :=
  match Text.byteChar b with
  | '"' => some 0x22
  | '\\' => some 0x5C
  | '/' => some 0x2F
  | 'b' => some 0x08
  | 'f' => some 0x0C
  | 'n' => some 0x0A
  | 'r' => some 0x0D
  | 't' => some 0x09
  | _ => none

def backslash : UInt8 := 0x5C

/-- The byte of the letter that starts a hexadecimal escape. -/
def unitMark : UInt8 := 0x75

/-- The parts of what stands between the quotes, unless it is malformed. -/
def quotedParts? : List UInt8 → Option (List QuotedPart)
  | [] => some []
  | [b] => if b < 0x20 || b = backslash then none else some [.byte b]
  | b :: e :: rest =>
    if b < 0x20 then none
    else if b ≠ backslash then (quotedParts? (e :: rest)).map (.byte b :: ·)
    else if e ≠ unitMark then do
      let value ← escaped? e
      return .byte value :: (← quotedParts? rest)
    else
      match rest with
      | a :: b :: c :: d :: rest => do
        let n ← codeUnit? a b c d
        return .codeUnit n :: (← quotedParts? rest)
      | _ => none

/-- Whether a code unit is the first of a surrogate pair. -/
def isHighSurrogate (n : Nat) : Bool := 0xD800 ≤ n && n < 0xDC00

/-- Whether a code unit is the second of a surrogate pair. -/
def isLowSurrogate (n : Nat) : Bool := 0xDC00 ≤ n && n < 0xE000

/-- The bytes of the text that the parts stand for; half a surrogate pair stands for no text. -/
def joinParts? : List QuotedPart → Option (List UInt8)
  | [] => some []
  | .byte b :: rest => (joinParts? rest).map (b :: ·)
  | [.codeUnit n] =>
    if isHighSurrogate n || isLowSurrogate n then none
    else some (Text.utf8Encode [Char.ofNat n])
  | .codeUnit n :: .codeUnit m :: rest =>
    if isHighSurrogate n then
      if isLowSurrogate m then
        (joinParts? rest).map
          (Text.utf8Encode [Char.ofNat (0x10000 + (n - 0xD800) * 0x400 + (m - 0xDC00))] ++ ·)
      else none
    else if isLowSurrogate n then none
    else (joinParts? (.codeUnit m :: rest)).map (Text.utf8Encode [Char.ofNat n] ++ ·)
  | .codeUnit n :: .byte b :: rest =>
    if isHighSurrogate n || isLowSurrogate n then none
    else (joinParts? (.byte b :: rest)).map (Text.utf8Encode [Char.ofNat n] ++ ·)

/-- The string value of what stands between the quotes, unless it is malformed. -/
def unquote? (content : List UInt8) : Option Json :=
  (quotedParts? content).map fun parts =>
    .string (((joinParts? parts).bind Text.utf8Decode?).map String.ofList)

/-! ### Writing -/

def hexDigit (n : Nat) : Char := if n < 10 then Char.ofNat (0x30 + n) else Char.ofNat (0x57 + n)

/-- A character as it is written between quotes. -/
def escape (c : Char) : List Char :=
  match c with
  | '"' => ['\\', '"']
  | '\\' => ['\\', '\\']
  | '\x08' => ['\\', 'b']
  | '\t' => ['\\', 't']
  | '\n' => ['\\', 'n']
  | '\x0C' => ['\\', 'f']
  | '\r' => ['\\', 'r']
  | _ =>
    if c.toNat < 0x20 then ['\\', 'u', '0', '0', hexDigit (c.toNat / 16), hexDigit (c.toNat % 16)]
    else [c]

def quote (s : String) : List Char := '"' :: s.toList.flatMap escape ++ ['"']

end GridCatalog.Json
