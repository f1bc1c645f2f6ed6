import GridCatalog.Json.Number
import GridCatalog.Json.Quoted

/-! Tokens of JSON texts.

    A text is read byte by byte. Marks and strings delimit themselves; a run of any other bytes
    that are not blank is a word and has to be a literal or a number. -/

namespace GridCatalog.Json

/-- A token; a scalar is a literal, a number or a string. -/
inductive Token where
  | openArray
  | closeArray
  | openObject
  | closeObject
  | comma
  | colon
  | scalar (value : Json)
deriving Repr

def Token.ofMark? : Char → Option Token
  | '[' => some .openArray
  | ']' => some .closeArray
  | '{' => some .openObject
  | '}' => some .closeObject
  | ',' => some .comma
  | ':' => some .colon
  | _ => none

def isSpace (c : Char) : Bool := c = ' ' || c = '\n' || c = '\t' || c = '\r'

def wordValue? (word : List Char) : Option Json :=
  match String.ofList word with
  | "null" => some .null
  | "true" => some (.bool true)
  | "false" => some (.bool false)
  | _ => (numberParts? word).map fun parts => .number parts.value?

/-- Where the reading of a text stands; the characters of an open token are in reverse. -/
inductive Reading where
  | between
  | word (done : List Char)
  | quoted (done : List UInt8)
  /-- Behind a backslash inside a string. -/
  | escaped (done : List UInt8)
deriving Repr

/-- The tokens so far, in reverse, and where the reading stands. -/
structure Scan where
  tokens : List Token
  reading : Reading
deriving Repr

/-- Ends the word that is being read, if there is one. -/
def Scan.endWord? (s : Scan) : Option Scan :=
  match s.reading with
  | .word done => (wordValue? done.reverse).map fun v => ⟨.scalar v :: s.tokens, .between⟩
  | _ => some s

/-- Reads a byte that does not stand inside a string. -/
def Scan.pushOutside? (s : Scan) (b : UInt8) : Option Scan :=
  let c := Text.byteChar b
  match Token.ofMark? c with
  | some mark => s.endWord?.map fun s => ⟨mark :: s.tokens, .between⟩
  | none =>
    if isSpace c then s.endWord?
    else if c = '"' then s.endWord?.map fun s => { s with reading := .quoted [] }
    else match s.reading with
      | .word done => some { s with reading := .word (c :: done) }
      | _ => some { s with reading := .word [c] }

def Scan.push? (s : Scan) (b : UInt8) : Option Scan :=
  match s.reading with
  | .quoted done =>
    if Text.byteChar b = '"' then
      (unquote? done.reverse).map fun v => ⟨.scalar v :: s.tokens, .between⟩
    else if b = backslash then some { s with reading := .escaped (b :: done) }
    else some { s with reading := .quoted (b :: done) }
  | .escaped done => some { s with reading := .quoted (b :: done) }
  | _ => s.pushOutside? b

def tokens? (bytes : List UInt8) : Option (List Token) := do
  let scan ← bytes.foldlM Scan.push? ⟨[], .between⟩
  let scan ← scan.endWord?
  match scan.reading with
  | .between => some scan.tokens.reverse
  | _ => none

end GridCatalog.Json
