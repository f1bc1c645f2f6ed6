import GridCatalog.Json.Token

/-! Reading JSON texts.

    The tokens of a text are read one by one, with the containers that are open kept on a stack.
    Values may be nested to any depth. -/

namespace GridCatalog.Json

/-- An open container with what has been read of it, in reverse. -/
inductive Frame where
  | array (done : List Json)
  | object (done : List (Option String × Json)) (name : Option String)
deriving Repr

/-- What may come next. -/
inductive Expected where
  /-- A value. -/
  | value
  /-- The first item of an array, or its end. -/
  | firstItem
  /-- The first name of an object, or its end. -/
  | firstName
  /-- The name of another member, behind the given ones. -/
  | name (done : List (Option String × Json))
  /-- The colon behind a name. -/
  | colon (done : List (Option String × Json)) (name : Option String)
  /-- What follows a value that has been read. -/
  | follow (value : Json)
deriving Repr

/-- The open containers, innermost first, and what may come next. -/
structure Parse where
  stack : List Frame
  expected : Expected
deriving Repr

def Parse.beginValue? (stack : List Frame) : Token → Option Parse
  | .scalar v => some ⟨stack, .follow v⟩
  | .openArray => some ⟨.array [] :: stack, .firstItem⟩
  | .openObject => some ⟨stack, .firstName⟩
  | _ => none

def Parse.beginMember? (stack : List Frame) (done : List (Option String × Json)) :
    Token → Option Parse
  | .scalar (.string name) => some ⟨stack, .colon done name⟩
  | _ => none

def Parse.continue? (stack : List Frame) (v : Json) (token : Token) : Option Parse :=
  match stack, token with
  | .array done :: stack, .comma => some ⟨.array (v :: done) :: stack, .value⟩
  | .array done :: stack, .closeArray => some ⟨stack, .follow (.array (v :: done).reverse)⟩
  | .object done name :: stack, .comma => some ⟨stack, .name ((name, v) :: done)⟩
  | .object done name :: stack, .closeObject =>
    some ⟨stack, .follow (.object ((name, v) :: done).reverse)⟩
  | _, _ => none

def Parse.push? (p : Parse) (token : Token) : Option Parse :=
  match p.expected, token with
  | .value, _ => beginValue? p.stack token
  | .firstItem, .closeArray => some ⟨p.stack.drop 1, .follow (.array [])⟩
  | .firstItem, _ => beginValue? p.stack token
  | .firstName, .closeObject => some ⟨p.stack, .follow (.object [])⟩
  | .firstName, _ => beginMember? p.stack [] token
  | .name done, _ => beginMember? p.stack done token
  | .colon done name, .colon => some ⟨.object done name :: p.stack, .value⟩
  | .colon _ _, _ => none
  | .follow v, _ => continue? p.stack v token

/-- The value that a list of tokens writes. -/
def ofTokens? (tokens : List Token) : Option Json := do
  match ← tokens.foldlM Parse.push? ⟨[], .value⟩ with
  | ⟨[], .follow v⟩ => some v
  | _ => none

def ofBytes? (bytes : List UInt8) : Option Json := (tokens? bytes).bind ofTokens?

def ofText? (text : String) : Option Json := ofBytes? (Text.utf8Encode text.toList)

end GridCatalog.Json
