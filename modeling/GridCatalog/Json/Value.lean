/-! JSON values.

    Objects keep their members in order, repeated names included. A string may be written so that
    it stands for no text (an escape for half of a surrogate pair), and a number so that it is too
    large for a double. Such a value is well formed and may stand where nobody looks at it, so it
    is kept as one without content. -/

namespace GridCatalog

/-- The number of a JSON value. -/
inductive Number where
  | integer (n : Int)
  | double (x : Float)
deriving DecidableEq, Repr

/-- A JSON value. -/
inductive Json where
  | null
  | bool (b : Bool)
  | number (content : Option Number)
  | string (content : Option String)
  | array (items : List Json)
  | object (members : List (Option String × Json))
deriving Repr, Inhabited

namespace Json

def ofString (s : String) : Json := .string (some s)

def ofInt (n : Int) : Json := .number (some (.integer n))

def ofNat (n : Nat) : Json := ofInt n

/-- The value of a double; one that is not finite has none. -/
def ofFloat (x : Float) : Json := if x.isFinite then .number (some (.double x)) else .null

def ofMembers (members : List (String × Json)) : Json :=
  .object (members.map fun (name, value) => (some name, value))

end Json

end GridCatalog
