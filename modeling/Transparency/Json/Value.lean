/-! JSON values, with the keys of an object in the order they are written. -/
namespace Transparency

inductive Json where
  | null
  | bool (value : Bool)
  | integer (value : Int)
  /-- A number written with a point and `places` digits after it. -/
  | decimal (mantissa : Int) (places : Nat)
  | string (value : String)
  | array (items : List Json)
  | object (fields : List (String × Json))
deriving Inhabited

namespace Json

def string? : Json → Option String
  | .string s => some s
  | _ => none

def array? : Json → Option (List Json)
  | .array items => some items
  | _ => none

/-- An integer that fits in 64 bits. -/
def word? : Json → Option UInt64
  | .integer (.ofNat n) => if n < UInt64.size then some (UInt64.ofNat n) else none
  | _ => none

def ofWord (n : UInt64) : Json := .integer n.toNat

/-- The value under a name that is given once. -/
def only? (name : String) (fields : List (String × Json)) : Option Json :=
  match fields.filter fun field => field.1 = name with
  | [field] => some field.2
  | _ => none

/-- The values of exactly these fields: an object may name them in any order, none twice, and have others
beside them; an array lists them in order. -/
def fields? (names : List String) : Json → Option (List Json)
  | .object fields => names.mapM fun name => only? name fields
  | .array items => if items.length = names.length then some items else none
  | _ => none

/-- The name of an alternative that carries nothing: a string, or the only key of an object, with
null. -/
def name? : Json → Option String
  | .string name => some name
  | .object [(name, .null)] => some name
  | _ => none

/-- An alternative that carries a value: the only key of an object. -/
def alternative? : Json → Option (String × Json)
  | .object [alternative] => some alternative
  | _ => none

end Json

end Transparency
