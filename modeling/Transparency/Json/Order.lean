import Transparency.Json.Value

/-! JSON values with the keys of every object in ascending order. -/
namespace Transparency.Json

/-- Puts a field before the first one with a greater key. -/
def insertField (field : String × Json) : List (String × Json) → List (String × Json)
  | [] => [field]
  | other :: rest =>
    if field.1 < other.1 then field :: other :: rest else other :: insertField field rest

mutual

def sorted : Json → Json
  | .array items => .array (sortedItems items)
  | .object fields => .object (sortedFields fields)
  | .null => .null
  | .bool value => .bool value
  | .integer value => .integer value
  | .decimal mantissa places => .decimal mantissa places
  | .string value => .string value

def sortedItems : List Json → List Json
  | [] => []
  | item :: rest => item.sorted :: sortedItems rest

def sortedFields : List (String × Json) → List (String × Json)
  | [] => []
  | (key, value) :: rest => insertField (key, value.sorted) (sortedFields rest)

end

end Transparency.Json
