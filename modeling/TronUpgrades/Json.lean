/-!
# JSON values

What `JSON.parse` answers, and the shape of an untyped JavaScript argument.
Numbers are the integers: no modelled check looks at a fraction.
-/

namespace TronUpgrades

inductive Json
  | null
  | bool (value : Bool)
  | num (value : Int)
  | str (value : String)
  | arr (items : List Json)
  | obj (fields : List (String × Json))

namespace Json

/-- An own property of an object, the last of its spellings in the text. -/
def get? (fields : List (String × Json)) (key : String) : Option Json :=
  (fields.reverse.find? (·.1 == key)).map (·.2)

/-- The own properties of an object, as the text spells them. -/
abbrev Fields := List (String × Json)

/-- `typeof value === 'object' && value !== null && !Array.isArray(value)`, of a
value that may be undefined. -/
def asObject : Option Json → Option Fields
  | some (.obj fields) => some fields
  | _ => none

/-- `Array.isArray(value)` -/
def asArray : Option Json → Option (List Json)
  | some (.arr items) => some items
  | _ => none

/-- `Object.keys` of an object. -/
def keys (fields : Fields) : List String := (fields.map (·.1)).eraseDups

/-- `Object.entries` of any value but null: the items of an array or a text are
under their indices. -/
def entries : Json → Fields
  | .obj fields => (keys fields).filterMap fun key => (get? fields key).map (key, ·)
  | .arr items => items.zipIdx.map fun item => (toString item.2, item.1)
  | .str value => value.toList.zipIdx.map fun item => (toString item.2, .str (.ofList [item.1]))
  | _ => []

/-- `typeof value === 'string'` -/
def str? : Json → Option String
  | .str value => some value
  | _ => none

end Json

end TronUpgrades
