/-!
# Untyped values

What a script is handed by code it does not know: a value whose properties may
be absent, and may raise where they are read. `κ` names the classes that
`instanceof` is asked about, with what is read of an instance.
-/

namespace Js

inductive Value (κ : Type)
  | undefined
  | null
  | boolean (b : Bool)
  /-- By `String(n)`. -/
  | number (text : String)
  | bigint (n : Int)
  | symbol
  | string (s : String)
  /-- `has` is `key in value`; a read of a property that is absent is `undefined`. -/
  | object (callable : Bool) (instance? : Option κ) (has : String → Except (Value κ) Bool)
      (get : String → Except (Value κ) (Value κ))

namespace Value

variable {κ : Type}

/-- `typeof value` -/
def typeOf : Value κ → String
  | .undefined => "undefined"
  | .null => "object"
  | .boolean _ => "boolean"
  | .number _ => "number"
  | .bigint _ => "bigint"
  | .symbol => "symbol"
  | .string _ => "string"
  | .object callable _ _ _ => if callable then "function" else "object"

def isObjectLike : Value κ → Bool
  | .object _ _ _ _ => true
  | _ => false

/-- `value instanceof` one of the classes. -/
def asInstance : Value κ → Option κ
  | .object _ instance? _ _ => instance?
  | _ => none

/-- `value === undefined || value === null` -/
def isNullish : Value κ → Bool
  | .undefined => true
  | .null => true
  | _ => false

/-- A read that answers `undefined` where there is nothing to read from. -/
def peek (owner : Value κ) (key : String) : Except (Value κ) (Value κ) :=
  match owner with
  | .object _ _ _ get => get key
  | _ => .ok .undefined

/-- `key in value`, of an object. -/
def hasKey (owner : Value κ) (key : String) : Except (Value κ) Bool :=
  match owner with
  | .object _ _ has _ => has key
  | _ => .ok false

/-- A plain object: its own properties, none of which raises. -/
def record (properties : List (String × Value κ)) : Value κ :=
  .object false none (fun key => .ok (properties.any (·.1 == key)))
    fun key => .ok ((properties.find? (·.1 == key)).elim .undefined (·.2))

end Value

end Js
