/-!
# Host values and reads

A migration hands its handles over as values of unknown shape. An object is
known by its identity and by what a script learns of it; every question may
raise, as a getter or a proxy's trap does, and is answered alike each time.
-/

namespace TronUpgrades.Environment

inductive HostValue
  | undefined
  | null
  | boolean (b : Bool)
  /-- By `String(n)`, but for `-0`, which is told from `0`. -/
  | number (text : String)
  | bigint (n : Int)
  | symbol (id : Nat)
  | string (s : String)
  | object (id : Nat)
  deriving DecidableEq, Repr

structure HostObject where
  callable : Bool
  /-- `Array.isArray`, which a revoked proxy raises at. -/
  isArray : Except HostValue Bool
  hasOwn : String → Except HostValue Bool
  /-- `key in object` -/
  has : String → Except HostValue Bool
  get : String → Except HostValue HostValue
  /-- Whether the own property is a getter's, where there is one. -/
  getter? : String → Except HostValue (Option Bool)
  keys : Except HostValue (List String)
  /-- `structuredClone` -/
  clone : Except HostValue Unit

structure Host where
  object : Nat → HostObject

/-- Listing an object's keys and asking whether it is an array raise nothing. -/
def Host.Plain (host : Host) : Prop :=
  ∀ id, (∃ keys, (host.object id).keys = .ok keys) ∧ ∃ b, (host.object id).isArray = .ok b

variable (host : Host)

namespace HostValue

def isObjectLike : HostValue → Bool
  | .object _ => true
  | _ => false

def typeOf : HostValue → String
  | .undefined => "undefined"
  | .null => "object"
  | .boolean _ => "boolean"
  | .number _ => "number"
  | .bigint _ => "bigint"
  | .symbol _ => "symbol"
  | .string _ => "string"
  | .object id => if (host.object id).callable then "function" else "object"

def truthy : HostValue → Bool
  | .undefined | .null => false
  | .boolean b => b
  | .number text => text ≠ "0" && text ≠ "-0" && text ≠ "NaN"
  | .bigint n => n ≠ 0
  | .string s => s ≠ ""
  | .symbol _ | .object _ => true

/-- `value === undefined || value === null` -/
def isNullish : HostValue → Bool
  | .undefined | .null => true
  | _ => false

def isFunction : HostValue → Bool
  | .object id => (host.object id).callable
  | _ => false

/-- Names the type of an offending value, never the value. -/
def describe : HostValue → Except HostValue String
  | .null => .ok "null"
  | .object id => do
    if ← (host.object id).isArray then return "an array"
    return "of type " ++ (HostValue.object id).typeOf host
  | value => .ok ("of type " ++ value.typeOf host)

end HostValue

-- ---------------------------------------------------------------------------
-- Reads
-- ---------------------------------------------------------------------------

inductive ReadReason
  | missing | threw
  deriving DecidableEq, Repr

abbrev PropertyRead := Except ReadReason HostValue

/-- No throw of the host's comes through here. -/
def read (present : HostObject → Except HostValue Bool) (owner : HostValue) (key : String) :
    PropertyRead :=
  match owner with
  | .object id =>
    match present (host.object id), (host.object id).get key with
    | .ok true, .ok value => .ok value
    | .ok true, .error _ => .error .threw
    | .ok false, _ => .error .missing
    | .error _, _ => .error .threw
  | _ => .error .missing

def readOwnProperty (owner : HostValue) (key : String) : PropertyRead :=
  read host (·.hasOwn key) owner key

/-- Of a member that may be a prototype's. -/
def readProperty (owner : HostValue) (key : String) : PropertyRead :=
  read host (·.has key) owner key

-- ---------------------------------------------------------------------------
-- Handles
-- ---------------------------------------------------------------------------

inductive HandleName
  | deployer | artifacts | tronWrap | tronWeb | waitForTransactionReceipt
  deriving DecidableEq, Repr

/-- `undefined` where a handle is not handed over. -/
abbrev RawMigrationHandles := HandleName → HostValue

def supplied (value : HostValue) : Bool := value ≠ .undefined

end TronUpgrades.Environment
