import TronUpgrades.Text
import TronUpgrades.Validation.BuildRecord

/-!
# Layout fidelity

Which storage positions the layouts of an output carry, and which namespaces a
contract of it declares. An output is what a compiler wrote, unchecked, so a
reader may raise.
-/

namespace TronUpgrades.Validation

open Json Keyed

-- ---------------------------------------------------------------------------
-- Reading unchecked values
-- ---------------------------------------------------------------------------

/-- `value ?? []`, iterated with an array's own method. -/
def itemsOrNone : Option Json → Except Raised (List Json)
  | none | some .null => .ok []
  | some (.arr items) => .ok items
  | some _ => .error .typeError

/-- `value ?? []`, in a `for … of`. -/
def iterated : Option Json → Except Raised (List Json)
  | none | some .null => .ok []
  | some (.arr items) => .ok items
  | some (.str value) => .ok (value.toList.map fun c => .str (.ofList [c]))
  | some _ => .error .typeError

/-- `Object.entries(value ?? {})` -/
def entriesOrNone : Option Json → Fields
  | none | some .null => []
  | some value => entries value

-- ---------------------------------------------------------------------------
-- The order of texts
-- ---------------------------------------------------------------------------

/-- The code units by which the language compares texts. -/
def utf16 (c : Char) : List Nat :=
  if c.toNat < 0x10000 then [c.toNat]
  else [0xD800 + (c.toNat - 0x10000) / 0x400, 0xDC00 + (c.toNat - 0x10000) % 0x400]

def codeUnits (text : String) : List Nat := text.toList.flatMap utf16

def compareText (left right : String) : Ordering := compare (codeUnits left) (codeUnits right)

/-- `texts.sort()` -/
def sortTexts (texts : List String) : List String := sortBy compareText id texts

-- ---------------------------------------------------------------------------
-- Positions
-- ---------------------------------------------------------------------------

inductive LayoutFidelity
  | slotLevel
  | declarationOrderOnly (missingFor : List String)
  deriving DecidableEq, Repr

structure PositionShortfall where
  storage : List String
  namespaces : List String
  reconstructed : Bool
  deriving DecidableEq, Repr

/-- Both coordinates are there. -/
def isPositioned (member : Json) : Except Raised Bool := do
  let slot ← readProperty member "slot"
  let offset ← readProperty member "offset"
  return slot.isSome && offset.isSome

def labelOf (member : Json) (fallback : String) : Except Raised String := do
  let label ← readProperty member "label"
  return match label.bind str? with
    | some label => if label = "" then fallback else label
    | none => fallback

/-- The labels of the members that have no position. -/
def unpositioned (fallback : Nat → String) (members : List Json) : Except Raised (List String) :=
  members.zipIdx.foldlM (fun labels (member, index) => do
    if ← isPositioned member then return labels
    else return labels ++ [← labelOf member (fallback index)]) []

def positionShortfall (layout : Json) : Except Raised PositionShortfall := do
  let storageMembers ← itemsOrNone (← readProperty layout "storage")
  let storage ← unpositioned (fun index => "storage[" ++ toString index ++ "]") storageMembers
  let namespaces ← (entriesOrNone (← readProperty layout "namespaces")).mapM fun (id, members) => do
    let labels ← unpositioned (fun index => "[" ++ toString index ++ "]")
      (← itemsOrNone (some members))
    return labels.map fun label => id ++ "." ++ label
  let flat ← readProperty layout "flat"
  return {
    storage
    namespaces := namespaces.flatten
    reconstructed := (match flat with
      | some (.bool false) => true
      | _ => false) && storageMembers.length > 0 }

/-- `output.contracts?.[source]?.[contract]?.storageLayout`, where it is an
object of some kind. -/
def layoutOf (output : SolcStandardOutput) (source contract : String) : Option Json :=
  let holder := (asObject (output.contracts.get? source)).bind (get? · contract)
  match (asObject holder).bind (get? · "storageLayout") with
  | some (.obj fields) => some (.obj fields)
  | some (.arr items) => some (.arr items)
  | _ => none

def lacksPositions (output : SolcStandardOutput) (source contract : String) :
    Except Raised Bool :=
  match layoutOf output source contract with
  | none => .ok true
  | some layout => do
    let shortfall ← positionShortfall layout
    return shortfall.storage.length > 0

/-- The contracts of an output, source by source. -/
def census (output : SolcStandardOutput) : List (String × String) :=
  output.contracts.entries.flatMap fun (source, contracts) =>
    ((asObject (some contracts)).map keys).getD [] |>.map (source, ·)

def detectFidelity (output : SolcStandardOutput) : Except Raised LayoutFidelity := do
  let missing ← (census output).filterM fun (source, contract) =>
    lacksPositions output source contract
  let missingFor := missing.map fun (source, contract) => source ++ ":" ++ contract
  return if missingFor = [] then .slotLevel else .declarationOrderOnly (sortTexts missingFor)

-- ---------------------------------------------------------------------------
-- Namespaces
-- ---------------------------------------------------------------------------

/-- `typeof value === 'number'` -/
def num? : Json → Option Int
  | .num value => some value
  | _ => none

/-- A definition under its id, a later one in place of an earlier. -/
def addDefinitions (nodes : List Json) (byId : List (Int × Json)) :
    Except Raised (List (Int × Json)) :=
  nodes.foldlM (fun byId node => do
    let nodeType ← readProperty node "nodeType"
    let id ← readProperty node "id"
    return match nodeType.bind str?, id.bind num? with
      | some "ContractDefinition", some id => (id, node) :: byId
      | _, _ => byId) byId

def contractDefinitions (output : SolcStandardOutput) : Except Raised (List (Int × Json)) :=
  output.sources.entries.foldlM (fun byId entry =>
    addDefinitions (astNodes output entry.1) byId) []

/-- `\s` -/
def isSpace (c : Char) : Bool :=
  [0x9, 0xA, 0xB, 0xC, 0xD, 0x20, 0xA0, 0x1680, 0x2028, 0x2029, 0x202F, 0x205F, 0x3000,
    0xFEFF].contains c.toNat || (0x2000 ≤ c.toNat && c.toNat ≤ 0x200A)

def annotation : List Char := "@custom:storage-location".toList

/-- `/@custom:storage-location\s+(\S+)/`: the id of the first annotation. -/
def annotatedNamespace : List Char → Option (List Char)
  | [] => none
  | c :: text =>
    let rest := (c :: text).drop annotation.length
    if annotation.isPrefixOf (c :: text) ∧ rest.head?.any isSpace ∧ rest.dropWhile isSpace ≠ [] then
      some ((rest.dropWhile isSpace).takeWhile fun c => !isSpace c)
    else annotatedNamespace text

def documentationText (node : Json) : Except Raised (List Char) := do
  let documentation ← readProperty node "documentation"
  return match documentation with
    | some (.str text) => text.toList
    | some (.obj fields) => (((get? fields "text").bind str?).getD "").toList
    | _ => []

/-- The name by which a struct's namespace is stated, where it has one. -/
def namespaceOf (member : Json) : Except Raised (Option String) := do
  let nodeType ← readProperty member "nodeType"
  if nodeType.bind str? != some "StructDefinition" then return none
  else
    let text ← documentationText member
    return (annotatedNamespace text).map .ofList

def linearizedBases (target : Json) : Except Raised (List (Option Json)) := do
  let bases ← readProperty target "linearizedBaseContracts"
  match asArray bases with
  | some bases => return bases.map some
  | none => return [← readProperty target "id"]

def baseNamespaces (definitions : List (Int × Json)) (base : Option Json) :
    Except Raised (List String) :=
  match base.bind num? with
  | none => .ok []
  | some id =>
    match definitions.find? (·.1 = id) with
    | none => .ok []
    | some (_, definition) => do
      let members ← iterated (← readProperty definition "nodes")
      return (← members.mapM namespaceOf).reduceOption

def declaresNamespacedStorage (output : SolcStandardOutput) (source contract : String) :
    Except Raised (List String) := do
  let definitions ← contractDefinitions output
  match ← findContractDefinition output source contract with
  | none => return []
  | some target =>
    let found ← (← linearizedBases target).mapM (baseNamespaces definitions)
    return sortTexts found.flatten.eraseDups

end TronUpgrades.Validation
