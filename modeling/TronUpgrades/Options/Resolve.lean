import TronUpgrades.Output.Channel
import TronUpgrades.Tronbox.Engine

/-!
# Option resolution

Every supplied value is checked against what it may be, step by step, and then
read again by the same readers for the result. `withValidationDefaults` is the
engine's: what is relied on of it is in `Documented`.
-/

namespace TronUpgrades.Options

open Tronbox (RedeployMode)

-- ---------------------------------------------------------------------------
-- What is supplied
-- ---------------------------------------------------------------------------

inductive OptionValue
  | undefined
  | null
  | boolean (b : Bool)
  /-- A number for which `Number.isInteger` holds. -/
  | integer (n : Int)
  /-- Any other number, by `String(n)`. -/
  | fraction (text : String)
  | string (s : String)
  | array (items : List OptionValue)
  | object (properties : List (String × OptionValue))
  /-- A value of another type, by its `typeof`. -/
  | other (typeOf : String)

structure OwnProperty where
  value : OptionValue
  enumerable : Bool := true

/-- The caller's object, as data. -/
structure SuppliedOptions where
  own : List (String × OwnProperty)
  inherited : String → OptionValue := fun _ => .undefined

namespace SuppliedOptions

variable (supplied : SuppliedOptions) (key : String)

def own? : Option OwnProperty := (supplied.own.find? (·.1 == key)).map (·.2)

/-- `supplied[key]` -/
def get : OptionValue := (supplied.own? key).elim (supplied.inherited key) (·.value)

/-- `Object.keys(supplied)` -/
def keys : List String := (supplied.own.filter (·.2.enumerable)).map (·.1)

/-- An option that is not the object's own is absent, whatever it inherits. -/
def read : OptionValue := if (supplied.own? key).isSome then supplied.get key else .undefined

end SuppliedOptions

-- ---------------------------------------------------------------------------
-- Closed sets
-- ---------------------------------------------------------------------------

inductive UnsafeAllowKind
  | stateVariableAssignment | stateVariableImmutable | externalLibraryLinking
  | structDefinition | enumDefinition | constructor | delegatecall | selfdestruct
  | missingPublicUpgradeto | internalFunctionStorage | missingInitializer
  | missingInitializerCall | duplicateInitializerCall | incorrectInitializerOrder
  deriving DecidableEq, Repr

def UnsafeAllowKind.name : UnsafeAllowKind → String
  | .stateVariableAssignment => "state-variable-assignment"
  | .stateVariableImmutable => "state-variable-immutable"
  | .externalLibraryLinking => "external-library-linking"
  | .structDefinition => "struct-definition"
  | .enumDefinition => "enum-definition"
  | .constructor => "constructor"
  | .delegatecall => "delegatecall"
  | .selfdestruct => "selfdestruct"
  | .missingPublicUpgradeto => "missing-public-upgradeto"
  | .internalFunctionStorage => "internal-function-storage"
  | .missingInitializer => "missing-initializer"
  | .missingInitializerCall => "missing-initializer-call"
  | .duplicateInitializerCall => "duplicate-initializer-call"
  | .incorrectInitializerOrder => "incorrect-initializer-order"

def unsafeAllowKinds : List UnsafeAllowKind :=
  [.stateVariableAssignment, .stateVariableImmutable, .externalLibraryLinking, .structDefinition,
    .enumDefinition, .constructor, .delegatecall, .selfdestruct, .missingPublicUpgradeto,
    .internalFunctionStorage, .missingInitializer, .missingInitializerCall,
    .duplicateInitializerCall, .incorrectInitializerOrder]

def proxyKindName : ProxyKind → String
  | .uups => "uups"
  | .transparent => "transparent"
  | .beacon => "beacon"

def proxyKinds : List ProxyKind := [.uups, .transparent, .beacon]

def redeployModeName : RedeployMode → String
  | .always => "always"
  | .never => "never"
  | .onchange => "onchange"

def redeployModes : List RedeployMode := [.always, .never, .onchange]

/-- The member of a closed set that a value names. -/
def memberOf {α : Type} (name : α → String) (members : List α) : OptionValue → Option α
  | .string s => members.find? (name · == s)
  | _ => none

def asUnsafeAllowKind : OptionValue → Option UnsafeAllowKind :=
  memberOf UnsafeAllowKind.name unsafeAllowKinds

-- ---------------------------------------------------------------------------
-- Refusals
-- ---------------------------------------------------------------------------

inductive AcceptedValues
  | oneOf (names : List String)
  | described (text : String)

inductive OptionsError
  /-- `OptionValueError` -/
  | value (option : String) (received : OptionValue) (accepted : AcceptedValues)
  /-- `UnknownOptionError` -/
  | unknown (unknownKeys accepted : List String)
  /-- `OptionConflictError` -/
  | conflict (options : List String) (because : String) (alternative : String)
  /-- `OptionUnsupportedOnTronError` -/
  | unsupportedOnTron (option because : String) (alternative : String)

structure TronOptionRefusal where
  option : String
  because : String
  alternative : String

/-- Empty, and walked all the same. -/
def optionsUnsupportedOnTron : List TronOptionRefusal := []

-- ---------------------------------------------------------------------------
-- Readers
-- ---------------------------------------------------------------------------

/-- An option that is absent, or narrowed, or refused. -/
def readOption {α : Type} (narrow : OptionValue → Option α) (accepted : AcceptedValues)
    (supplied : SuppliedOptions) (key : String) : Except OptionsError (Option α) :=
  match supplied.read key with
  | .undefined => .ok none
  | value =>
    match narrow value with
    | some narrowed => .ok (some narrowed)
    | none => .error (.value key value accepted)

def asBoolean : OptionValue → Option Bool
  | .boolean b => some b
  | _ => none

def asMilliseconds : OptionValue → Option Nat
  | .integer (.ofNat n) => some n
  | _ => none

def asArray : OptionValue → Option (List OptionValue)
  | .array items => some items
  | _ => none

def asNonEmpty : OptionValue → Option String
  | .string s => if Output.trim s = "" then none else some s
  | _ => none

inductive Initializer
  | disabled
  | named (fn : String)
  deriving DecidableEq, Repr

def asInitializer : OptionValue → Option Initializer
  | .boolean false => some .disabled
  | value => (asNonEmpty value).map .named

inductive CallOption
  | text (call : String)
  | function (fn : String) (args : Option (List OptionValue))

def property (properties : List (String × OptionValue)) (key : String) : OptionValue :=
  ((properties.find? (·.1 == key)).map (·.2)).getD .undefined

def asCall : OptionValue → Option CallOption
  | .string call => some (.text call)
  | .object properties =>
    match property properties "fn" with
    | .string fn =>
      match property properties "args" with
      | .undefined => some (.function fn none)
      | .array args => some (.function fn (some args))
      | _ => none
    | _ => none
  | _ => none

section
variable (supplied : SuppliedOptions)

def readProxyKind : Except OptionsError (Option ProxyKind) :=
  readOption (memberOf proxyKindName proxyKinds) (.oneOf (proxyKinds.map proxyKindName)) supplied
    "kind"

/-- A refusal names the first member that is no kind. -/
def readUnsafeAllow : Except OptionsError (Option (List UnsafeAllowKind)) :=
  match supplied.read "unsafeAllow" with
  | .undefined => .ok none
  | .array items =>
    match items.find? fun member => (asUnsafeAllowKind member).isNone with
    | some member =>
      .error (.value "unsafeAllow" member (.oneOf (unsafeAllowKinds.map UnsafeAllowKind.name)))
    | none => .ok (some (items.filterMap asUnsafeAllowKind))
  | value =>
    .error (.value "unsafeAllow" value (.described "an array of validation-error kinds"))

def readBooleanOption (key : String) : Except OptionsError (Option Bool) :=
  readOption asBoolean (.oneOf ["true", "false"]) supplied key

def readRedeployMode : Except OptionsError (Option RedeployMode) :=
  readOption (memberOf redeployModeName redeployModes)
    (.oneOf (redeployModes.map redeployModeName)) supplied "redeployImplementation"

def readMilliseconds (key : String) : Except OptionsError (Option Nat) :=
  readOption asMilliseconds (.described
    "a non-negative integer number of milliseconds (>= 0; 0 waits indefinitely)") supplied key

def readConstructorArgs : Except OptionsError (Option (List OptionValue)) :=
  readOption asArray (.described "an array of constructor arguments") supplied "constructorArgs"

def readInitializerOption : Except OptionsError (Option Initializer) :=
  readOption asInitializer
    (.described "a non-empty function name, or false for no initialization") supplied "initializer"

def readCallOption : Except OptionsError (Option CallOption) :=
  readOption asCall (.described "a function name, or \x7b fn: string; args?: unknown[] \x7d")
    supplied "call"

def readInitialOwner : Except OptionsError (Option String) :=
  readOption asNonEmpty (.described "a non-empty TRON address, as a string") supplied
    "initialOwner"

end

-- ---------------------------------------------------------------------------
-- Checks
-- ---------------------------------------------------------------------------

/-- Options that express one allowance and disagree. -/
structure Contradiction where
  options : List String
  holds : SuppliedOptions → Except OptionsError Bool
  because : String
  alternative : String

def linkedLibrariesRevoked : Contradiction where
  options := ["unsafeAllowLinkedLibraries: false", "unsafeAllow: ['external-library-linking']"]
  holds supplied := do
    let flag ← readBooleanOption supplied "unsafeAllowLinkedLibraries"
    if flag = some false then
      return ((← readUnsafeAllow supplied).getD []).contains .externalLibraryLinking
    else return false
  because := "The explicit false revokes the allowance while the array still grants " ++
    "it, and upstream resolves that in favour of the array — so the " ++
    "allowance would be granted to a caller who asked to revoke it."
  alternative := "Remove 'external-library-linking' from unsafeAllow to revoke it, or " ++
    "drop unsafeAllowLinkedLibraries to keep it."

/-- Both members, as the engine derives the flag from both. -/
def customTypesRevoked : Contradiction where
  options := ["unsafeAllowCustomTypes: false",
    "unsafeAllow: ['struct-definition', 'enum-definition']"]
  holds supplied := do
    let unsafeAllow := (← readUnsafeAllow supplied).getD []
    let flag ← readBooleanOption supplied "unsafeAllowCustomTypes"
    return flag = some false && unsafeAllow.contains .structDefinition &&
      unsafeAllow.contains .enumDefinition
  because := "The explicit false revokes the allowance while the array still grants " ++
    "it, and upstream resolves that in favour of the array."
  alternative := "Remove 'struct-definition' and 'enum-definition' from unsafeAllow to " ++
    "revoke it, or drop unsafeAllowCustomTypes to keep it."

def isUndefined : OptionValue → Bool
  | .undefined => true
  | _ => false

def redeployPolicyTwice : Contradiction where
  options := ["useDeployedImplementation", "redeployImplementation"]
  holds supplied := .ok (asBoolean (supplied.read "useDeployedImplementation") = some true &&
    !isUndefined (supplied.read "redeployImplementation"))
  because := "They are two spellings of one policy, and useDeployedImplementation is " ++
    "deprecated."
  alternative := "Keep redeployImplementation only — useDeployedImplementation: true is " ++
    "redeployImplementation: 'never'."

def contradictions : List Contradiction :=
  [linkedLibrariesRevoked, customTypesRevoked, redeployPolicyTwice]

structure CheckStep where
  name : String
  check : SuppliedOptions → List String → Except OptionsError Unit

def checkKeys (supplied : SuppliedOptions) (accepted : List String) : Except OptionsError Unit := do
  let unknown := supplied.keys.filter fun key => !accepted.contains key
  if unknown.length > 0 then throw (.unknown unknown accepted)
  optionsUnsupportedOnTron.forM fun refusal =>
    if (supplied.own? refusal.option).isSome then
      throw (.unsupportedOnTron refusal.option refusal.because refusal.alternative)
    else pure ()

def checkClosedSets (supplied : SuppliedOptions) : Except OptionsError Unit := do
  let _ ← readProxyKind supplied
  let _ ← readUnsafeAllow supplied
  let _ ← readRedeployMode supplied
  let _ ← readBooleanOption supplied "unsafeAllowCustomTypes"
  let _ ← readBooleanOption supplied "unsafeAllowLinkedLibraries"
  let _ ← readBooleanOption supplied "unsafeAllowRenames"
  let _ ← readBooleanOption supplied "unsafeSkipStorageCheck"
  let _ ← readBooleanOption supplied "useDeployedImplementation"
  let _ ← readBooleanOption supplied "unsafeSkipProxyAdminCheck"

def checkContradiction (supplied : SuppliedOptions) (contradiction : Contradiction) :
    Except OptionsError Unit := do
  if ← contradiction.holds supplied then
    throw (.conflict contradiction.options contradiction.because contradiction.alternative)

def checkBounds (supplied : SuppliedOptions) : Except OptionsError Unit := do
  let _ ← readMilliseconds supplied "timeout"
  let _ ← readMilliseconds supplied "pollingInterval"

def checkShapes (supplied : SuppliedOptions) : Except OptionsError Unit := do
  let _ ← readConstructorArgs supplied
  let _ ← readInitializerOption supplied
  let _ ← readCallOption supplied
  let _ ← readInitialOwner supplied

/-- The order is data: the first step that fails throws. -/
def checkSteps : List CheckStep :=
  [⟨"unknown-and-refused-keys", checkKeys⟩,
    ⟨"closed-set-values", fun supplied _ => checkClosedSets supplied⟩,
    ⟨"cross-option-contradictions", fun supplied _ =>
      contradictions.forM (checkContradiction supplied)⟩,
    ⟨"numeric-bounds", fun supplied _ => checkBounds supplied⟩,
    ⟨"shapes", fun supplied _ => checkShapes supplied⟩]

-- ---------------------------------------------------------------------------
-- The engine's options
-- ---------------------------------------------------------------------------

/-- `ValidationOptions`, with no key for what the caller left out. -/
structure ValidationInput where
  kind : Option ProxyKind := none
  unsafeAllow : Option (List UnsafeAllowKind) := none
  unsafeAllowCustomTypes : Option Bool := none
  unsafeAllowLinkedLibraries : Option Bool := none
  unsafeAllowRenames : Option Bool := none
  unsafeSkipStorageCheck : Option Bool := none

/-- `Required<ValidationOptions>`; `α` is the array, as it is held. -/
structure ValidationOptions (α : Type) where
  kind : ProxyKind
  unsafeAllow : α
  unsafeAllowCustomTypes : Bool
  unsafeAllowLinkedLibraries : Bool
  unsafeAllowRenames : Bool
  unsafeSkipStorageCheck : Bool
  deriving DecidableEq, Repr

/-- The same options as an argument: every key is given. -/
def ValidationOptions.input (options : ValidationOptions (List UnsafeAllowKind)) :
    ValidationInput where
  kind := options.kind
  unsafeAllow := options.unsafeAllow
  unsafeAllowCustomTypes := options.unsafeAllowCustomTypes
  unsafeAllowLinkedLibraries := options.unsafeAllowLinkedLibraries
  unsafeAllowRenames := options.unsafeAllowRenames
  unsafeSkipStorageCheck := options.unsafeSkipStorageCheck

/-- `withValidationDefaults`, by what it answers; its array is the one it was
given, as it is afterwards. -/
abbrev EngineDefaults := ValidationInput → ValidationOptions (List UnsafeAllowKind)

structure ResolvedUpgradeOptions where
  validation : ValidationOptions (List UnsafeAllowKind)
  constructorArgs : List OptionValue
  redeployImplementation : RedeployMode
  timeout : Nat
  pollingInterval : Nat
  kind : Option ProxyKind
  initializer : Option Initializer
  call : Option CallOption
  initialOwner : Option String
  unsafeSkipProxyAdminCheck : Bool

namespace pluginOptionDefaults

def timeout : Nat := 60000
def pollingInterval : Nat := 5000
def redeployImplementation : RedeployMode := .onchange
def unsafeSkipProxyAdminCheck : Bool := false

end pluginOptionDefaults

def defaultConstructorArgs : List OptionValue := []

section
variable (withValidationDefaults : EngineDefaults) (supplied : SuppliedOptions)

/-- The deprecated flag counts where the mode itself is not given. -/
def resolveRedeployMode : Except OptionsError RedeployMode := do
  match ← readRedeployMode supplied with
  | some explicit => return explicit
  | none =>
    let deprecated ← readBooleanOption supplied "useDeployedImplementation"
    return if deprecated = some true then .never else pluginOptionDefaults.redeployImplementation

def validationInput : Except OptionsError ValidationInput := do
  let kind ← readProxyKind supplied
  let unsafeAllow ← readUnsafeAllow supplied
  let unsafeAllowCustomTypes ← readBooleanOption supplied "unsafeAllowCustomTypes"
  let unsafeAllowLinkedLibraries ← readBooleanOption supplied "unsafeAllowLinkedLibraries"
  let unsafeAllowRenames ← readBooleanOption supplied "unsafeAllowRenames"
  let unsafeSkipStorageCheck ← readBooleanOption supplied "unsafeSkipStorageCheck"
  return { kind, unsafeAllow, unsafeAllowCustomTypes, unsafeAllowLinkedLibraries
           unsafeAllowRenames, unsafeSkipStorageCheck }

def buildResolved : Except OptionsError ResolvedUpgradeOptions := do
  let validation := withValidationDefaults (← validationInput supplied)
  let constructorArgs ← readConstructorArgs supplied
  let timeout ← readMilliseconds supplied "timeout"
  let pollingInterval ← readMilliseconds supplied "pollingInterval"
  return {
    validation
    constructorArgs := constructorArgs.getD defaultConstructorArgs
    redeployImplementation := ← resolveRedeployMode supplied
    timeout := timeout.getD pluginOptionDefaults.timeout
    pollingInterval := pollingInterval.getD pluginOptionDefaults.pollingInterval
    kind := ← readProxyKind supplied
    initializer := ← readInitializerOption supplied
    call := ← readCallOption supplied
    initialOwner := ← readInitialOwner supplied
    unsafeSkipProxyAdminCheck :=
      (← readBooleanOption supplied "unsafeSkipProxyAdminCheck").getD
        pluginOptionDefaults.unsafeSkipProxyAdminCheck }

def resolveUpgradeOptions (accepted : List String) :
    Except OptionsError ResolvedUpgradeOptions := do
  checkSteps.forM fun step => step.check supplied accepted
  buildResolved withValidationDefaults supplied

end

end TronUpgrades.Options
