import TronUpgrades.Effects.Interleave
import TronUpgrades.Failure

/-!
# The namespaced recompile and its cache

`getNamespacedOutput` of the Hardhat plugin: the second compilation of a
build-info, kept in memory and beside the build-info, and the severity that
each use applies to its outcome.
-/

namespace TronUpgrades.Hardhat

open Effects Record

inductive NamespacedCompileErrorsRule
  | error | warn | ignore
  deriving DecidableEq, Repr

/-- What these functions read of the runtime environment. -/
structure HardhatRuntimeEnvironment where
  /-- `config.paths.artifacts` -/
  artifacts : String
  namespacedCompileErrors : Option NamespacedCompileErrorsRule

structure BuildInfo where
  id : String
  solcVersion : String
  input : Json
  output : Json

/-- A rejection of this module, or of what it calls. -/
inductive NamespacedFailure
  | namespacedCompileError (buildInfoId message : String)
  | other (failure : Failure)

-- ---------------------------------------------------------------------------
-- Cache entries
-- ---------------------------------------------------------------------------

def cacheSchema : Int := 2

/-- The outcome of a recompile. An error line that solc's error does not carry
is `undefined`. -/
inductive NamespacedCacheEntry
  | output (output : Json)
  | unsupported
  | compileFailed (errorLines : List (Option Json))

/-- What `JSON.stringify` leaves of an entry: `undefined` in an array is `null`. -/
def NamespacedCacheEntry.stringified : NamespacedCacheEntry → Json
  | .output value =>
    .obj [("schema", .num cacheSchema), ("kind", .str "output"), ("output", value)]
  | .unsupported => .obj [("schema", .num cacheSchema), ("kind", .str "unsupported")]
  | .compileFailed errorLines =>
    .obj [("schema", .num cacheSchema), ("kind", .str "compile-failed"),
      ("errorLines", .arr (errorLines.map (·.getD .null)))]

def ofCacheSchema (fields : List (String × Json)) : Bool :=
  match Json.get? fields "schema" with
  | some (.num schema) => schema = cacheSchema
  | _ => false

/-- `isCacheEntry`, with the value it narrows. -/
def cacheEntryOf : Json → Option NamespacedCacheEntry
  | .obj fields =>
    if ofCacheSchema fields then
      match Json.get? fields "kind" with
      | some (.str "output") =>
        match Json.get? fields "output" with
        | none | some .null => none
        | some output => some (.output output)
      | some (.str "unsupported") => some .unsupported
      | some (.str "compile-failed") =>
        match Json.get? fields "errorLines" with
        | some (.arr errorLines) => some (.compileFailed (errorLines.map some))
        | _ => none
      | _ => none
    else none
  | _ => none

/-- `value?.key` of a value that may be anything. -/
def property (value : Json) (key : String) : Option Json :=
  match value with
  | .obj fields => Json.get? fields key
  | _ => none

/-- `value ?? fallback` -/
def orElse (value fallback : Option Json) : Option Json :=
  match value with
  | none | some .null => fallback
  | some value => some value

-- ---------------------------------------------------------------------------
-- Error texts
-- ---------------------------------------------------------------------------

mutual

/-- An element as `Array.prototype.join` writes it. -/
def joined : Json → String
  | .null => ""
  | .bool value => toString value
  | .num value => toString value
  | .str value => value
  | .arr items => String.intercalate "," (joinedAll items)
  | .obj _ => "[object Object]"

def joinedAll : List Json → List String
  | [] => []
  | item :: items => joined item :: joinedAll items

end

/-- `lines.join('\n')` -/
def joinLines (lines : List (Option Json)) : String :=
  String.intercalate "\n" (lines.map fun line => line.elim "" joined)

def compileFailedMessage (buildInfoId : String) (errorLines : List (Option Json)) : String :=
  "Failed to compile the modified contracts for namespaced storage-layout validation " ++
    "(build-info " ++ buildInfoId ++ ")." ++
    (if errorLines.length ≠ 0 then "\n" ++ joinLines errorLines else "") ++
    "\n\nIf you do not anticipate advanced namespace modifications during upgrades, set " ++
    "tronUpgrades.namespacedCompileErrors: 'warn' or 'ignore' in your Hardhat config."

-- ---------------------------------------------------------------------------
-- Namespaces in a build-info
-- ---------------------------------------------------------------------------

theorem sizeOf_get? {fields : List (String × Json)} {key : String} {value : Json}
    (h : Json.get? fields key = some value) : sizeOf value < sizeOf fields := by
  obtain ⟨field, hfind, rfl⟩ := Option.map_eq_some_iff.mp h
  have hmem := List.mem_reverse.mp (List.mem_of_find?_eq_some hfind)
  have hsize := List.sizeOf_lt_of_mem hmem
  obtain ⟨key', value⟩ := field
  simp only [Prod.mk.sizeOf_spec] at hsize ⊢
  omega

/-- Whether the node or one below it carries the annotation. The text of a
documentation node is its own or its `text`'s. -/
def astHasStorageLocation (node : Json) : Bool :=
  match node with
  | .obj fields =>
    let documentation := (Json.get? fields "documentation").getD .null
    let text := match documentation with
      | .str text => some text
      | documentation => (property documentation "text").bind Json.str?
    (text.any fun text => Text.occursIn "@custom:storage-location".toList text.toList) ||
      match _h : Json.get? fields "nodes" with
      | some (.arr nodes) => nodes.attach.any fun child => astHasStorageLocation child.1
      | _ => false
  | _ => false
termination_by sizeOf node
decreasing_by
  have hnodes := sizeOf_get? _h
  have hchild := List.sizeOf_lt_of_mem child.2
  simp only [Json.arr.sizeOf_spec] at hnodes
  simp only [Json.obj.sizeOf_spec]
  omega

/-- `Object.values`, of a value that has own values worth a look. -/
def objectValues : Json → List Json
  | .obj fields => fields.map (·.2)
  | .arr items => items
  | _ => []

def buildInfoHasNamespaces (buildInfo : BuildInfo) : Bool :=
  let sources := ((property buildInfo.output "sources").map objectValues).getD []
  sources.any fun source => ((property source "ast").map astHasStorageLocation).getD false

-- ---------------------------------------------------------------------------
-- What the functions ask for
-- ---------------------------------------------------------------------------

/-- The engine's three functions on a compiler input. -/
structure NamespacedCore where
  isNamespaceSupported : String → Except Failure Bool
  makeNamespacedInput : Json → Json → String → Except Failure Json
  trySanitizeNatSpec : Json → String → Except Failure Json

/-- `build-info/<id>.namespaced.json` of an artifacts directory. -/
structure CachePath where
  artifacts : String
  id : String
  deriving DecidableEq, Repr

def diskCachePath (hre : HardhatRuntimeEnvironment) (buildInfoId : String) : CachePath :=
  ⟨hre.artifacts, buildInfoId⟩

inductive CacheOp
  | memoryGet (id : String)
  | memorySet (id : String) (entry : NamespacedCacheEntry)
  /-- `JSON.parse(fs.readFileSync(path, 'utf8'))` -/
  | readFile (path : CachePath)
  | mkdir (path : CachePath)
  | writeFile (path : CachePath) (contents : Json)
  /-- Hardhat's compiler tasks, run for the build-info. -/
  | compileNamespaced (id : String) (input : Json) (solcVersion : String)
  /-- The whole of `warnNamespacedFallback`, which nothing else of the process
  interrupts. -/
  | warnNamespacedFallback (id : String) (detailLines : List (Option Json))

@[reducible] def CacheOp.Reply : CacheOp → Type
  | .memoryGet _ => Option NamespacedCacheEntry
  | .readFile _ | .compileNamespaced _ _ _ => Json
  | .memorySet _ _ | .mkdir _ | .writeFile _ _ | .warnNamespacedFallback _ _ => Unit

@[reducible] def cacheEffects : Signature := ⟨CacheOp, CacheOp.Reply⟩

abbrev CacheTask := Script cacheEffects NamespacedFailure

namespace Namespaced

def ask (op : CacheOp) : CacheTask op.Reply := Script.perform (S := cacheEffects) op

def foreign {α : Type} (r : Except Failure α) : Except NamespacedFailure α := r.mapError .other

/-- `(output?.errors ?? []).filter(e => e.severity === 'error')` -/
def errorsOf (output : Json) : Except Failure (List Json) :=
  match orElse (property output "errors") (some (.arr [])) with
  | some (.arr errors) =>
    if errors.any (fun e => match e with | .null => true | _ => false) then
      .error (.foreign { message := "Cannot read properties of null (reading 'severity')" })
    else .ok (errors.filter fun e => match property e "severity" with
      | some (.str severity) => severity == "error"
      | _ => false)
  | _ => .error (.foreign { message := "(output?.errors ?? []).filter is not a function" })

def errorLine (e : Json) : Option Json :=
  orElse (property e "formattedMessage") (property e "message")

/-- The entry of a finished recompile. -/
def entryOfOutput (output : Json) : Except Failure NamespacedCacheEntry := do
  let errors ← errorsOf output
  return if errors.length ≠ 0 then .compileFailed (errors.map errorLine) else .output output

def computeNamespacedEntry (core : NamespacedCore) (buildInfo : BuildInfo) :
    CacheTask NamespacedCacheEntry := do
  let supported ← .ofExcept (foreign (core.isNamespaceSupported buildInfo.solcVersion))
  if !supported then return .unsupported
  else do
    let input ← .ofExcept (foreign
      (core.makeNamespacedInput buildInfo.input buildInfo.output buildInfo.solcVersion))
    let sanitized ← .ofExcept (foreign (core.trySanitizeNatSpec input buildInfo.solcVersion))
    let output ← ask (.compileNamespaced buildInfo.id sanitized buildInfo.solcVersion)
    .ofExcept (foreign (entryOfOutput output))

/-- The disk's entry, put into memory on the way. Anything else is a miss. -/
def entryOnDisk (hre : HardhatRuntimeEnvironment) (id : String) :
    CacheTask (Option NamespacedCacheEntry) :=
  tryCatch (do
    let parsed ← ask (.readFile (diskCachePath hre id))
    match cacheEntryOf parsed with
    | some entry => do
      ask (.memorySet id entry)
      return some entry
    | none => return none) fun _ => return none

def resolveNamespacedEntry (core : NamespacedCore) (hre : HardhatRuntimeEnvironment)
    (buildInfo : BuildInfo) : CacheTask NamespacedCacheEntry := do
  let cached ← ask (.memoryGet buildInfo.id)
  match cached with
  | some entry => return entry
  | none => do
    let onDisk ← entryOnDisk hre buildInfo.id
    match onDisk with
    | some entry => return entry
    | none => do
      let entry ← computeNamespacedEntry core buildInfo
      ask (.memorySet buildInfo.id entry)
      -- a failed write costs a recompile in the next process
      tryCatch (do
        ask (.mkdir (diskCachePath hre buildInfo.id))
        ask (.writeFile (diskCachePath hre buildInfo.id) entry.stringified)) fun _ => return ()
      return entry

def fallbackDetail : String :=
  "Failed to compile the modified contracts for namespaced storage-layout validation; " ++
    "falling back to AST-only checks for namespaced storage."

def reportNamespacedCompileFailure (hre : HardhatRuntimeEnvironment) (buildInfoId : String)
    (errorLines : List (Option Json)) : CacheTask Unit :=
  match hre.namespacedCompileErrors.getD .error with
  | .error => .throw
      (.namespacedCompileError buildInfoId (compileFailedMessage buildInfoId errorLines))
  | .warn => ask (.warnNamespacedFallback buildInfoId (some (.str fallbackDetail) :: errorLines))
  | .ignore => return ()

/-- The severity of an entry, decided where it is used. -/
def useEntry (hre : HardhatRuntimeEnvironment) (buildInfo : BuildInfo) :
    NamespacedCacheEntry → CacheTask (Option Json)
  | .output output => return some output
  | .unsupported => do
    .when (buildInfoHasNamespaces buildInfo) (ask (.warnNamespacedFallback buildInfo.id []))
    return none
  | .compileFailed errorLines => do
    reportNamespacedCompileFailure hre buildInfo.id errorLines
    return none

def getNamespacedOutput (core : NamespacedCore) (hre : HardhatRuntimeEnvironment)
    (buildInfo : BuildInfo) : CacheTask (Option Json) := do
  let entry ← resolveNamespacedEntry core hre buildInfo
  useEntry hre buildInfo entry

end Namespaced

end TronUpgrades.Hardhat
