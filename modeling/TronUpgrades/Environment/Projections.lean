import TronUpgrades.Environment.Lineage
import TronUpgrades.Posix.Path

/-!
# What is read off a Config

The three groups of fields that a resolution projects from each lineage, every
one compared between them, and the slots built from what they agree on.
-/

namespace TronUpgrades.Environment

variable (host : Host)

-- ---------------------------------------------------------------------------
-- Paths
-- ---------------------------------------------------------------------------

abbrev AbsolutePath := { path : String // Posix.isAbsolute path.toList = true }

def assertAbsolutePath (value : HostValue) (field : String) : Projection AbsolutePath :=
  match value with
  | .string path =>
    if h : Posix.isAbsolute path.toList = true then .ok ⟨path, h⟩
    else failInvariant ("\"" ++ field ++ "\" must be absolute; TronBox reported the relative value " ++
      "\"" ++ path ++ "\". The seam refuses a relative project anchor rather than " ++
      "resolving it against an ambient working directory.")
  | _ => failInvariant ("\"" ++ field ++ "\" must be an absolute path string, and is of type " ++
      (if value = .null then "null" else value.typeOf host) ++ ".")

def isContainedIn (root candidate : AbsolutePath) : Bool :=
  let relative := Posix.relative [] root.1.toList candidate.1.toList
  relative = [] ||
    (relative ≠ ['.', '.'] && !"../".toList.isPrefixOf relative && !Posix.isAbsolute relative)

structure PathScalarValues where
  workingDirectory : AbsolutePath
  contractsDirectory : AbsolutePath
  contractsBuildDirectory : AbsolutePath
  buildInfoDirectory : AbsolutePath

def PathScalarValues.value (values : PathScalarValues) : ConfigScalarField → HostValue
  | .workingDirectory => .string values.workingDirectory
  | .contractsDirectory => .string values.contractsDirectory
  | .contractsBuildDirectory => .string values.contractsBuildDirectory
  | .buildInfoDirectory => .string values.buildInfoDirectory
  | _ => .undefined

def projectPathValues (lineage : ConfigLineage) : Projection PathScalarValues := do
  let path field := do
    assertAbsolutePath host (← readLineageProperty host lineage field) field
  let workingDirectory ← path "working_directory"
  let contractsDirectory ← path "contracts_directory"
  let contractsBuildDirectory ← path "contracts_build_directory"
  let buildInfoDirectory ← path "build_info_directory"
  if isContainedIn workingDirectory buildInfoDirectory then
    return ⟨workingDirectory, contractsDirectory, contractsBuildDirectory, buildInfoDirectory⟩
  else failInvariant ("\"build_info_directory\" (" ++ buildInfoDirectory.1 ++ ") is outside " ++
    "the project root (" ++ workingDirectory.1 ++ "). TronBox only " ++
    "permits \"contracts_build_directory\" to escape the project.")

structure ProjectPaths where
  root : AbsolutePath
  contractsDirectory : AbsolutePath
  contractsBuildDirectory : AbsolutePath
  buildInfoDirectory : AbsolutePath
  contractsBuildDirectoryIsExternal : Bool

def buildProjectPaths (values : PathScalarValues) : ProjectPaths where
  root := values.workingDirectory
  contractsDirectory := values.contractsDirectory
  contractsBuildDirectory := values.contractsBuildDirectory
  buildInfoDirectory := values.buildInfoDirectory
  contractsBuildDirectoryIsExternal :=
    !isContainedIn values.workingDirectory values.contractsBuildDirectory

-- ---------------------------------------------------------------------------
-- The network
-- ---------------------------------------------------------------------------

structure NetworkScalarValues where
  network : String
  networkId : String
  configuredNetworkId : String
  «from» : Option String
  feeLimit : Option String
  userFeePercentage : Option String
  originEnergyLimit : Option String
  callValue : Option String
  tokenValue : Option String
  tokenId : Option String
  signingKeyConfigured : Bool

def NetworkScalarValues.value (values : NetworkScalarValues) : ConfigScalarField → HostValue
  | .network => .string values.network
  | .networkId => .string values.networkId
  | .configuredNetworkId => .string values.configuredNetworkId
  | .from => values.from.elim .null .string
  | .feeLimit => values.feeLimit.elim .null .number
  | .userFeePercentage => values.userFeePercentage.elim .null .number
  | .originEnergyLimit => values.originEnergyLimit.elim .null .number
  | .callValue => values.callValue.elim .null .number
  | .tokenValue => values.tokenValue.elim .null .number
  | .tokenId => values.tokenId.elim .null .number
  | .signingKeyConfigured => .boolean values.signingKeyConfigured
  | _ => .undefined

/-- The network's entry. The keys of `networks` are listed for the refusal alone,
and without a guard. -/
def assertSelectedNetworkIsConfigured (lineage : ConfigLineage) (name : String) :
    Projection HostValue :=
  match readOwnProperty host lineage.config "networks" with
  | .error reason => failMalformed lineage (lineage.pathPrefix ++ ".networks") reason
  | .ok (.object networks) =>
    match readOwnProperty host (.object networks) name with
    | .ok (.object entry) => .ok (.object entry)
    | _ =>
      match (host.object networks).keys with
      | .error raised => .error (.raised raised)
      | .ok configured => failInvariant ("the selected network \"" ++ name ++
          "\" has no entry in \"networks\". Configured networks: " ++
          (if configured = [] then "none" else String.intercalate ", " configured) ++ ". " ++
          "TronBox's own getters would report a complete but fictional " ++
          "configuration for this network rather than failing.")
  | .ok _ => failInvariant ("Config field \"networks\" must be an object mapping network names to " ++
      "their configuration.")

def failMissingNetworkId {α : Type} (name : String) : Projection α :=
  failInvariant ("the selected network \"" ++ name ++ "\" is configured without a " ++
    "\"network_id\". TronBox requires one — its own `Test.run` gate " ++
    "rejects a missing `network_id` — and the value keys the `networks` " ++
    "map of every saved artifact.")

def normalizeNetworkId (value : HostValue) (field name : String) : Projection String :=
  match value with
  | .number text => if value.truthy then .ok text else failMissingNetworkId name
  | _ => requireString host value field

/-- Whether a key is there, never the key. -/
def signingKeyOf (lineage : ConfigLineage) (entry : HostValue) (path : String) : Projection Bool :=
  match readOwnProperty host entry "privateKey" with
  | .error .threw => failMalformed lineage path .threw
  | .error .missing => .ok false
  | .ok (.string key) => .ok (key ≠ "")
  | .ok _ => .ok false

def projectNetworkValues (lineage : ConfigLineage) : Projection NetworkScalarValues := do
  let rawName ← readLineageProperty host lineage "network"
  if rawName.isNullish then
    failInvariant ("no network is selected. TronBox reports the selected network through " ++
      "a truthiness-guarded getter, so a `network` configured as an empty " ++
      "string reads back as absent — check the `network` key in your " ++
      "TronBox config and the `--network` argument.")
  else
    let name ← requireNonEmptyString host rawName "network"
    let entry ← assertSelectedNetworkIsConfigured host lineage name
    let entryPath := lineage.pathPrefix ++ ".networks." ++ name
    match readOwnProperty host entry "network_id" with
    | .error _ => failMissingNetworkId name
    | .ok configuredId =>
      let configuredNetworkId ←
        normalizeNetworkId host configuredId ("networks." ++ name ++ ".network_id") name
      let signingKeyConfigured ← signingKeyOf host lineage entry (entryPath ++ ".privateKey")
      let networkId ←
        normalizeNetworkId host (← readLineageProperty host lineage "network_id") "network_id" name
      let number field := do
        nullableNumber host (← readLineageProperty host lineage field) field
      let sender ← nullableString host (← readLineageProperty host lineage "from") "from"
      let feeLimit ← number "feeLimit"
      let userFeePercentage ← number "userFeePercentage"
      let originEnergyLimit ← number "originEnergyLimit"
      let callValue ← number "callValue"
      let tokenValue ← number "tokenValue"
      let tokenId ← number "tokenId"
      return { network := name, networkId, configuredNetworkId, «from» := sender, feeLimit
               userFeePercentage, originEnergyLimit, callValue, tokenValue, tokenId
               signingKeyConfigured }

inductive NetworkIdSyntax
  | exact | wildcard
  deriving DecidableEq, Repr

structure NetworkEnvironment where
  name : String
  artifactNetworkId : String
  configuredId : String × NetworkIdSyntax
  feeLimit : Option String
  userFeePercentage : Option String
  originEnergyLimit : Option String
  callValue : Option String
  tokenValue : Option String
  tokenId : Option String
  /-- Configured, and not authoritative. -/
  sender : Option String
  signingKeyConfigured : Bool

def buildNetworkEnvironment (values : NetworkScalarValues) : NetworkEnvironment where
  name := values.network
  artifactNetworkId := values.networkId
  configuredId := (values.configuredNetworkId,
    if values.configuredNetworkId = "*" then .wildcard else .exact)
  feeLimit := values.feeLimit
  userFeePercentage := values.userFeePercentage
  originEnergyLimit := values.originEnergyLimit
  callValue := values.callValue
  tokenValue := values.tokenValue
  tokenId := values.tokenId
  sender := values.from
  signingKeyConfigured := values.signingKeyConfigured

-- ---------------------------------------------------------------------------
-- The compiler
-- ---------------------------------------------------------------------------

def hostDefaultSolcVersion : String := "0.8.26"

inductive LegacyFlag
  | useZeroFourCompiler | useZeroFiveCompiler
  deriving DecidableEq, Repr

def LegacyFlag.name : LegacyFlag → String
  | .useZeroFourCompiler => "useZeroFourCompiler"
  | .useZeroFiveCompiler => "useZeroFiveCompiler"

def LegacyFlag.version : LegacyFlag → String
  | .useZeroFourCompiler => "0.4.25"
  | .useZeroFiveCompiler => "0.5.4"

inductive CompilerFamily
  | tvm | evm
  deriving DecidableEq, Repr

def CompilerFamily.name : CompilerFamily → String
  | .tvm => "tvm"
  | .evm => "evm"

inductive CompilerSettingsSource
  | solc | compilersSolcSettings | none
  deriving DecidableEq, Repr

def CompilerSettingsSource.name : CompilerSettingsSource → String
  | .solc => "solc"
  | .compilersSolcSettings => "compilers.solc.settings"
  | .none => "none"

structure CompilerScalarValues where
  resolvedVersion : String
  family : CompilerFamily
  viaLegacyFlag : Option LegacyFlag
  versionIsHostDefault : Bool
  settingsSource : CompilerSettingsSource

def CompilerScalarValues.value (values : CompilerScalarValues) : ConfigScalarField → HostValue
  | .resolvedVersion => .string values.resolvedVersion
  | .family => .string values.family.name
  | .viaLegacyFlag => values.viaLegacyFlag.elim .null (.string ·.name)
  | .versionIsHostDefault => .boolean values.versionIsHostDefault
  | .settingsSource => .string values.settingsSource.name
  | _ => .undefined

/-- The host's optional chaining, over own properties. -/
def ownChainFrom (lineage : ConfigLineage) : List String → HostValue → String → Projection HostValue
  | [], current, _ => .ok current
  | hop :: hops, current, path =>
    let path := path ++ "." ++ hop
    if current.isObjectLike then
      match readOwnProperty host current hop with
      | .ok next => ownChainFrom lineage hops next path
      | .error .threw => failMalformed lineage path .threw
      | .error .missing => .ok .undefined
    else .ok .undefined

def ownChain (lineage : ConfigLineage) (hops : List String) : Projection HostValue :=
  ownChainFrom host lineage hops lineage.config lineage.pathPrefix

def ownKeyCount (lineage : ConfigLineage) (value : HostValue) (path : String) : Projection Nat :=
  match value with
  | .object id =>
    match (host.object id).keys with
    | .ok keys => .ok keys.length
    | .error _ => failMalformed lineage path .threw
  | _ => .ok 0

def settingsSourceOf (lineage : ConfigLineage) : Projection CompilerSettingsSource := do
  let solc ← readLineageProperty host lineage "solc"
  if solc.isNullish then
    failInvariant ("Config field \"solc\" is absent. TronBox refuses to compile a project " ++
      "whose \"solc\" is nullish — `expect.options` reports \"Expected " ++
      "parameter 'solc' not passed to function.\" — and a `solc` configured " ++
      "as any falsy value reads back this way, because the Config getter is " ++
      "truthiness-guarded.")
  else
    let solc ← requireObjectLike host solc "solc" "an object of solc settings"
    if 0 < (← ownKeyCount host lineage solc (lineage.pathPrefix ++ ".solc")) then return .solc
    else
      let nested ← ownChain host lineage ["compilers", "solc", "settings"]
      return if nested.truthy then .compilersSolcSettings else .none

/-- The source's name, the version and the flag that decided it. -/
abbrev VersionChoice := String × HostValue × Option LegacyFlag

def hostDefaultVersion : VersionChoice := ("host default", .string hostDefaultSolcVersion, none)

/-- The first legacy flag that is set. -/
def legacyVersion (lineage : ConfigLineage) (networks : HostValue) (networksPath : String) :
    List LegacyFlag → Projection VersionChoice
  | [] => .ok hostDefaultVersion
  | flag :: flags => do
    if (← ownChainFrom host lineage [flag.name] networks networksPath).truthy then
      return (flag.name, .string flag.version, some flag)
    else legacyVersion lineage networks networksPath flags

def versionOf (lineage : ConfigLineage) (networks : HostValue) : Projection VersionChoice :=
  let networksPath := lineage.pathPrefix ++ ".networks"
  if networks.truthy then do
    let legacy ← legacyVersion host lineage networks networksPath
      [.useZeroFourCompiler, .useZeroFiveCompiler]
    let networkVersion ← ownChainFrom host lineage ["compilers", "solc", "version"] networks
      networksPath
    let globalVersion ← ownChain host lineage ["compilers", "solc", "version"]
    return if globalVersion.truthy then ("compilers.solc.version", globalVersion, none)
      else if networkVersion.truthy then ("networks.compilers.solc.version", networkVersion, none)
      else legacy
  else .ok hostDefaultVersion

def projectCompilerValues (lineage : ConfigLineage) : Projection CompilerScalarValues := do
  let family := if (← ownChain host lineage ["evm"]).truthy then .evm else .tvm
  let networks ← readLineageProperty host lineage "networks"
  let (source, rawVersion, viaLegacyFlag) ← versionOf host lineage networks
  let resolvedVersion ← requireString host rawVersion source
  let settingsSource ← settingsSourceOf host lineage
  return { resolvedVersion, family, viaLegacyFlag
           versionIsHostDefault := source = "host default", settingsSource }

/-- No settings, or a deep copy of an object. -/
inductive SettingsCopy
  | noSettings
  | copyOf (object : HostValue)
  deriving DecidableEq, Repr

inductive CompilerSettingsOutcome
  | resolved (settings : SettingsCopy)
  | failed (failure : ConfigReadFailure)
  | conflict

def copyOutSettings (value : HostValue) (field : String) : Projection SettingsCopy :=
  match value with
  | .object id =>
    match (host.object id).clone with
    | .ok () => .ok (.copyOf value)
    | .error _ => failInvariant ("Config field \"" ++ field ++ "\" could not be copied out of the TronBox " ++
        "config: it holds a value that is not structured-cloneable, such as a " ++
        "function or a symbol. TronBox serializes these settings with " ++
        "`JSON.stringify`, which would silently drop such a value, so the " ++
        "plugin cannot reproduce the compilation faithfully.")
  | _ => .ok (.copyOf value)

def ConfigLineages.present (lineages : ConfigLineages) : List ConfigLineage :=
  lineages.viaDeployer.lineage?.toList ++ lineages.viaArtifacts.lineage?.toList

def agreedSettings (lineages : ConfigLineages) (source : CompilerSettingsSource)
    (hops : List String) : Projection CompilerSettingsOutcome := do
  let found ← lineages.present.mapM fun lineage => ownChain host lineage hops
  match found with
  | [first, second] =>
    if first = second then copyFirst first else return .conflict
  | first :: _ => copyFirst first
  | [] => copyFirst .undefined
where
  copyFirst (first : HostValue) : Projection CompilerSettingsOutcome := do
    let settings ← requireObjectLike host first source.name "an object of solc settings"
    return .resolved (← copyOutSettings host settings source.name)

def compareCompilerSettings (lineages : ConfigLineages) (source : CompilerSettingsSource) :
    Except HostValue CompilerSettingsOutcome := do
  match source with
  | .none => return .resolved .noSettings
  | _ =>
    let hops := if source = .solc then ["solc"] else ["compilers", "solc", "settings"]
    match ← caught (agreedSettings host lineages source hops) with
    | .ok outcome => return outcome
    | .error failure => return .failed failure

structure CompilerConfiguration where
  resolvedVersion : String
  settings : SettingsCopy
  family : CompilerFamily
  viaLegacyFlag : Option LegacyFlag
  versionIsHostDefault : Bool
  settingsSource : CompilerSettingsSource

def buildCompilerConfiguration (values : CompilerScalarValues) (settings : SettingsCopy) :
    CompilerConfiguration where
  resolvedVersion := values.resolvedVersion
  settings
  family := values.family
  viaLegacyFlag := values.viaLegacyFlag
  versionIsHostDefault := values.versionIsHostDefault
  settingsSource := values.settingsSource

end TronUpgrades.Environment
