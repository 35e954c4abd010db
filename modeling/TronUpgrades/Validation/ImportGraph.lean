import TronUpgrades.Failure
import TronUpgrades.Keyed.OrderedMap
import TronUpgrades.Posix.Path

/-!
# The import graph

The plugin's own walk over the sources on disk: how a source is addressed and
keyed, which imports a text has, and the closure of a target under them.
`resolveSourceGraph` takes the number of sources it may look at; out of it, it
has no answer.
-/

namespace TronUpgrades.Validation

open Keyed Posix

-- ---------------------------------------------------------------------------
-- Source keys
-- ---------------------------------------------------------------------------

/-- `key.replace(/\\/g, '/')` -/
def forwardSlashes (key : Path) : Path := key.map fun c => if c = '\\' then slash else c

/-- The two directories that addresses are resolved against. -/
structure ProjectPaths where
  contractsDirectory : Path
  root : Path
  /-- The process's own directory, for a path that is not absolute. -/
  cwd : Path

/-- A path outside the contracts directory has no key. -/
def sourceKey (source : Path) (paths : ProjectPaths) : Option Path :=
  if isAbsolute source then
    let key := relative paths.cwd paths.contractsDirectory source
    if ['.', '.'].isPrefixOf key then none else some (forwardSlashes key)
  else some (forwardSlashes source)

def isExplicitlyRelative (specifier : Path) : Bool := specifier.head? == some '.'

def resolveFileSystemImport (paths : ProjectPaths) (importerPath specifier : Path) : Path :=
  resolve paths.cwd [join [dirname importerPath, specifier]]

def resolveModuleImport (importerSpecifier specifier : Path) : Path :=
  forwardSlashes (join [dirname importerSpecifier, specifier])

def modulePathOnDisk (paths : ProjectPaths) (specifier : Path) : Path :=
  join [paths.root, "node_modules".toList, specifier]

def isSeparator (c : Char) : Bool := c = slash || c = '\\'

/-- Absolute paths and `..` segments are traversal; a package's file is named
below the package, and below its scope. -/
def isValidModuleSpecifier (specifier : Path) : Bool :=
  if isAbsolute specifier || (specifier.splitOnP isSeparator).contains ['.', '.'] then false
  else if specifier.head? == some '@' then specifier.count slash ≥ 2
  else specifier.contains slash

def absoluteSourcePath (sourcePath : Path) (paths : ProjectPaths) : Path :=
  if isAbsolute sourcePath then sourcePath else resolve paths.cwd [paths.root, sourcePath]

-- ---------------------------------------------------------------------------
-- Imports of a text
-- ---------------------------------------------------------------------------

def apostrophe : Char := Char.ofNat 39

inductive Stripping
  | code | lineComment | blockComment
  | literal (quote : Char)

/-- Comments removed, string literals left alone; a block comment leaves its
line breaks. -/
def stripFrom : Stripping → List Char → List Char
  | .code, '/' :: '/' :: source => stripFrom .lineComment source
  | .code, '/' :: '*' :: source => stripFrom .blockComment source
  | .code, c :: source =>
    c :: stripFrom (if c = '"' ∨ c = apostrophe then .literal c else .code) source
  | .lineComment, c :: source =>
    if c = '\n' then c :: stripFrom .code source else stripFrom .lineComment source
  | .blockComment, '*' :: '/' :: source => stripFrom .code source
  | .blockComment, c :: source =>
    if c = '\n' then c :: stripFrom .blockComment source else stripFrom .blockComment source
  | .literal quote, '\\' :: c :: source => '\\' :: c :: stripFrom (.literal quote) source
  | .literal quote, c :: source =>
    c :: stripFrom (if c = quote then .code else .literal quote) source
  | _, [] => []

def stripComments (source : List Char) : List Char := stripFrom .code source

/-- `\w` -/
def isWordCharacter (c : Char) : Bool :=
  Text.isDigit c || ('a' ≤ c && c ≤ 'z') || ('A' ≤ c && c ≤ 'Z') || c == '_'

/-- The keyword `import` with a word boundary after it. -/
def startsImport (source : List Char) : Bool :=
  "import".toList.isPrefixOf source && !((source.drop 6).head?.any isWordCharacter)

inductive Scanning
  /-- Whether the character before was a word's. -/
  | seeking (inWord : Bool)
  /-- So many characters of the keyword still to come. -/
  | keyword (rest : Nat)
  | body (reversed : List Char)

/-- `/\bimport\b([^;]*);/g`: what stands between each keyword and its
semicolon. -/
def importStatements : Scanning → List Char → List (List Char)
  | _, [] => []
  | .seeking inWord, c :: source =>
    if !inWord && startsImport (c :: source) && source.contains ';' then
      importStatements (.keyword 5) source
    else importStatements (.seeking (isWordCharacter c)) source
  | .keyword rest, c :: source =>
    match rest with
    | rest + 1 => importStatements (if rest = 0 then .body [] else .keyword rest) source
    | 0 => importStatements (.body [c]) source
  | .body reversed, c :: source =>
    if c = ';' then reversed.reverse :: importStatements (.seeking false) source
    else importStatements (.body (c :: reversed)) source

/-- `/"([^"]*)"|'([^']*)'/`: a quote that is never closed opens no literal. -/
def firstStringLiteral : List Char → Option (List Char)
  | [] => none
  | c :: source =>
    if (c = '"' ∨ c = apostrophe) ∧ c ∈ source then some (source.takeWhile (· ≠ c))
    else firstStringLiteral source

/-- Every path a source imports, in source order. -/
def extractImports (source : List Char) : List Path :=
  ((importStatements (.seeking false) (stripComments source)).filterMap firstStringLiteral).filter
    (· ≠ [])

example : extractImports "import './A.sol'; // import './B.sol';\nimport {C} from 'p/C.sol';".toList =
    ["./A.sol".toList, "p/C.sol".toList] := by decide

-- ---------------------------------------------------------------------------
-- The walk
-- ---------------------------------------------------------------------------

/-- A project file is addressed by its path, an npm import by its specifier. -/
inductive SourceRef
  | file (absolutePath : Path)
  | module (specifier : Path)
  deriving DecidableEq, Repr

structure ImportSite where
  by_ : Path
  specifier : Path
  deriving DecidableEq, Repr

/-- The target is imported from nowhere. -/
structure PendingRef where
  ref : SourceRef
  importedFrom : Option ImportSite
  deriving DecidableEq, Repr

inductive SourceUnreadable
  | missing | unreadable
  deriving DecidableEq, Repr

/-- The causes a walk refuses for. -/
inductive SourceCause
  | sourceUnreadable (sourceKey path : Path) (because : SourceUnreadable)
  | importUnresolvable (importedBy specifier : Path)
  deriving DecidableEq, Repr

structure SourceGraphRequest where
  targetPath : Path
  targetLabel : Path
  paths : ProjectPaths
  readSource : Path → Except Thrown (List Char)
  exists_ : Path → Bool

def refAddress : SourceRef → Path
  | .file absolutePath => absolutePath
  | .module specifier => specifier

def refPath (paths : ProjectPaths) : SourceRef → Path
  | .file absolutePath => absolutePath
  | .module specifier => modulePathOnDisk paths specifier

def unresolvableImport (pending : PendingRef) (targetLabel : Path) : SourceCause :=
  match pending.importedFrom with
  | none => .importUnresolvable targetLabel (refAddress pending.ref)
  | some site => .importUnresolvable site.by_ site.specifier

/-- Where a specifier in a source leads. -/
def nextRef (paths : ProjectPaths) (current : SourceRef) (specifier : Path) : SourceRef :=
  if isExplicitlyRelative specifier then
    match current with
    | .file absolutePath => .file (resolveFileSystemImport paths absolutePath specifier)
    | .module importer => .module (resolveModuleImport importer specifier)
  else .module specifier

def acceptedRef (paths : ProjectPaths) (current : SourceRef) (key specifier : Path) :
    Except SourceCause PendingRef :=
  let next := nextRef paths current specifier
  let refused := .error (.importUnresolvable key specifier)
  if isAbsolute specifier then refused
  else match next with
    | .module module => if isValidModuleSpecifier module then .ok ⟨next, some ⟨key, specifier⟩⟩
      else refused
    | .file _ => .ok ⟨next, some ⟨key, specifier⟩⟩

/-- One source looked at: refused, seen before, or read, with what it imports. -/
inductive Visited
  | seen (key : Path)
  | read (key : Path) (content : List Char) (next : List PendingRef)

def visit (request : SourceGraphRequest) (sources : OrderedMap Path (List Char))
    (current : PendingRef) : Except SourceCause Visited :=
  match sourceKey (refAddress current.ref) request.paths with
  | none => .error (unresolvableImport current request.targetLabel)
  | some key =>
    if (sources.get? key).isSome then .ok (.seen key)
    else
      let diskPath := refPath request.paths current.ref
      if !request.exists_ diskPath then
        match current.importedFrom with
        | none => .error (.sourceUnreadable key diskPath .missing)
        | some _ => .error (unresolvableImport current request.targetLabel)
      else match request.readSource diskPath with
        | .error _ => .error (.sourceUnreadable key diskPath .unreadable)
        | .ok content => do
          let next ← (extractImports content).mapM (acceptedRef request.paths current.ref key)
          return .read key content next

structure SourceGraph where
  targetKey : Path
  /-- In the order of discovery. -/
  sources : OrderedMap Path (List Char)

def walk (request : SourceGraphRequest) :
    Nat → List PendingRef → OrderedMap Path (List Char) → Option Path →
      Option (Except SourceCause SourceGraph)
  | _, [], sources, some targetKey => some (.ok { targetKey, sources })
  | _, [], _, none => some (.error (.importUnresolvable request.targetLabel request.targetPath))
  | 0, _ :: _, _, _ => none
  | fuel + 1, current :: pending, sources, targetKey =>
    match visit request sources current with
    | .error cause => some (.error cause)
    | .ok (.seen key) => walk request fuel pending sources (some (targetKey.getD key))
    | .ok (.read key content next) =>
      walk request fuel (pending ++ next) (sources.upsert key fun _ => content)
        (some (targetKey.getD key))

/-- The target's closure under imports, or a refusal. -/
def resolveSourceGraph (request : SourceGraphRequest) (fuel : Nat) :
    Option (Except SourceCause SourceGraph) :=
  walk request fuel [⟨.file request.targetPath, none⟩] .empty none

end TronUpgrades.Validation
