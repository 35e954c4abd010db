import TronUpgrades.Tronbox.Engine

/-!
# The deployment seam

The pure gates of a deployment: unresolved library placeholders, the host's
trailing-argument slot, a transaction hash that predates the run, the sender
that signed.
-/

namespace TronUpgrades.Tronbox

open Text Address

-- ---------------------------------------------------------------------------
-- Link placeholders
-- ---------------------------------------------------------------------------

/-- `startsWith('0x')`, lower case only. -/
def stripLowerHexPrefix : List Char → List Char
  | '0' :: 'x' :: rest => rest
  | cs => cs

def hashedPlaceholderDigits : Nat := 34

/-- `__$`, 34 hex digits, `$__` at the head: the hash, and the text after. -/
def hashedPlaceholder? : List Char → Option (List Char × List Char)
  | '_' :: '_' :: '$' :: rest =>
    let hash := rest.take hashedPlaceholderDigits
    match rest.drop hashedPlaceholderDigits with
    | '$' :: '_' :: '_' :: after =>
      if hash.length = hashedPlaceholderDigits && hash.all isHexDigit then some (hash, after)
      else none
    | _ => none
  | _ => none

/-- A letter, a digit, a dot, colon, slash or dash. -/
def isLegacyNameChar (c : Char) : Bool :=
  ('A' ≤ c && c ≤ 'Z') || ('a' ≤ c && c ≤ 'z') || isDigit c || c == '.' || c == ':' || c == '/' ||
    c == '-'

/-- Two underscores, a name, and any more underscores, at the head. -/
def legacyPlaceholder? : List Char → Option (List Char × List Char)
  | '_' :: '_' :: rest =>
    let name := rest.takeWhile isLegacyNameChar
    if name.isEmpty then none
    else some (name, (rest.dropWhile isLegacyNameChar).dropWhile (· == '_'))
  | _ => none

/-- Every hashed placeholder, left to right, and the text with each of them
blanked by as many zeros. `fuel` is the length of the text. -/
def scanHashed : Nat → List Char → List String × List Char
  | 0, cs => ([], cs)
  | _, [] => ([], [])
  | fuel + 1, c :: cs =>
    match hashedPlaceholder? (c :: cs) with
    | some (hash, after) =>
      let (names, text) := scanHashed fuel after
      (.ofList hash :: names, List.replicate (hash.length + 6) '0' ++ text)
    | none =>
      let (names, text) := scanHashed fuel cs
      (names, c :: text)

def scanLegacy : Nat → List Char → List String
  | 0, _ => []
  | _, [] => []
  | fuel + 1, c :: cs =>
    match legacyPlaceholder? (c :: cs) with
    | some (name, after) => .ofList name :: scanLegacy fuel after
    | none => scanLegacy fuel cs

/-- The linked libraries a bytecode names, each once, hashed ones first. -/
def linkedLibraryNames (unlinkedBytecode : String) : List String :=
  let text := stripLowerHexPrefix unlinkedBytecode.toList
  let (hashed, withoutHashed) := scanHashed text.length text
  (hashed ++ scanLegacy withoutHashed.length withoutHashed).eraseDups

def refuseUnlessLinkingAllowed (libraries : List String) (allowedByExpertOptOut : Bool) :
    Except Failure Unit :=
  if libraries.length > 0 && !allowedByExpertOptOut then
    .error (.linkedImplementationRefused libraries)
  else .ok ()

def assertFullyLinked (deployableBytecode : String) : Except Failure Unit :=
  let remaining := linkedLibraryNames deployableBytecode
  if remaining.length > 0 then .error (.linkVerificationFailed remaining)
  else if (stripLowerHexPrefix deployableBytecode.toList).contains '_' then
    .error (.linkVerificationFailed ["<unrecognized placeholder form>"])
  else .ok ()

-- ---------------------------------------------------------------------------
-- Arguments, transactions, senders
-- ---------------------------------------------------------------------------

/-- The host pops a trailing non-array object off the constructor call. -/
def assertNoCheatcodeCollision (args : List Json) : Except Failure Unit :=
  match args.getLast? with
  | some .null => .error (.cheatcodeSlotCollision true)
  | some (.obj _) => .error (.cheatcodeSlotCollision false)
  | _ => .ok ()

def assertFreshTransaction (before : Option String) (after : WriteBack) : Except Failure Unit :=
  match before with
  | some hash =>
    if hash = after.transactionHash then .error (.staleTransactionIdentity hash) else .ok ()
  | none => .ok ()

section
variable (codec : AddressCodec)

def resolveEffectiveSender (configured : Option String) : Except Failure EffectiveSender :=
  match configured with
  | none => .ok .unconfigured
  | some address => (canonicalizeAddress codec address).map .resolved

def assertSignerMatches (sender : EffectiveSender) (signedBy : String)
    (spent : Option SpentDeployment) : Except Failure String := do
  let signer ← canonicalizeAddress codec signedBy
  match sender with
  | .resolved address =>
    let expected ← canonicalizeAddress codec address
    if signer ≠ expected then throw (.senderMismatch expected signer spent)
    return signer
  | .unconfigured => return signer

/-- Two spellings of one address. -/
def isAlreadyCurrent (liveImplementation targetImplementation : String) : Except Failure Bool := do
  let live ← canonicalizeAddress codec liveImplementation
  let target ← canonicalizeAddress codec targetImplementation
  return live == target

end

end TronUpgrades.Tronbox
