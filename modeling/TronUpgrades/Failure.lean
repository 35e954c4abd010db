import TronUpgrades.Address
import TronUpgrades.Chain.Instance
import TronUpgrades.Record.Sidecar

/-!
# Everything an operation throws

One constructor for each error class of the package, with the fields the class
carries, and one for what the host, the engine or a node throws. The prose of
a message is left out.
-/

namespace TronUpgrades

open Chain Record

/-- What is looked at of a thrown value that is not one of the package's own. -/
structure Thrown where
  message : String
  /-- `error.code`; contention on the record's lock is `ELOCKED`. -/
  code : Option String := none
  /-- `error.removed === true` -/
  removed : Bool := false
  /-- `error instanceof SyntaxError` -/
  syntaxError : Bool := false
  deriving DecidableEq, Repr

inductive ProxyKind
  | transparent | uups | beacon
  deriving DecidableEq, Repr

inductive RecordLocationCause
  | anchorNotAbsolute | configuredValueRelative | resolvedOutsideAnchor | setTooLate
  deriving DecidableEq, Repr

inductive RecordUnreadableCause
  | notJson | contentsRefused
  deriving DecidableEq, Repr

inductive FingerprintRefusalDiagnosis
  | proxiesLive | proxiesAbsent | noProxies | indeterminate
  deriving DecidableEq, Repr

inductive ConfirmationCause
  | waitExhausted | receiptFieldAbsent
  deriving DecidableEq, Repr

structure ConfirmedReverted where
  transactionHash : String
  vmResult : String
  vmMessage : Option String
  deriving DecidableEq, Repr

structure ConfirmationIndeterminate where
  transactionHash : String
  because : ConfirmationCause
  waitedMs : Option Nat
  deriving DecidableEq, Repr

/-- A deployment an error reports as already spent. -/
structure SpentDeployment where
  address : String
  transactionHash : String
  deriving DecidableEq, Repr

inductive StaleProxyCause
  | noCodeAtAddress | unrecorded | noVerdict
  deriving DecidableEq, Repr

inductive EmptyInitializerCause
  | initializerFalse | noDefaultInitializer
  deriving DecidableEq, Repr

inductive Subject
  | proxy | admin
  deriving DecidableEq, Repr

inductive Failure
  | foreign (thrown : Thrown)
  /-- A bare `Error` of the package. -/
  | error (message : String)
  -- record
  | recordLocationUnusable (because : RecordLocationCause) (intendedDir resolvedFile : String)
      (configuredValue : Option String)
  | addressNotCanonicalizable (received : String) (because : AddressRejectionCause)
  | recordFingerprintUnreadable (file : String) (because : FingerprintUnreadableCause)
      (diagnosis : FingerprintRefusalDiagnosis)
  | recordUnreadable (file : String) (because : RecordUnreadableCause) (detail : String)
  | recordLocked (file detail : String)
  -- chain
  | chainResultShape (method expected observed : String)
  | chainInstanceChanged (comparison : ChainInstanceChange) (manifestFile : String)
      (recordCount : Nat) (endpoint sidecarFile : String)
  -- deploy
  | nestedOperation (operation : String)
  | deployerAbsent (missingHandle : String)
  | transactionReverted (verdict : ConfirmedReverted)
  | confirmationIndeterminate (verdict : ConfirmationIndeterminate)
      (spent : Option SpentDeployment)
  | senderMismatch (preflighted signed : String) (spent : Option SpentDeployment)
  | linkedImplementationRefused (libraries : List String)
  | linkVerificationFailed (placeholders : List String)
  | staleTransactionIdentity (transactionHash : String)
  | cheatcodeSlotCollision (isNull : Bool)
  -- environment
  | artifactNameAmbiguous (contractName : String) (sourcePaths : List String)
  | validationInputRefused (cause diagnosis : String)
  -- options and results
  | optionValue (option received : String) (accepted : List String) (operation : Option String)
  | transactionHashUnavailable (operation : String)
  | unavailableMemberAbsent (member : String)
  -- proxy
  | unknownProxyGeneration (subject : Subject) (reportedVersion : String)
  | proxyArtifactMissing (artifactName : String)
  | proxyArtifactCollision (artifactName : String) (candidatePaths : List String)
  | beaconProxyRefused (proxyAddress beaconAddress : String)
  | notTransparentProxy (proxyAddress : String)
  | upgradeVerificationFailed (target expected observed transactionHash : String)
  | emptyInitializerRefused (kind : String) (because : EmptyInitializerCause)
  | staleProxyRecord (proxyAddress : String) (because : StaleProxyCause)
  | implementationNotPreviouslyDeployed (contractName : String)
  | initialOwnerUnsupportedKind (kind : String)
  | beaconInitialOwnerRequired
  | transparentInitialOwnerRequired
  | proxyAdminAsOwner (ownerAddress : String)
  | optionsInArgsPosition (operation receivedType : String) (looksLikeOptions : Bool)
  | proxyRecordWriteFailed (proxyAddress transactionHash : String) (cause : Failure)
  -- adopt
  | nothingToAdopt (address found : String)
  | adoptionVerificationFailed (address because : String)
  | adoptionKindMismatch (address foundKind expectedKind : String)
  -- admin
  | authorityAlreadyTransferred (proxyAddress currentHolder requestedOwner : String)
  | authorityVerificationFailed (proxyAddress expected observed : String)

/-- `error.code === 'ELOCKED'`; no class of the package carries that code. -/
def Failure.isLockContention : Failure → Bool
  | .foreign thrown => thrown.code == some "ELOCKED"
  | _ => false

/-- `error.removed === true` -/
def Failure.isRemoved : Failure → Bool
  | .foreign thrown => thrown.removed
  | _ => false

def Failure.isSyntaxError : Failure → Bool
  | .foreign thrown => thrown.syntaxError
  | _ => false

/-- `error.message` of a value that is not the package's own, else the class. -/
def Failure.detailOf : Failure → String
  | .foreign thrown => thrown.message
  | .error message => message
  | _ => ""

/-- The refusing mint, and the lookups that only need a comparison. -/
def Address.canonicalizeAddress (codec : AddressCodec) (input : String) :
    Except Failure String :=
  (mintFrom codec input).mapError (.addressNotCanonicalizable input)

end TronUpgrades
