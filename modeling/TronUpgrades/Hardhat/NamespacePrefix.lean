import TronUpgrades.Hardhat.StorageLocation
import TronUpgrades.Keyed.Classes

/-!
# Namespaces of one slot

`assertNoNamespaceSlotCollisions` of the Hardhat plugin: the scan of a target's
inheritance chain for two annotations that are different texts and one storage
slot, which the engine takes for two namespaces.
-/

namespace TronUpgrades.Hardhat.NamespacePrefix

open Keyed Regex
open Validation (isSpace)

-- ---------------------------------------------------------------------------
-- A build-info
-- ---------------------------------------------------------------------------

/-- `documentation`: a text, or an object that may have one. -/
inductive Documentation
  | text (text : String)
  | node (text : Option String)

structure MemberNode where
  nodeType : String
  name : String
  documentation : Option Documentation

structure AstNode where
  nodeType : String
  id : Int
  name : String
  linearizedBaseContracts : Option (List Int)
  nodes : Option (List MemberNode)

structure SourceAst where
  nodes : Option (List AstNode)

structure CompiledSource where
  ast : Option SourceAst

structure CompilerOutput where
  sources : Option (OrderedMap String CompiledSource)

/-- What this check reads of a build-info. -/
structure BuildInfo where
  output : Option CompilerOutput

-- ---------------------------------------------------------------------------
-- The check
-- ---------------------------------------------------------------------------

def slotEquivalentPrefixes : List String := ["erc7201:", "trc7201:"]

/-- `text.slice(start.length)`, where `text.startsWith(start)` -/
def sliceAfter (start text : String) : Option String :=
  if start.toList.isPrefixOf text.toList then some (.ofList (text.toList.drop start.length)) else none

def canonicalNamespaceId (storageLocation : String) : String :=
  match slotEquivalentPrefixes.findSome? (sliceAfter · storageLocation) with
  | some id => "erc7201:" ++ id
  | none => storageLocation

structure NamespaceDecl where
  storageLocation : String
  contractName : String
  structName : String
  deriving DecidableEq, Repr

def documentationText (node : MemberNode) : String :=
  match node.documentation with
  | some (.text text) => text
  | some (.node text) => text.getD ""
  | none => ""

def storageLocationOf (node : MemberNode) : Option String :=
  (storageLocation (documentationText node).toList).map .ofList

/-- The source and the contract of a name, at its last colon. `slice` counts the
-1 of a missing one from the end. -/
def splitFqName (fqName : String) : String × String :=
  let reversed := fqName.toList.reverse
  match reversed.dropWhile (· ≠ ':') with
  | [] => (.ofList fqName.toList.dropLast, fqName)
  | _ :: sourceName => (.ofList sourceName.reverse, .ofList (reversed.takeWhile (· ≠ ':')).reverse)

def sourceMap (buildInfo : BuildInfo) : OrderedMap String CompiledSource :=
  (buildInfo.output.bind (·.sources)).getD .empty

def sourceNodes (source : CompiledSource) : List AstNode := (source.ast.bind (·.nodes)).getD []

/-- The definitions under their ids, a later one in place of an earlier. -/
def definitionsById (buildInfo : BuildInfo) : OrderedMap Int AstNode :=
  (sourceMap buildInfo).entries.foldl (fun byId entry =>
    (sourceNodes entry.2).foldl (fun byId node =>
      if node.nodeType = "ContractDefinition" then byId.upsert node.id fun _ => node else byId) byId)
    .empty

def targetOf (buildInfo : BuildInfo) (fqName : String) : Option AstNode :=
  let (sourceName, contractName) := splitFqName fqName
  (((sourceMap buildInfo).get? sourceName).elim [] sourceNodes).find? fun node =>
    node.nodeType = "ContractDefinition" ∧ node.name = contractName

def linearizedContractDefs (buildInfo : BuildInfo) (fqName : String) : List AstNode :=
  match targetOf buildInfo fqName with
  | none => []
  | some target =>
    (target.linearizedBaseContracts.getD []).filterMap (definitionsById buildInfo).get?

/-- The two declarations that the error names. -/
abbrev SlotCollision := NamespaceDecl × NamespaceDecl

def SlotCollision.message (collision : SlotCollision) : String :=
  let (prev, decl) := collision
  "Namespaces '" ++ prev.storageLocation ++ "' (" ++ prev.contractName ++ "." ++ prev.structName ++
    ") and '" ++ decl.storageLocation ++ "' (" ++ decl.contractName ++ "." ++ decl.structName ++
    ") resolve to the same storage slot (the prefix is not part of the hash). Use a distinct " ++
    "namespace id."

abbrev ByCanonicalId := OrderedMap String NamespaceDecl

/-- Identical texts are the engine's own duplicate-namespace case. -/
def addDecl (byCanonicalId : ByCanonicalId) (decl : NamespaceDecl) :
    Except SlotCollision ByCanonicalId :=
  let id := canonicalNamespaceId decl.storageLocation
  match byCanonicalId.get? id with
  | none => .ok (byCanonicalId.upsert id fun _ => decl)
  | some prev =>
    if prev.storageLocation ≠ decl.storageLocation then .error (prev, decl) else .ok byCanonicalId

def namespaceDecl (contract : AstNode) (node : MemberNode) : Option NamespaceDecl :=
  if node.nodeType ≠ "StructDefinition" then none
  else (storageLocationOf node).map fun loc => ⟨loc, contract.name, node.name⟩

def addStruct (contract : AstNode) (byCanonicalId : ByCanonicalId) (node : MemberNode) :
    Except SlotCollision ByCanonicalId :=
  match namespaceDecl contract node with
  | none => .ok byCanonicalId
  | some decl => addDecl byCanonicalId decl

def addContract (byCanonicalId : ByCanonicalId) (contract : AstNode) :
    Except SlotCollision ByCanonicalId :=
  (contract.nodes.getD []).foldlM (addStruct contract) byCanonicalId

def assertNoNamespaceSlotCollisions (buildInfo : BuildInfo) (fqName : String) :
    Except SlotCollision Unit := do
  let _ ← (linearizedContractDefs buildInfo fqName).foldlM addContract .empty
  return ()

-- ---------------------------------------------------------------------------
-- Slots
-- ---------------------------------------------------------------------------

/-- Where a namespace lies: at a hash, or where the text itself says. -/
inductive Slot (δ : Type)
  | hashed (digest : δ)
  | own (location : String)

/-- The id behind a prefix that is not hashed. -/
def namespaceId (location : String) : Option String :=
  (sliceAfter "erc7201:" location).or (sliceAfter "trc7201:" location)

def slotOf {δ : Type} (hash : String → δ) (location : String) : Slot δ :=
  match namespaceId location with
  | some id => .hashed (hash id)
  | none => .own location

-- ---------------------------------------------------------------------------
-- The chain
-- ---------------------------------------------------------------------------

/-- All definitions of the output, in order. -/
def definitions (buildInfo : BuildInfo) : List AstNode :=
  ((sourceMap buildInfo).entries.flatMap fun entry => sourceNodes entry.2).filter
    (·.nodeType = "ContractDefinition")

/-- The contract is the last definition of an id that the target's chain lists. -/
def InChain (buildInfo : BuildInfo) (fqName : String) (contract : AstNode) : Prop :=
  ∃ target, targetOf buildInfo fqName = some target ∧
    contract.id ∈ target.linearizedBaseContracts.getD [] ∧
    ∃ before after, definitions buildInfo = before ++ contract :: after ∧
      ∀ later ∈ after, later.id ≠ contract.id

/-- A struct of the chain has this annotation. -/
def Annotated (buildInfo : BuildInfo) (fqName location : String) : Prop :=
  ∃ contract, InChain buildInfo fqName contract ∧ ∃ node ∈ contract.nodes.getD [],
    node.nodeType = "StructDefinition" ∧
      annotationOf (documentationText node).toList = some location.toList

-- ---------------------------------------------------------------------------
-- The chain is walked as it is listed
-- ---------------------------------------------------------------------------

section
variable {buildInfo : BuildInfo} {fqName : String} {contract : AstNode} {node : MemberNode}
  {byCanonicalId : ByCanonicalId} {decl : NamespaceDecl}

theorem definitionsById_eq : definitionsById buildInfo = index (·.id) (definitions buildInfo) := by
  rw [definitionsById, index, definitions, List.foldl_filter, List.foldl_flatMap]
  simp

theorem mem_linearizedContractDefs :
    contract ∈ linearizedContractDefs buildInfo fqName ↔ InChain buildInfo fqName contract := by
  unfold linearizedContractDefs InChain
  cases targetOf buildInfo fqName with
  | none => simp
  | some target =>
    simp only [List.mem_filterMap, definitionsById_eq, index_get?, Last]
    constructor
    · rintro ⟨_, hid, rfl, hlast⟩
      exact ⟨target, rfl, hid, hlast⟩
    · rintro ⟨_, ⟨⟩, hid, hlast⟩
      exact ⟨contract.id, hid, rfl, hlast⟩

/-- The declarations of the chain, in order. -/
def decls (buildInfo : BuildInfo) (fqName : String) : List NamespaceDecl :=
  (linearizedContractDefs buildInfo fqName).flatMap fun contract =>
    (contract.nodes.getD []).filterMap (namespaceDecl contract)

theorem addDecl_eq : addDecl = keepFirst (canonicalNamespaceId ·.storageLocation) (·.storageLocation) := by
  funext byCanonicalId decl
  unfold addDecl keepFirst
  dsimp only
  cases byCanonicalId.get? (canonicalNamespaceId decl.storageLocation) <;> rfl

theorem addContract_eq : addContract byCanonicalId contract =
    ((contract.nodes.getD []).filterMap (namespaceDecl contract)).foldlM addDecl byCanonicalId := by
  unfold addContract
  induction contract.nodes.getD [] generalizing byCanonicalId with
  | nil => rfl
  | cons node nodes ih =>
    rw [List.foldlM_cons, addStruct]
    cases hdecl : namespaceDecl contract node with
    | none =>
      rw [List.filterMap_cons_none hdecl, ← ih]
      rfl
    | some decl =>
      rw [List.filterMap_cons_some hdecl, List.foldlM_cons]
      simp only [ih]

theorem addContracts_eq (contracts : List AstNode) :
    contracts.foldlM addContract byCanonicalId =
      (contracts.flatMap fun contract =>
        (contract.nodes.getD []).filterMap (namespaceDecl contract)).foldlM addDecl byCanonicalId := by
  induction contracts generalizing byCanonicalId with
  | nil => rfl
  | cons contract contracts ih =>
    simp only [List.foldlM_cons, List.flatMap_cons, List.foldlM_append, addContract_eq, ih]

theorem assertNoNamespaceSlotCollisions_error {collision : SlotCollision} :
    assertNoNamespaceSlotCollisions buildInfo fqName = .error collision ↔
      (decls buildInfo fqName).foldlM addDecl .empty = .error collision := by
  rw [assertNoNamespaceSlotCollisions, addContracts_eq, decls]
  cases List.foldlM addDecl _ _ <;> simp [bind, Except.bind, pure, Except.pure]

theorem annotated_iff {location : String} : Annotated buildInfo fqName location ↔
    ∃ decl ∈ decls buildInfo fqName, decl.storageLocation = location := by
  simp only [Annotated, decls, List.mem_flatMap, List.mem_filterMap, mem_linearizedContractDefs,
    ← storageLocation_eq]
  constructor
  · rintro ⟨contract, hchain, node, hnode, hstruct, hlocation⟩
    refine ⟨⟨location, contract.name, node.name⟩, ⟨contract, hchain, node, hnode, ?_⟩, rfl⟩
    simp [namespaceDecl, hstruct, storageLocationOf, hlocation]
  · rintro ⟨decl, ⟨contract, hchain, node, hnode, hdecl⟩, rfl⟩
    refine ⟨contract, hchain, node, hnode, ?_⟩
    unfold namespaceDecl storageLocationOf at hdecl
    split at hdecl
    · cases hdecl
    · rename_i hstruct
      simp only [Option.map_map, Option.map_eq_some_iff] at hdecl
      obtain ⟨text, htext, rfl⟩ := hdecl
      exact ⟨Decidable.not_not.mp hstruct, by simp [htext]⟩

end

-- ---------------------------------------------------------------------------
-- One slot
-- ---------------------------------------------------------------------------

theorem canonicalNamespaceId_of (location : String) : canonicalNamespaceId location =
    (namespaceId location).elim location ("erc7201:" ++ ·) := by
  unfold canonicalNamespaceId namespaceId slotEquivalentPrefixes
  simp only [List.findSome?_cons, List.findSome?_nil]
  cases sliceAfter "erc7201:" location with
  | some id => rfl
  | none => cases sliceAfter "trc7201:" location <;> rfl

theorem sliceAfter_append (start rest : String) : sliceAfter start (start ++ rest) = some rest := by
  have hpre : start.toList.isPrefixOf (start ++ rest).toList = true := by
    simp [List.isPrefixOf_iff_prefix]
  rw [sliceAfter, if_pos hpre, String.toList_append, ← String.length_toList, List.drop_left,
    String.ofList_toList]

/-- The canonical text of an id has that id. -/
theorem namespaceId_append (id : String) : namespaceId ("erc7201:" ++ id) = some id := by
  rw [namespaceId, sliceAfter_append, Option.some_or]

theorem canonicalNamespaceId_eq {δ : Type} {hash : String → δ} (hhash : Function.Injective hash)
    {first second : String} :
    canonicalNamespaceId first = canonicalNamespaceId second ↔ slotOf hash first = slotOf hash second := by
  rw [canonicalNamespaceId_of, canonicalNamespaceId_of, slotOf, slotOf]
  cases hfirst : namespaceId first with
  | some id =>
    cases hsecond : namespaceId second with
    | some id' =>
      constructor
      · intro h
        have hid : id = id' := by
          have hsome := congrArg namespaceId h
          simpa [namespaceId_append] using hsome
        rw [hid]
      · intro h
        have hid : id = id' := hhash (Slot.hashed.inj h)
        subst hid
        rfl
    | none =>
      refine ⟨fun h => ?_, by rintro ⟨⟩⟩
      have h' : "erc7201:" ++ id = second := h
      rw [← h', namespaceId_append] at hsecond
      cases hsecond
  | none =>
    cases hsecond : namespaceId second with
    | some id' =>
      refine ⟨fun h => ?_, by rintro ⟨⟩⟩
      have h' : first = "erc7201:" ++ id' := h
      rw [h', namespaceId_append] at hfirst
      cases hfirst
    | none => simp

/-- The check throws iff two structs of the chain have annotations that are
different texts and one slot. -/
theorem assertNoNamespaceSlotCollisions_throws {δ : Type} {hash : String → δ}
    (hhash : Function.Injective hash) (buildInfo : BuildInfo) (fqName : String) :
    (∃ collision, assertNoNamespaceSlotCollisions buildInfo fqName = .error collision) ↔
      ∃ first second, Annotated buildInfo fqName first ∧ Annotated buildInfo fqName second ∧
        first ≠ second ∧ slotOf hash first = slotOf hash second := by
  simp only [assertNoNamespaceSlotCollisions_error, addDecl_eq, foldlM_keepFirst, annotated_iff]
  constructor
  · rintro ⟨first, second, hfirst, hsecond, hkey, hne⟩
    exact ⟨_, _, ⟨first, hfirst, rfl⟩, ⟨second, hsecond, rfl⟩, hne,
      (canonicalNamespaceId_eq hhash).mp hkey⟩
  · rintro ⟨_, _, ⟨first, hfirst, rfl⟩, ⟨second, hsecond, rfl⟩, hne, hslot⟩
    exact ⟨first, second, hfirst, hsecond, (canonicalNamespaceId_eq hhash).mpr hslot, hne⟩

def prefixedStruct (name location : String) : MemberNode where
  nodeType := "StructDefinition"
  name := name
  documentation := some (.node (some ("@custom:storage-location " ++ location)))

/-- A contract and its base, whose namespaces differ by their prefixes. -/
def twoPrefixes : BuildInfo where
  output := some ⟨some (OrderedMap.empty.upsert "A" fun _ => ⟨some ⟨some [
    { nodeType := "ContractDefinition", id := 1, name := "B", linearizedBaseContracts := some [1]
      nodes := some [prefixedStruct "S" "erc7201:x"] },
    { nodeType := "ContractDefinition", id := 2, name := "C", linearizedBaseContracts := some [2, 1]
      nodes := some [prefixedStruct "T" "trc7201:x"] }]⟩⟩)⟩

theorem twoPrefixes_throws : ∃ first second, Annotated twoPrefixes "A:C" first ∧
    Annotated twoPrefixes "A:C" second ∧ first ≠ second ∧ slotOf id first = slotOf id second :=
  (assertNoNamespaceSlotCollisions_throws Function.injective_id twoPrefixes "A:C").mp
    ⟨(⟨"trc7201:x", "C", "T"⟩, ⟨"erc7201:x", "B", "S"⟩), by rfl⟩

end TronUpgrades.Hardhat.NamespacePrefix
