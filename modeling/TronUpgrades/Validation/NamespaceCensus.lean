import Mathlib.Data.List.ReduceOption
import TronUpgrades.Keyed.Classes
import TronUpgrades.Validation.NamespaceMention
import TronUpgrades.Validation.Robust

/-!
# The census and the engine

`declaresNamespacedStorage` lists what the structs of the target's chain mention
first. `declaresNamespacedStorage_agrees_iff`: it lists what the engine reads off
them just where each mention that is astray names what is an annotation anyway,
and hides none.
-/

namespace TronUpgrades.Validation

open Checks Hardhat Json Keyed

-- ---------------------------------------------------------------------------
-- The structs of a chain
-- ---------------------------------------------------------------------------

/-- The text that a node's documentation is, or has. -/
def docText (node : Json) : List Char :=
  match property node "documentation" with
  | some (.str text) => text.toList
  | some (.obj fields) => (((get? fields "text").bind str?).getD "").toList
  | _ => []

/-- A struct of the definition with this documentation. -/
def DeclaresText (definition : Json) (text : List Char) : Prop :=
  ∃ member ∈ listed (property definition "nodes"),
    (property member "nodeType").bind str? = some "StructDefinition" ∧ docText member = text

/-- A struct of a definition that the target's chain lists. -/
def ChainText (output : SolcStandardOutput) (source contract : String) (text : List Char) : Prop :=
  ∃ definitions target, contractDefinitions output = .ok definitions ∧
    findContractDefinition output source contract = .ok (some target) ∧
    ∃ base ∈ baseIds target, ∃ id, base.bind num? = some id ∧
      ∃ definition, definitions.find? (·.1 = id) = some definition ∧ DeclaresText definition.2 text

/-- The sorted, duplicate-free list of the texts that are so. -/
structure SortedListOf (p : List Char → Prop) (texts : List String) : Prop where
  sorted : texts.Pairwise fun left right => (compareText left right).isLE = true
  nodup : texts.Nodup
  mem : ∀ text, text ∈ texts ↔ p text.toList

section
variable {output : SolcStandardOutput} {source contract : String} {member definition : Json}
  {text word : List Char}

instance : Std.TransCmp compareText := inferInstanceAs (Std.TransCmp (compareOn codeUnits))

theorem documentationText_ok (h : documentationText member = .ok text) : text = docText member := by
  obtain ⟨documentation, hdoc, htext⟩ := bind_ok.mp h
  cases htext
  rw [readProperty_ok hdoc]
  rfl

theorem namespaceOf_ok {name : Option String} (h : namespaceOf member = .ok name) :
    name = if (property member "nodeType").bind str? = some "StructDefinition" then
        (annotatedNamespace (docText member)).map .ofList
      else none := by
  obtain ⟨nodeType, hnodeType, h⟩ := bind_ok.mp h
  rw [readProperty_ok hnodeType] at h
  by_cases hstruct : (property member "nodeType").bind str? = some "StructDefinition"
  · simp only [hstruct, bne_self_eq_false, Bool.false_eq_true, if_false] at h
    obtain ⟨text, htext, h⟩ := bind_ok.mp h
    cases h
    rw [if_pos hstruct, documentationText_ok htext]
  · have hne : ((property member "nodeType").bind str? != some "StructDefinition") = true := by
      simpa using hstruct
    rw [if_pos hne] at h
    cases h
    rw [if_neg hstruct]

-- A text that is gone through has characters for members, and none is a struct.
theorem struct_iterated {value : Option Json} {members : List Json} (h : iterated value = .ok members)
    (hstruct : (property member "nodeType").bind str? = some "StructDefinition") :
    member ∈ members ↔ member ∈ listed value := by
  rcases value with _ | _ | _ | _ | value | _ | _ <;> cases h <;> simp only [listed]
  constructor
  · intro hmember
    obtain ⟨c, -, rfl⟩ := List.mem_map.mp hmember
    cases hstruct
  · intro hmember
    cases hmember

theorem baseNamespaces_mem {definitions : List (Int × Json)} {base : Option Json}
    {names : List String} (h : baseNamespaces definitions base = .ok names) {name : String} :
    name ∈ names ↔ ∃ id, base.bind num? = some id ∧
      ∃ definition, definitions.find? (·.1 = id) = some definition ∧
        ∃ text, DeclaresText definition.2 text ∧ annotatedNamespace text = some name.toList := by
  unfold baseNamespaces at h
  cases hid : base.bind num? with
  | none =>
    rw [hid] at h
    cases h
    simp
  | some id =>
    rw [hid] at h
    dsimp only at h
    cases hfind : definitions.find? (·.1 = id) with
    | none =>
      rw [hfind] at h
      cases h
      simp [hfind]
    | some definition =>
      rw [hfind] at h
      dsimp only at h
      obtain ⟨nodes, hnodes, h⟩ := bind_ok.mp h
      obtain ⟨members, hmembers, h⟩ := bind_ok.mp h
      obtain ⟨found, hfound, h⟩ := bind_ok.mp h
      cases h
      rw [readProperty_ok hnodes] at hmembers
      rw [List.reduceOption_mem_iff, mem_of_mapM hfound]
      constructor
      · rintro ⟨member, hmember, hname⟩
        have hread := namespaceOf_ok hname
        split at hread
        · rename_i hstruct
          obtain ⟨text, htext, hname⟩ := Option.map_eq_some_iff.mp hread.symm
          refine ⟨id, rfl, definition, hfind, docText member, ⟨member, ?_, hstruct, rfl⟩, ?_⟩
          · exact (struct_iterated hmembers hstruct).mp hmember
          · rw [htext, ← hname, String.toList_ofList]
        · cases hread
      · rintro ⟨_, ⟨⟩, _, hdefinition, text, ⟨member, hmember, hstruct, rfl⟩, hname⟩
        cases hfind.symm.trans hdefinition
        have hmember := (struct_iterated hmembers hstruct).mpr hmember
        have hnull : member ≠ .null := by
          rintro rfl
          cases hstruct
        obtain ⟨found', hfound'⟩ := namespaceOf_ends.returns.mpr hnull
        refine ⟨member, hmember, ?_⟩
        rw [hfound', namespaceOf_ok hfound', if_pos hstruct, hname, Option.map_some,
          String.ofList_toList]

/-- The census lists what the structs of the chain mention first. -/
theorem declaresNamespacedStorage_ok {found : List String}
    (h : declaresNamespacedStorage output source contract = .ok found) :
    SortedListOf (fun word => ∃ text, ChainText output source contract text ∧ Names text word) found := by
  obtain ⟨definitions, hdefinitions, h⟩ := bind_ok.mp h
  obtain ⟨target, htarget, h⟩ := bind_ok.mp h
  cases target with
  | none =>
    cases h
    refine ⟨List.Pairwise.nil, List.nodup_nil, fun name => ?_⟩
    simp only [List.not_mem_nil, false_iff]
    rintro ⟨text, ⟨_, target, -, htarget', -⟩, -⟩
    cases htarget.symm.trans htarget'
  | some target =>
    obtain ⟨bases, hbases, h⟩ := bind_ok.mp h
    obtain ⟨names, hnames, h⟩ := bind_ok.mp h
    cases h
    rw [linearizedBases_of_ne (findNode_ne_null htarget)] at hbases
    cases hbases
    refine ⟨sortBy_sorted, (sortBy_perm.nodup_iff).mpr (nodup_eraseDups _), fun name => ?_⟩
    rw [sortTexts, mem_sortBy, List.mem_eraseDups, List.mem_flatten]
    constructor
    · rintro ⟨found, hfound, hname⟩
      obtain ⟨base, hbase, hread⟩ := (mem_of_mapM hnames).mp hfound
      obtain ⟨id, hid, definition, hfind, text, htext, hmention⟩ :=
        (baseNamespaces_mem hread).mp hname
      exact ⟨text, ⟨definitions, target, hdefinitions, htarget, base, hbase, id, hid, definition,
        hfind, htext⟩, annotatedNamespace_iff.mp hmention⟩
    · rintro ⟨text, ⟨_, _, hdefinitions', htarget', base, hbase, id, hid, definition, hfind, htext⟩,
        hmention⟩
      cases hdefinitions.symm.trans hdefinitions'
      cases htarget.symm.trans htarget'
      obtain ⟨found, hfound⟩ := ok_of_mapM hnames base hbase
      exact ⟨found, (mem_of_mapM hnames).mpr ⟨base, hbase, hfound⟩,
        (baseNamespaces_mem hfound).mpr ⟨id, hid, definition, hfind, text, htext, annotatedNamespace_iff.mpr hmention⟩⟩

-- ---------------------------------------------------------------------------
-- Agreement
-- ---------------------------------------------------------------------------

/-- A mention that is astray names what is an annotation of the chain, and the
annotation of its own struct is what some struct of the chain mentions first. -/
def StraysHarmless (output : SolcStandardOutput) (source contract : String) : Prop :=
  ∀ text, ChainText output source contract text → ∀ word, Astray text word →
    (∃ other, ChainText output source contract other ∧ storageLocation other = some word) ∧
      ∀ location, storageLocation text = some location →
        ∃ other, ChainText output source contract other ∧ Names other location

/-- Of a text whose reading is absent or well formed, what is mentioned first and
what the engine reads are the same, unless it is astray. -/
theorem storageLocation_or_astray (hread : Admissible text) :
    (∀ word, Names text word ↔ storageLocation text = some word) ∨ ∃ word, Astray text word := by
  by_cases hstray : ∃ word, Astray text word
  · exact .inr hstray
  · refine .inl fun word => ⟨?_, fun hlocation => ?_⟩
    · rintro ⟨before, gap, hmention⟩
      by_cases hstraight : Straight before gap word
      · exact storageLocation_straight hread hmention hstraight
      · exact absurd ⟨word, before, gap, hmention, hstraight⟩ hstray
    · cases hannotated : annotatedNamespace text with
      | none =>
        rw [storageLocation_none hannotated] at hlocation
        cases hlocation
      | some other =>
        obtain ⟨before, gap, hmention⟩ := annotatedNamespace_iff.mp hannotated
        by_cases hstraight : Straight before gap other
        · cases (storageLocation_straight hread hmention hstraight).symm.trans hlocation
          exact ⟨before, gap, hmention⟩
        · exact absurd ⟨other, before, gap, hmention, hstraight⟩ hstray

/-- The census is the engine's reading of the chain, over the chains whose
readings are absent or well formed, iff no mention that is astray makes a
difference. -/
theorem declaresNamespacedStorage_agrees_iff (output : SolcStandardOutput) (source contract : String)
    (hread : ∀ text, ChainText output source contract text → Admissible text) :
    (∃ found, declaresNamespacedStorage output source contract = .ok found ∧
        SortedListOf (fun word => ∃ text, ChainText output source contract text ∧
          storageLocation text = some word) found) ↔
      ReadableAst output source contract ∧ StraysHarmless output source contract := by
  constructor
  · rintro ⟨found, hfound, hlist⟩
    have hcensus := declaresNamespacedStorage_ok hfound
    have hsame : ∀ word, (∃ text, ChainText output source contract text ∧ Names text word) ↔
        ∃ text, ChainText output source contract text ∧ storageLocation text = some word := by
      intro word
      have hword := (hcensus.mem (.ofList word)).symm.trans (hlist.mem (.ofList word))
      rwa [String.toList_ofList] at hword
    refine ⟨(declaresNamespacedStorage_ends output source contract).returns.mp ⟨found, hfound⟩, ?_⟩
    rintro text htext word ⟨before, gap, hmention, -⟩
    exact ⟨(hsame word).mp ⟨text, htext, before, gap, hmention⟩,
      fun location hlocation => (hsame location).mpr ⟨text, htext, hlocation⟩⟩
  · rintro ⟨hreadable, hharmless⟩
    obtain ⟨found, hfound⟩ := (declaresNamespacedStorage_ends output source contract).returns.mpr hreadable
    have hcensus := declaresNamespacedStorage_ok hfound
    refine ⟨found, hfound, hcensus.sorted, hcensus.nodup, fun name => (hcensus.mem name).trans ?_⟩
    constructor
    · rintro ⟨text, htext, hnames⟩
      rcases storageLocation_or_astray (hread text htext) with hagree | ⟨word, hastray⟩
      · exact ⟨text, htext, (hagree _).mp hnames⟩
      · obtain ⟨before, gap, hmention, -⟩ := id hastray
        have hword := annotatedNamespace_iff.mpr hnames
        rw [annotatedNamespace_iff.mpr ⟨before, gap, hmention⟩] at hword
        cases hword
        exact (hharmless text htext _ hastray).1
    · rintro ⟨text, htext, hlocation⟩
      rcases storageLocation_or_astray (hread text htext) with hagree | ⟨word, hastray⟩
      · exact ⟨text, htext, (hagree _).mpr hlocation⟩
      · exact (hharmless text htext word hastray).2 _ hlocation

end

-- ---------------------------------------------------------------------------
-- A mention in the middle of a line
-- ---------------------------------------------------------------------------

/-- An output with one contract, whose one struct has this documentation. -/
def structOutput (documentation : String) : SolcStandardOutput where
  contracts := .empty
  sources := OrderedMap.empty.upsert "A" fun _ => .obj [("ast", .obj [("nodes", .arr [.obj [
    ("nodeType", .str "ContractDefinition"), ("id", .num 1), ("name", .str "C"),
    ("linearizedBaseContracts", .arr [.num 1]),
    ("nodes", .arr [.obj [("nodeType", .str "StructDefinition"),
      ("documentation", .str documentation)]])]])])]

theorem structOutput_text {documentation : String} {text : List Char} :
    ChainText (structOutput documentation) "A" "C" text ↔ text = documentation.toList := by
  constructor
  · rintro ⟨definitions, target, hdefinitions, htarget, base, hbase, id, hid, definition, hfind,
      member, hmember, -, rfl⟩
    cases hdefinitions
    cases htarget
    cases List.mem_singleton.mp hbase
    cases hid
    cases hfind
    cases List.mem_singleton.mp hmember
    rfl
  · rintro rfl
    exact ⟨_, _, rfl, rfl, some (.num 1), List.mem_singleton.mpr rfl, 1, rfl, _, rfl,
      _, List.mem_singleton.mpr rfl, rfl, rfl⟩

theorem sortTexts_one (text : String) : sortTexts [text] = [text] :=
  sortBy_of_sorted (List.pairwise_singleton _ _)

theorem midLine_reading : storageLocation "see @custom:storage-location x".toList = none := by rfl

theorem midLine_disagrees :
    (∀ text, ChainText (structOutput "see @custom:storage-location x") "A" "C" text →
      Admissible text) ∧
    ¬ ∃ found, declaresNamespacedStorage (structOutput "see @custom:storage-location x") "A" "C" =
        .ok found ∧
      SortedListOf (fun word => ∃ text,
        ChainText (structOutput "see @custom:storage-location x") "A" "C" text ∧
          storageLocation text = some word) found := by
  refine ⟨fun text htext => ?_, ?_⟩
  · rw [structOutput_text.mp htext]
    exact fun htagged => absurd htagged (by decide)
  · rintro ⟨found, hfound, hlist⟩
    have hx : declaresNamespacedStorage (structOutput "see @custom:storage-location x") "A" "C" =
        .ok ["x"] := by
      rw [← sortTexts_one "x"]
      rfl
    cases hx.symm.trans hfound
    obtain ⟨text, htext, hlocation⟩ := (hlist.mem "x").mp (List.mem_singleton.mpr rfl)
    rw [structOutput_text.mp htext, midLine_reading] at hlocation
    cases hlocation

theorem plainStruct_reading :
    storageLocation "@custom:storage-location x".toList = some ['x'] := by rfl

theorem plainStruct_agrees : ReadableAst (structOutput "@custom:storage-location x") "A" "C" ∧
    StraysHarmless (structOutput "@custom:storage-location x") "A" "C" := by
  refine (declaresNamespacedStorage_agrees_iff _ _ _ fun text htext => ?_).mp
    ⟨["x"], sortTexts_one "x" ▸ rfl, List.pairwise_singleton _ _, List.nodup_singleton _, fun name => ?_⟩
  · rw [structOutput_text.mp htext]
    exact fun _ => ⟨['x'], plainStruct_reading⟩
  · rw [List.mem_singleton]
    constructor
    · rintro rfl
      exact ⟨_, structOutput_text.mpr rfl, plainStruct_reading⟩
    · rintro ⟨text, htext, hlocation⟩
      rw [structOutput_text.mp htext, plainStruct_reading] at hlocation
      exact String.toList_inj.mp (Option.some.inj hlocation).symm

end TronUpgrades.Validation
