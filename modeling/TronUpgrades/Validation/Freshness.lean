import TronUpgrades.Text
import TronUpgrades.Validation.BuildRecord

/-!
# What a fresh record's bytecode is

The record's link references are spans in bytes; the comparison is over hex
digits. A record is fresh where the artifact has as many digits and the same
ones, in either case, outside the spans: however these are filled.
-/

namespace TronUpgrades.Validation

open Json

-- ---------------------------------------------------------------------------
-- Spans
-- ---------------------------------------------------------------------------

/-- In bytes. -/
structure Span where
  start : Nat
  length : Nat
  deriving DecidableEq

def natural? : Json → Option Nat
  | .num value => if 0 ≤ value then some value.toNat else none
  | _ => none

def span? (offset : Json) : Option Span := do
  let fields ← asObject (some offset)
  let start ← (get? fields "start").bind natural?
  let length ← (get? fields "length").bind natural?
  return { start, length }

/-- The spans under each file and each library in it. -/
def linkSpans (linkReferences : Fields) : Option (List Span) := do
  let files ← (entries (.obj linkReferences)).mapM fun file => asObject (some file.2)
  let libraries ← (files.flatMap fun file => entries (.obj file)).mapM fun library =>
    asArray (some library.2)
  libraries.flatten.mapM span?

/-- A digit of a span's bytes. -/
def Covered (spans : List Span) (i : Nat) : Prop :=
  ∃ span ∈ spans, 2 * span.start ≤ i ∧ i < 2 * (span.start + span.length)

instance (spans : List Span) (i : Nat) : Decidable (Covered spans i) :=
  inferInstanceAs (Decidable (∃ span ∈ spans, _ ∧ _))

/-- References that can be read, to bytes that are there. -/
structure WellFormedLinks (deployed : RecordBytecode) (spans : List Span) : Prop where
  reads : linkSpans deployed.linkReferences = some spans
  within : ∀ span ∈ spans, 2 * (span.start + span.length) ≤ deployed.object.toList.length

-- ---------------------------------------------------------------------------
-- The engine's functions
-- ---------------------------------------------------------------------------

/-- The digits of a bytecode, prefixed or not. -/
def bytecodeDigits (bytecode : String) : List Char :=
  match bytecode.toList with
  | '0' :: 'x' :: digits => digits
  | digits => digits

/-- Every digit of the spans put in from the record, every other one kept. -/
def refilled (spans : List Span) (object digits : List Char) : List Char :=
  digits.zipIdx.map fun digit =>
    if Covered spans digit.2 then object.getD digit.2 digit.1 else digit.1

def Ascii (text : String) : Prop := ∀ c ∈ text.toList, c.toNat < 128

/-- Letter case of ASCII text; link references that are the record's spans; and
an unlinking that replaces exactly these, and prefixes what it answers. -/
structure Runtime.Unlinks (runtime : Runtime) : Prop where
  lower : ∀ text, Ascii text →
    runtime.toLowerCase text = .ofList (Text.toLowerCase text.toList)
  unlink : ∀ deployed spans, WellFormedLinks deployed spans →
    ∃ references, runtime.extractLinkReferences deployed = .ok references ∧
      ∀ artifact, runtime.unlinkBytecode artifact references =
        .ok (.ofList ('0' :: 'x' :: refilled spans deployed.object.toList (bytecodeDigits artifact)))

-- ---------------------------------------------------------------------------
-- Agreement
-- ---------------------------------------------------------------------------

/-- As many digits, and the same ones outside the spans, in either case. -/
structure AgreeOutside (spans : List Span) (digits object : List Char) : Prop where
  length : digits.length = object.length
  outside : ∀ i, ¬ Covered spans i → digits[i]?.map Char.toLower = object[i]?.map Char.toLower

section
variable {spans : List Span} {digits object : List Char}

theorem refilled_get (i : Nat) : (refilled spans object digits)[i]? =
    digits[i]?.map fun c => if Covered spans i then object.getD i c else c := by
  rw [refilled, List.getElem?_map, List.getElem?_zipIdx, Option.map_map, Nat.zero_add]
  rfl

theorem refilled_length : (refilled spans object digits).length = digits.length := by
  simp [refilled]

theorem refilled_agree : Text.toLowerCase (refilled spans object digits) = Text.toLowerCase object ↔
    AgreeOutside spans digits object := by
  constructor
  · intro h
    have hlength : digits.length = object.length := by
      rw [← @refilled_length spans digits object]
      exact Text.length_of_recased h
    refine ⟨hlength, fun i hi => ?_⟩
    have hget := congrArg (·[i]?) h
    simp only [Text.toLowerCase, List.getElem?_map, refilled_get, hi, if_false] at hget
    simpa using hget
  · intro h
    refine List.ext_getElem? fun i => ?_
    simp only [Text.toLowerCase, List.getElem?_map, refilled_get, Option.map_map]
    by_cases hi : Covered spans i
    · -- Inside a span the digit is the record's own.
      by_cases hlt : i < digits.length
      · have hlt' : i < object.length := h.length ▸ hlt
        simp [hi, hlt, hlt']
      · have hge : digits.length ≤ i := Nat.le_of_not_lt hlt
        have hge' : object.length ≤ i := h.length ▸ hge
        simp [hge, hge']
    · rw [← h.outside i hi]
      cases digits[i]? <;> simp [hi]

end

-- ---------------------------------------------------------------------------
-- Freshness
-- ---------------------------------------------------------------------------

theorem bytecodeDigits_nil {bytecode : String} :
    bytecodeDigits bytecode = [] ↔ bytecode = "" ∨ bytecode = "0x" := by
  have hempty : bytecode = "" ↔ bytecode.toList = [] := String.toList_inj.symm
  have hprefix : bytecode = "0x" ↔ bytecode.toList = ['0', 'x'] := String.toList_inj.symm
  rw [hempty, hprefix]
  unfold bytecodeDigits
  split
  · rename_i digits h
    simp [h]
  · rename_i h
    refine ⟨.inl, fun hnil => hnil.elim id fun hprefix => ?_⟩
    exact (h [] hprefix).elim

variable {runtime : Runtime} {deployed : RecordBytecode} {spans : List Span} {artifact : String}

theorem mem_bytecodeDigits {c : Char} (h : c ∈ bytecodeDigits artifact) : c ∈ artifact.toList := by
  unfold bytecodeDigits at h
  split at h
  · rename_i digits hdigits
    simp [hdigits, h]
  · exact h

theorem mem_refilled {object digits : List Char} {c : Char} (h : c ∈ refilled spans object digits) :
    c ∈ object ∨ c ∈ digits := by
  obtain ⟨⟨c', i⟩, hmem, rfl⟩ := List.mem_map.mp h
  have hdigits : c' ∈ digits := by
    obtain ⟨-, hget⟩ := List.mem_zipIdx' hmem
    exact hget ▸ List.getElem_mem _
  simp only
  split
  · rw [List.getD_eq_getElem?_getD]
    cases hget : object[i]? with
    | none => exact .inr hdigits
    | some c => exact .inl (List.mem_of_getElem? hget)
  · exact .inr hdigits

theorem ascii_refilled (hobject : Ascii deployed.object) (hartifact : Ascii artifact) :
    Ascii (.ofList ('0' :: 'x' ::
      refilled spans deployed.object.toList (bytecodeDigits artifact))) := by
  intro c hc
  rw [String.toList_ofList, List.mem_cons, List.mem_cons] at hc
  rcases hc with rfl | rfl | hc
  · decide
  · decide
  · rcases mem_refilled hc with hc | hc
    · exact hobject c hc
    · exact hartifact c (mem_bytecodeDigits hc)

/-- Both sides have digits, and they agree outside the spans. -/
structure Fresh (spans : List Span) (deployed : RecordBytecode) (artifact : String) : Prop where
  record : deployed.object ≠ ""
  digits : bytecodeDigits artifact ≠ []
  agree : AgreeOutside spans (bytecodeDigits artifact) deployed.object.toList

theorem verifyBuildRecordFreshness_iff (hruntime : runtime.Unlinks)
    (hlinks : WellFormedLinks deployed spans) (hobject : Ascii deployed.object)
    (hartifact : Ascii artifact) :
    (verifyBuildRecordFreshness runtime deployed artifact = .ok none ↔
      Fresh spans deployed artifact) ∧
    ∃ verdict, verifyBuildRecordFreshness runtime deployed artifact = .ok verdict := by
  unfold verifyBuildRecordFreshness
  simp only
  split
  · rename_i hnothing
    refine ⟨⟨fun h => (by cases h), fun h => ?_⟩, _, rfl⟩
    exact (hnothing.elim h.record fun hempty => h.digits (bytecodeDigits_nil.mpr hempty)).elim
  · rename_i hboth
    rw [not_or, ← bytecodeDigits_nil] at hboth
    obtain ⟨references, hreferences, hunlink⟩ := hruntime.unlink deployed spans hlinks
    have hprefixed : Ascii ("0x" ++ deployed.object) := by
      intro c hc
      rw [String.toList_append, List.mem_append] at hc
      have hboth : ∀ c ∈ "0x".toList, c.toNat < 128 := Text.forall_mem_of_all (by decide)
      exact hc.elim (hboth c) (hobject c)
    have hlower : runtime.toLowerCase (.ofList ('0' :: 'x' ::
        refilled spans deployed.object.toList (bytecodeDigits artifact))) =
          runtime.toLowerCase ("0x" ++ deployed.object) ↔
        AgreeOutside spans (bytecodeDigits artifact) deployed.object.toList := by
      rw [hruntime.lower _ (ascii_refilled hobject hartifact), hruntime.lower _ hprefixed,
        String.ofList_inj, String.toList_ofList, String.toList_append, ← refilled_agree]
      exact List.cons_inj_right _ |>.trans (List.cons_inj_right _)
    rw [hreferences]
    change ((runtime.unlinkBytecode artifact references).mapError Raised.foreign >>= _ = _ ↔ _) ∧
      ∃ verdict, (runtime.unlinkBytecode artifact references).mapError Raised.foreign >>= _ =
        Except.ok verdict
    rw [hunlink artifact]
    refine ⟨?_, _, rfl⟩
    change Except.ok (if _ then none else some RejectionReason.deployedBytecodeDiffers) =
      Except.ok none ↔ _
    split
    · rename_i hsame
      exact ⟨fun _ => ⟨hboth.1, hboth.2, hlower.mp hsame⟩, fun _ => rfl⟩
    · rename_i hdiffers
      exact ⟨fun h => (by cases h), fun h => absurd (hlower.mpr h.agree) hdiffers⟩

/-- However its spans are filled, a bytecode is as fresh. -/
theorem Fresh.refill {artifact' : String} (h : Fresh spans deployed artifact)
    (hsame : AgreeOutside spans (bytecodeDigits artifact') (bytecodeDigits artifact)) :
    Fresh spans deployed artifact' where
  record := h.record
  digits hnil := by
    have := hsame.length
    rw [hnil, List.length_nil] at this
    exact h.digits (List.length_eq_zero_iff.mp this.symm)
  agree := ⟨hsame.length.trans h.agree.length, fun i hi =>
    (hsame.outside i hi).trans (h.agree.outside i hi)⟩

/-- A single other digit makes it stale. -/
theorem Fresh.changed {artifact' : String} {i : Nat} (h : Fresh spans deployed artifact)
    (hout : ¬ Covered spans i)
    (hchanged : (bytecodeDigits artifact')[i]?.map Char.toLower ≠
      (bytecodeDigits artifact)[i]?.map Char.toLower) : ¬ Fresh spans deployed artifact' := by
  intro h'
  exact hchanged ((h'.agree.outside i hout).trans (h.agree.outside i hout).symm)

/-- A record accepts an artifact with the record's digits outside the spans;
then it accepts every other filling of the spans, and no artifact with another
digit outside them. -/
theorem verifyBuildRecordFreshness_laws (hruntime : runtime.Unlinks)
    (hlinks : WellFormedLinks deployed spans) (hobject : Ascii deployed.object)
    (hartifact : Ascii artifact) :
    (verifyBuildRecordFreshness runtime deployed artifact = .ok none ↔
      Fresh spans deployed artifact) ∧
    ∀ artifact', Ascii artifact' →
      verifyBuildRecordFreshness runtime deployed artifact = .ok none →
      (AgreeOutside spans (bytecodeDigits artifact') (bytecodeDigits artifact) →
        verifyBuildRecordFreshness runtime deployed artifact' = .ok none) ∧
      ∀ i, ¬ Covered spans i → (bytecodeDigits artifact')[i]?.map Char.toLower ≠
        (bytecodeDigits artifact)[i]?.map Char.toLower →
          ∃ reason, verifyBuildRecordFreshness runtime deployed artifact' = .ok (some reason) := by
  have hiff := (verifyBuildRecordFreshness_iff hruntime hlinks hobject hartifact).1
  refine ⟨hiff, fun artifact' hartifact' hfresh => ?_⟩
  have hfresh := hiff.mp hfresh
  obtain ⟨hiff', verdict, hverdict⟩ :=
    verifyBuildRecordFreshness_iff hruntime hlinks hobject hartifact'
  refine ⟨fun hsame => hiff'.mpr (hfresh.refill hsame), fun i hout hchanged => ?_⟩
  cases verdict with
  | none => exact absurd (hiff'.mp hverdict) (hfresh.changed hout hchanged)
  | some reason => exact ⟨reason, hverdict⟩

-- ---------------------------------------------------------------------------
-- One span after another
-- ---------------------------------------------------------------------------

/-- Spans filled one after another are filled together. -/
theorem foldl_refilled (object : List Char) (spans : List Span) (digits : List Char) :
    spans.foldl (fun digits span => refilled [span] object digits) digits =
      refilled spans object digits := by
  induction spans generalizing digits with
  | nil =>
    refine List.ext_getElem? fun i => ?_
    simp [refilled_get, Covered]
  | cons span spans ih =>
    rw [List.foldl_cons, ih]
    refine List.ext_getElem? fun i => ?_
    rw [refilled_get, refilled_get, refilled_get, Option.map_map]
    have hcons : Covered (span :: spans) i ↔ Covered [span] i ∨ Covered spans i := by
      simp [Covered]
    congr 1
    funext c
    simp only [Function.comp, hcons]
    by_cases hone : Covered [span] i <;> by_cases hrest : Covered spans i <;>
      simp only [hone, hrest, or_self, or_true, true_or, if_true, if_false]
    cases hget : object[i]? <;> simp [hget]

/-- Each reference with its span and the record's text; an artifact's spans
replaced in turn. -/
def spliceRuntime : Runtime where
  localeCompare := compare
  toLowerCase text := .ofList (Text.toLowerCase text.toList)
  LinkReference := Span × List Char
  extractLinkReferences deployed := .ok <|
    ((linkSpans deployed.linkReferences).getD []).map fun span => (span, deployed.object.toList)
  unlinkBytecode artifact references := .ok <| .ofList <| '0' :: 'x' ::
    references.foldl (fun digits reference => refilled [reference.1] reference.2 digits)
      (bytecodeDigits artifact)

theorem spliceRuntime_unlinks : spliceRuntime.Unlinks where
  lower _ _ := rfl
  unlink deployed spans h := by
    refine ⟨_, rfl, fun artifact => ?_⟩
    simp only [spliceRuntime, h.reads, Option.getD_some, List.foldl_map, foldl_refilled]

/-- `60__02`, its second byte a library's. -/
def linkedRecord : RecordBytecode where
  object := .ofList ['6', '0', '_', '_', '0', '2']
  linkReferences := [("A.sol", .obj [("L", .arr [.obj [("start", .num 1), ("length", .num 1)]])])]

def linkedArtifact : String := .ofList ['0', 'x', '6', '0', 'f', 'F', '0', '2']

theorem linkedRecord_laws :
    (verifyBuildRecordFreshness spliceRuntime linkedRecord linkedArtifact = .ok none ↔
      Fresh [⟨1, 1⟩] linkedRecord linkedArtifact) ∧
    ∀ artifact', Ascii artifact' →
      verifyBuildRecordFreshness spliceRuntime linkedRecord linkedArtifact = .ok none →
      (AgreeOutside [⟨1, 1⟩] (bytecodeDigits artifact') (bytecodeDigits linkedArtifact) →
        verifyBuildRecordFreshness spliceRuntime linkedRecord artifact' = .ok none) ∧
      ∀ i, ¬ Covered [⟨1, 1⟩] i → (bytecodeDigits artifact')[i]?.map Char.toLower ≠
        (bytecodeDigits linkedArtifact)[i]?.map Char.toLower →
          ∃ reason, verifyBuildRecordFreshness spliceRuntime linkedRecord artifact' =
            .ok (some reason) := by
  refine verifyBuildRecordFreshness_laws spliceRuntime_unlinks ⟨by decide, by decide⟩ ?_ ?_
  · rw [Ascii, linkedRecord, String.toList_ofList]
    exact Text.forall_mem_of_all (by decide)
  · rw [Ascii, linkedArtifact, String.toList_ofList]
    exact Text.forall_mem_of_all (by decide)

end TronUpgrades.Validation
