import TronUpgrades.Keyed.StableSort
import TronUpgrades.Record.Migration
import TronUpgrades.Record.Reconcile
import Mathlib.Data.List.ReduceOption

/-!
# Verdicts on stored proxies

The verdicts over a migrated record as a function of what was named and what
is stored: by the twenty bytes and not by the spelling. Where several stored
proxies, or several named entries, stand for one address and disagree, the
order they come in decides.
-/

namespace TronUpgrades.Record

open Address

variable {ρ : Type}

/-- An accepted spelling of these twenty bytes. -/
def Denotes (codec : AddressCodec) (body : AddressBody) (value : String) : Prop :=
  canonicalizeAddress codec value = .ok (body.eip55 codec)

/-- `localeCompare`, as far as canonical addresses go. -/
structure AddressOrder (codec : AddressCodec) (addressLe : String → String → Bool) : Prop where
  trans : ∀ a b c, addressLe a b = true → addressLe b c = true → addressLe a c = true
  total : ∀ a b, (addressLe a b || addressLe b a) = true
  antisymm : ∀ a b, isCanonicalAddress codec a = true → isCanonicalAddress codec b = true →
    addressLe a b = true → addressLe b a = true → a = b

section
variable (codec : AddressCodec) (addressLe : String → String → Bool) (code : String → Bool)

/-- The verdict a named entry is due over a record with these proxies. -/
inductive Due (stored : List (ProxyDeployment ρ)) (entry : NamedAddress) :
    Option ProxyRecordVerdict → Prop
  | authoritative {body proxy} : Denotes codec body entry.address → proxy ∈ stored →
      Denotes codec body proxy.address → code (body.eip55 codec) = true →
      Due stored entry (some ⟨body.eip55 codec, .authoritative, .fromRecord, some proxy.kind⟩)
  | noCodeAtAddress {body proxy} : Denotes codec body entry.address → proxy ∈ stored →
      Denotes codec body proxy.address → code (body.eip55 codec) = false →
      Due stored entry (some ⟨body.eip55 codec, .noCodeAtAddress, .fromRecord, some proxy.kind⟩)
  | unrecorded {body} : Denotes codec body entry.address →
      (∀ proxy ∈ stored, ¬ Denotes codec body proxy.address) → code (body.eip55 codec) = true →
      Due stored entry (some (unrecordedVerdict (body.eip55 codec) entry.assertedKind))
  | none {body} : Denotes codec body entry.address →
      (∀ proxy ∈ stored, ¬ Denotes codec body proxy.address) → code (body.eip55 codec) = false →
      Due stored entry none

/-- One verdict for each named entry that is due one, sorted, and no other. -/
structure Reconciles (named : List NamedAddress) (stored : List (ProxyDeployment ρ))
    (verdicts : List ProxyRecordVerdict) : Prop where
  sorted : verdicts.Pairwise fun left right => addressLe left.address right.address = true
  each : ∃ due, List.Forall₂ (Due codec code stored) named due ∧ verdicts.Perm due.reduceOption

/-- Entries that stand for one address agree on what their verdict says. -/
structure Unambiguous (named : List NamedAddress) (stored : List (ProxyDeployment ρ)) : Prop where
  recorded : ∀ body, ∀ entry ∈ named, Denotes codec body entry.address →
    ∀ p ∈ stored, ∀ q ∈ stored, Denotes codec body p.address → Denotes codec body q.address →
    p.kind = q.kind
  unrecorded : ∀ body, code (body.eip55 codec) = true →
    (∀ proxy ∈ stored, ¬ Denotes codec body proxy.address) →
    ∀ left ∈ named, ∀ right ∈ named, Denotes codec body left.address →
    Denotes codec body right.address → left.assertedKind = right.assertedKind

/-- The verdict of one entry over the migrated record. -/
def verdictOf (stored : List (ProxyDeployment ρ)) (entry : NamedAddress) :
    Option ProxyRecordVerdict :=
  (canonicalizeAddress codec entry.address).toOption.bind fun address =>
    verdictFor stored address entry.assertedKind (code address)

def settledProxies (stored : List (ProxyDeployment ρ)) : List (ProxyDeployment ρ) :=
  stored.map fun proxy => { proxy with address := settled codec proxy.address }

/-- All verdicts of a session, as a function of what it read. -/
def reportOf (named : List NamedAddress) (stored : List (ProxyDeployment ρ)) :
    List ProxyRecordVerdict :=
  (named.filterMap (verdictOf codec code (settledProxies codec stored))).mergeSort
    fun left right => addressLe left.address right.address

end

-- ---------------------------------------------------------------------------
-- One entry
-- ---------------------------------------------------------------------------

section
variable {codec : AddressCodec} {addressLe : String → String → Bool} {code : String → Bool}
  {named named' : List NamedAddress} {stored stored' : List (ProxyDeployment ρ)}
  {entry : NamedAddress} {body : AddressBody}

theorem Denotes.unique {value : String} {other : AddressBody} (h : Denotes codec body value)
    (h' : Denotes codec other value) : other.eip55 codec = body.eip55 codec :=
  Except.ok.inj (h'.symm.trans h)

theorem settled_eq_eip55 (correct : CorrectCodec codec) (body : AddressBody) (value : String) :
    settled codec value = body.eip55 codec ↔ Denotes codec body value := by
  have canonical := (isCanonicalAddress_iff correct).mpr ⟨body, rfl⟩
  rw [settled_eq_iff correct canonical, spells, beq_iff_eq, (one_identity correct).nonThrowing,
    Denotes]
  cases canonicalizeAddress codec value <;> simp [Except.toOption]

/-- The engine's lookup over the migrated record: the first that denotes. -/
theorem storedRecordFor_settled (correct : CorrectCodec codec) (body : AddressBody)
    (stored : List (ProxyDeployment ρ)) :
    (∃ proxy ∈ stored, Denotes codec body proxy.address ∧
      (storedRecordFor (settledProxies codec stored) (body.eip55 codec)).map (·.kind) =
        some proxy.kind) ∨
    (∀ proxy ∈ stored, ¬ Denotes codec body proxy.address) ∧
      storedRecordFor (settledProxies codec stored) (body.eip55 codec) = none := by
  induction stored with
  | nil => exact .inr ⟨by simp, rfl⟩
  | cons proxy stored ih =>
    rw [storedRecordFor, settledProxies, List.map_cons, List.find?_cons]
    by_cases h : Denotes codec body proxy.address
    · rw [(settled_eq_eip55 correct body _).mpr h, beq_self_eq_true]
      exact .inl ⟨proxy, List.mem_cons_self, h, rfl⟩
    · rw [beq_false_of_ne fun heq => h ((settled_eq_eip55 correct body _).mp heq)]
      rcases ih with ⟨other, hother, hdenotes, hkind⟩ | ⟨hnone, hmiss⟩
      · exact .inl ⟨other, List.mem_cons_of_mem _ hother, hdenotes, hkind⟩
      · refine .inr ⟨?_, hmiss⟩
        rintro other hother
        rcases List.mem_cons.mp hother with rfl | hother
        · exact h
        · exact hnone other hother

theorem verdictOf_denotes (h : Denotes codec body entry.address) (stored : List (ProxyDeployment ρ)) :
    verdictOf codec code stored entry =
      verdictFor stored (body.eip55 codec) entry.assertedKind (code (body.eip55 codec)) := by
  rw [verdictOf, h]
  rfl

/-- A record found: its verdict carries the kind. -/
theorem verdictFor_recorded {a : String} {kind : ProxyKind} {asserted : Option ProxyKind}
    (h : (storedRecordFor stored a).map (·.kind) = some kind) (present : Bool) :
    verdictFor stored a asserted present = some ⟨a,
      if present then .authoritative else .noCodeAtAddress, .fromRecord, some kind⟩ := by
  cases hrecord : storedRecordFor stored a with
  | none => simp [hrecord] at h
  | some record =>
    simp only [hrecord, Option.map_some, Option.some.injEq] at h
    simp [verdictFor, hrecord, h]

theorem verdictOf_due (correct : CorrectCodec codec) (h : Denotes codec body entry.address) :
    Due codec code stored entry (verdictOf codec code (settledProxies codec stored) entry) := by
  rw [verdictOf_denotes h]
  rcases storedRecordFor_settled correct body stored with ⟨proxy, hproxy, hdenotes, hkind⟩ | ⟨hnone, hmiss⟩
  · rw [verdictFor_recorded hkind]
    cases hcode : code (body.eip55 codec) with
    | true => exact .authoritative h hproxy hdenotes hcode
    | false => exact .noCodeAtAddress h hproxy hdenotes hcode
  · rw [verdictFor, hmiss]
    cases hcode : code (body.eip55 codec) with
    | true => exact .unrecorded h hnone hcode
    | false => exact .none h hnone hcode

/-- Where the verdicts of the entries of one address stand. -/
theorem verdictOf_address {v : ProxyRecordVerdict} (h : Denotes codec body entry.address)
    (hv : verdictOf codec code stored entry = some v) : v.address = body.eip55 codec := by
  rw [verdictOf_denotes h] at hv
  unfold verdictFor at hv
  split at hv
  · split at hv
    · cases hv
      cases entry.assertedKind <;> rfl
    · cases hv
  · cases hv
    rfl

/-- Two entries for one address, over two orders of one record. -/
theorem verdictOf_congr (correct : CorrectCodec codec) (clear : Unambiguous codec code named stored)
    {left right : NamedAddress} (hleft : left ∈ named) (hright : right ∈ named)
    (hl : Denotes codec body left.address) (hr : Denotes codec body right.address)
    (hperm : stored'.Perm stored) :
    verdictOf codec code (settledProxies codec stored') right =
      verdictOf codec code (settledProxies codec stored) left := by
  rw [verdictOf_denotes hl, verdictOf_denotes hr]
  rcases storedRecordFor_settled correct body stored with ⟨p, hp, hpbody, hpkind⟩ | ⟨hnone, hmiss⟩
  · rcases storedRecordFor_settled correct body stored' with ⟨q, hq, hqbody, hqkind⟩ | ⟨hnone', -⟩
    · have hsame := clear.recorded body left hleft hl p hp q (hperm.mem_iff.mp hq) hpbody hqbody
      rw [verdictFor_recorded hpkind, verdictFor_recorded hqkind, hsame]
    · exact absurd hpbody (hnone' p (hperm.mem_iff.mpr hp))
  · rcases storedRecordFor_settled correct body stored' with ⟨q, hq, hqbody, -⟩ | ⟨-, hmiss'⟩
    · exact absurd hqbody (hnone q (hperm.mem_iff.mp hq))
    · rw [verdictFor, verdictFor, hmiss, hmiss']
      cases hcode : code (body.eip55 codec) with
      | true => rw [clear.unrecorded body hcode hnone left hleft right hright hl hr]
      | false => rfl

-- ---------------------------------------------------------------------------
-- The report
-- ---------------------------------------------------------------------------

/-- Every named address is in an accepted spelling. -/
def AllAccepted (codec : AddressCodec) (named : List NamedAddress) : Prop :=
  ∀ entry ∈ named, ∃ body, Denotes codec body entry.address

theorem reportOf_sorted (order : AddressOrder codec addressLe) (named : List NamedAddress)
    (stored : List (ProxyDeployment ρ)) : (reportOf codec addressLe code named stored).Pairwise
      fun left right => addressLe left.address right.address = true :=
  List.pairwise_mergeSort (fun a b c => order.trans a.address b.address c.address)
    (fun a b => order.total a.address b.address) _

theorem reportOf_reconciles (correct : CorrectCodec codec) (order : AddressOrder codec addressLe)
    (accepted : AllAccepted codec named) (stored : List (ProxyDeployment ρ)) :
    Reconciles codec addressLe code named stored (reportOf codec addressLe code named stored) where
  sorted := reportOf_sorted order named stored
  each := by
    refine ⟨named.map (verdictOf codec code (settledProxies codec stored)), ?_, ?_⟩
    · rw [List.forall₂_map_right_iff, List.forall₂_same]
      intro entry hentry
      obtain ⟨body, hbody⟩ := accepted entry hentry
      exact verdictOf_due correct hbody
    · rw [List.reduceOption, List.filterMap_map]
      exact List.mergeSort_perm _ _

theorem mem_verdicts {v : ProxyRecordVerdict} (accepted : AllAccepted codec named)
    (hv : v ∈ named.filterMap (verdictOf codec code stored)) :
    ∃ entry ∈ named, ∃ body, Denotes codec body entry.address ∧ v.address = body.eip55 codec ∧
      verdictOf codec code stored entry = some v := by
  obtain ⟨entry, hentry, hv⟩ := List.mem_filterMap.mp hv
  obtain ⟨body, hbody⟩ := accepted entry hentry
  exact ⟨entry, hentry, body, hbody, verdictOf_address hbody hv, hv⟩

/-- Unambiguous entries are reported alike in every order. -/
theorem reportOf_congr (correct : CorrectCodec codec) (order : AddressOrder codec addressLe)
    (accepted : AllAccepted codec named) (clear : Unambiguous codec code named stored)
    (hnamed : named'.Perm named) (hstored : stored'.Perm stored) :
    reportOf codec addressLe code named' stored' = reportOf codec addressLe code named stored := by
  have hsame : named.filterMap (verdictOf codec code (settledProxies codec stored')) =
      named.filterMap (verdictOf codec code (settledProxies codec stored)) := by
    refine List.filterMap_congr fun entry hentry => ?_
    obtain ⟨body, hbody⟩ := accepted entry hentry
    exact verdictOf_congr correct clear hentry hentry hbody hbody hstored
  have hperm : (reportOf codec addressLe code named' stored').Perm
      (reportOf codec addressLe code named stored) := by
    have hlisted := hnamed.filterMap (verdictOf codec code (settledProxies codec stored'))
    rw [hsame] at hlisted
    exact (List.mergeSort_perm _ _).trans (hlisted.trans (List.mergeSort_perm _ _).symm)
  refine hperm.eq_of_pairwise (fun v w hv hw hvw hwv => ?_) (reportOf_sorted order named' stored')
    (reportOf_sorted order named stored)
  · rw [hperm.mem_iff] at hv
    obtain ⟨left, hleft, body, hl, hvaddress, hv⟩ := mem_verdicts accepted (List.mem_mergeSort.mp hv)
    obtain ⟨right, hright, other, hr, hwaddress, hw⟩ :=
      mem_verdicts accepted (List.mem_mergeSort.mp hw)
    have haddress : v.address = w.address := by
      refine order.antisymm _ _ ?_ ?_ hvw hwv
      · exact (isCanonicalAddress_iff correct).mpr ⟨body, hvaddress⟩
      · exact (isCanonicalAddress_iff correct).mpr ⟨other, hwaddress⟩
    have hr : Denotes codec body right.address := by
      rw [Denotes, hr, ← hwaddress, ← haddress, hvaddress]
    have heq := verdictOf_congr correct clear hright hleft hr hl (.refl stored)
    exact Option.some.inj (hv.symm.trans (heq.trans hw))

variable (addressLe code) in
/-- Of the stored proxies for one address, the first gives the kind. -/
theorem reportOf_first (correct : CorrectCodec codec) (accepted : AllAccepted codec named)
    (hentry : entry ∈ named) (hbody : Denotes codec body entry.address) {p : ProxyDeployment ρ}
    (hp : Denotes codec body p.address) (stored : List (ProxyDeployment ρ)) :
    (∃ v ∈ reportOf codec addressLe code named (p :: stored), v.address = body.eip55 codec) ∧
      ∀ v ∈ reportOf codec addressLe code named (p :: stored), v.address = body.eip55 codec →
        v.kind = some p.kind := by
  have hfirst : (storedRecordFor (settledProxies codec (p :: stored)) (body.eip55 codec)).map
      (·.kind) = some p.kind := by
    rw [storedRecordFor, settledProxies, List.map_cons, List.find?_cons,
      (settled_eq_eip55 correct body _).mpr hp, beq_self_eq_true]
    rfl
  constructor
  · have hverdict : ∃ v, verdictOf codec code (settledProxies codec (p :: stored)) entry = some v := by
      rw [verdictOf_denotes hbody, verdictFor_recorded hfirst]
      exact ⟨_, rfl⟩
    obtain ⟨v, hv⟩ := hverdict
    exact ⟨v, List.mem_mergeSort.mpr (List.mem_filterMap.mpr ⟨entry, hentry, hv⟩),
      verdictOf_address hbody hv⟩
  · intro v hv haddress
    obtain ⟨other, -, body', hbody', hv', hverdict⟩ :=
      mem_verdicts accepted (List.mem_mergeSort.mp hv)
    rw [Denotes, ← hv', haddress] at hbody'
    rw [verdictOf_denotes hbody', verdictFor_recorded hfirst] at hverdict
    rw [← Option.some.inj hverdict]

/-- Of the verdicts for one address, the one named first stays first. -/
theorem reportOf_head (order : AddressOrder codec addressLe) {v : ProxyRecordVerdict}
    (hv : verdictOf codec code (settledProxies codec stored) entry = some v)
    (named : List NamedAddress) :
    ((reportOf codec addressLe code (entry :: named) stored).filter
      (·.address == v.address)).head? = some v := by
  have hfilter : (reportOf codec addressLe code (entry :: named) stored).filter
      (·.address == v.address) = ((entry :: named).filterMap
        (verdictOf codec code (settledProxies codec stored))).filter (·.address == v.address) := by
    refine Keyed.filter_mergeSort (fun a b c => order.trans a.address b.address c.address)
      (fun a b => order.total a.address b.address) ?_
    rintro a ⟨-, ha⟩ b ⟨-, hb⟩
    rw [beq_iff_eq] at ha hb
    simpa [ha, hb] using order.total v.address v.address
  rw [hfilter, List.filterMap_cons, hv]
  simp

theorem perm_cons_of_mem {α : Type} {a : α} {l : List α} (h : a ∈ l) : ∃ l', (a :: l').Perm l := by
  obtain ⟨s, t, rfl⟩ := List.append_of_mem h
  exact ⟨s ++ t, List.perm_middle.symm⟩

/-- Where every order is reported alike, nothing was ambiguous. -/
theorem unambiguous_of_reportOf (correct : CorrectCodec codec)
    (order : AddressOrder codec addressLe) (accepted : AllAccepted codec named)
    (h : ∀ named' stored', named'.Perm named → stored'.Perm stored →
      reportOf codec addressLe code named' stored' = reportOf codec addressLe code named stored) :
    Unambiguous codec code named stored where
  recorded body entry hentry hbody p hp q hq hpbody hqbody := by
    obtain ⟨ps, hps⟩ := perm_cons_of_mem hp
    obtain ⟨qs, hqs⟩ := perm_cons_of_mem hq
    have heq := (h named _ (.refl _) hps).trans (h named _ (.refl _) hqs).symm
    obtain ⟨⟨v, hv, haddress⟩, hpkind⟩ := reportOf_first addressLe code correct
      accepted hentry hbody hpbody ps
    obtain ⟨-, hqkind⟩ := reportOf_first addressLe code correct
      accepted hentry hbody hqbody qs
    have hpv := hpkind v hv haddress
    rw [heq] at hv
    exact Option.some.inj (hpv.symm.trans (hqkind v hv haddress))
  unrecorded body hcode hnone left hleft right hright hl hr := by
    have unrecorded {entry : NamedAddress} (he : Denotes codec body entry.address) :
        verdictOf codec code (settledProxies codec stored) entry =
          some (unrecordedVerdict (body.eip55 codec) entry.assertedKind) := by
      rcases storedRecordFor_settled correct body stored with ⟨p, hp, hpbody, -⟩ | ⟨-, hmiss⟩
      · exact absurd hpbody (hnone p hp)
      · rw [verdictOf_denotes he, verdictFor, hmiss, hcode]
        rfl
    have haddress (kind : Option ProxyKind) :
        (unrecordedVerdict (body.eip55 codec) kind).address = body.eip55 codec := by
      cases kind <;> rfl
    obtain ⟨ls, hls⟩ := perm_cons_of_mem hleft
    obtain ⟨rs, hrs⟩ := perm_cons_of_mem hright
    have hlhead := reportOf_head order (unrecorded hl) ls
    have hrhead := reportOf_head order (unrecorded hr) rs
    rw [h _ stored hls (.refl _), haddress] at hlhead
    rw [h _ stored hrs (.refl _), haddress, hlhead, Option.some.injEq] at hrhead
    revert hrhead
    cases left.assertedKind <;> cases right.assertedKind <;> simp [unrecordedVerdict]

end

end TronUpgrades.Record
