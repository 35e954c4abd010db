import Mathlib.Data.List.Nodup

/-!
# Maps that keep their keys in order

Pairs under distinct keys, in the order in which the keys came, as a JavaScript
object keeps its own: a key that is there is written in place, a new one at the
end. `find?` is the first value in that order that a test accepts.
-/

namespace Keyed

structure OrderedMap (κ β : Type) where
  entries : List (κ × β)
  nodup : (entries.map Prod.fst).Nodup

variable {κ β : Type}

namespace OrderedMap

def empty : OrderedMap κ β := ⟨[], List.nodup_nil⟩

def mapEntries (f : β → β) (entries : List (κ × β)) : List (κ × β) :=
  entries.map fun entry => (entry.1, f entry.2)

@[simp] theorem keys_mapEntries (f : β → β) (entries : List (κ × β)) :
    (mapEntries f entries).map Prod.fst = entries.map Prod.fst := by
  simp [mapEntries]

def map (m : OrderedMap κ β) (f : β → β) : OrderedMap κ β where
  entries := mapEntries f m.entries
  nodup := by
    rw [keys_mapEntries]
    exact m.nodup

def find? (m : OrderedMap κ β) (p : β → Bool) : Option β :=
  (m.entries.find? fun entry => p entry.2).map Prod.snd

theorem find?_sound {m : OrderedMap κ β} {p : β → Bool} {b : β} (h : m.find? p = some b) :
    ∃ k, (k, b) ∈ m.entries ∧ p b = true := by
  obtain ⟨⟨k, b'⟩, hfind, rfl⟩ := Option.map_eq_some_iff.mp h
  have hp := List.find?_some hfind
  exact ⟨k, List.mem_of_find?_eq_some hfind, hp⟩

theorem find?_isSome {m : OrderedMap κ β} {p : β → Bool} {k : κ} {b : β}
    (hb : (k, b) ∈ m.entries) (hp : p b = true) : (m.find? p).isSome = true := by
  rw [find?, Option.isSome_map, List.find?_isSome]
  exact ⟨(k, b), hb, hp⟩

section
variable [DecidableEq κ]

def get? (m : OrderedMap κ β) (k : κ) : Option β :=
  (m.entries.find? fun entry => entry.1 = k).map Prod.snd

/-- The value under the key made anew, from the one that is there. -/
def upsertEntries (k : κ) (f : Option β → β) : List (κ × β) → List (κ × β)
  | [] => [(k, f none)]
  | (k', b) :: rest => if k' = k then (k', f (some b)) :: rest
    else (k', b) :: upsertEntries k f rest

theorem mem_keys_upsertEntries {k k' : κ} {f : Option β → β} {entries : List (κ × β)}
    (h : k' ∈ (upsertEntries k f entries).map Prod.fst) : k' = k ∨ k' ∈ entries.map Prod.fst := by
  induction entries with
  | nil => simpa [upsertEntries] using h
  | cons entry rest ih =>
    unfold upsertEntries at h
    split at h
    · exact .inr h
    · rcases List.mem_cons.mp h with rfl | h
      · exact .inr List.mem_cons_self
      · exact (ih h).imp_right (List.mem_cons_of_mem _)

theorem nodup_upsertEntries {k : κ} {f : Option β → β} {entries : List (κ × β)}
    (h : (entries.map Prod.fst).Nodup) : ((upsertEntries k f entries).map Prod.fst).Nodup := by
  induction entries with
  | nil => simp [upsertEntries]
  | cons entry rest ih =>
    rw [List.map_cons, List.nodup_cons] at h
    unfold upsertEntries
    split
    · exact List.nodup_cons.mpr h
    · rename_i hk
      refine List.nodup_cons.mpr ⟨fun hmem => ?_, ih h.2⟩
      exact (mem_keys_upsertEntries hmem).elim hk h.1

def upsert (m : OrderedMap κ β) (k : κ) (f : Option β → β) : OrderedMap κ β :=
  ⟨upsertEntries k f m.entries, nodup_upsertEntries m.nodup⟩

def erase (m : OrderedMap κ β) (k : κ) : OrderedMap κ β where
  entries := m.entries.filter fun entry => entry.1 ≠ k
  nodup := m.nodup.sublist (List.filter_sublist.map _)

/-- Where keys are distinct, the first entry under a key is the only one. -/
theorem mem_entries_iff {m : OrderedMap κ β} {k : κ} {b : β} :
    (k, b) ∈ m.entries ↔ m.get? k = some b := by
  obtain ⟨entries, hnodup⟩ := m
  simp only [get?]
  induction entries with
  | nil => simp
  | cons entry rest ih =>
    obtain ⟨k', b'⟩ := entry
    rw [List.map_cons, List.nodup_cons] at hnodup
    rw [List.mem_cons, List.find?_cons]
    by_cases hk : k' = k
    · subst hk
      have hout : (k', b) ∉ rest := by
        intro hmem
        exact hnodup.1 (List.mem_map.mpr ⟨_, hmem, rfl⟩)
      simp [hout, eq_comm]
    · have hk' : k ≠ k' := Ne.symm hk
      simpa [hk, hk'] using ih hnodup.2

theorem get?_upsert_self (m : OrderedMap κ β) (k : κ) (f : Option β → β) :
    (m.upsert k f).get? k = some (f (m.get? k)) := by
  obtain ⟨entries, hnodup⟩ := m
  simp only [get?, upsert]
  induction entries with
  | nil => simp [upsertEntries]
  | cons entry rest ih =>
    obtain ⟨k', b'⟩ := entry
    unfold upsertEntries
    by_cases hk : k' = k
    · simp [hk]
    · simpa [hk] using ih (List.nodup_cons.mp hnodup).2

theorem get?_upsert_of_ne (m : OrderedMap κ β) {k k' : κ} (f : Option β → β) (hne : k' ≠ k) :
    (m.upsert k f).get? k' = m.get? k' := by
  obtain ⟨entries, hnodup⟩ := m
  simp only [get?, upsert]
  induction entries with
  | nil => simp [upsertEntries, hne.symm]
  | cons entry rest ih =>
    obtain ⟨k'', b'⟩ := entry
    unfold upsertEntries
    by_cases hk : k'' = k
    · subst hk
      simp [hne.symm]
    · rw [if_neg hk, List.find?_cons, List.find?_cons]
      split
      · rfl
      · exact ih (List.nodup_cons.mp hnodup).2

theorem get?_erase_of_ne (m : OrderedMap κ β) {k k' : κ} (hne : k' ≠ k) :
    (m.erase k).get? k' = m.get? k' := by
  simp only [get?, erase, List.find?_filter]
  congr 2
  funext entry
  by_cases hk : entry.1 = k'
  · simp [hk, hne]
  · simp [hk]

theorem get?_erase_self (m : OrderedMap κ β) (k : κ) : (m.erase k).get? k = none := by
  simp [get?, erase]

theorem get?_map (m : OrderedMap κ β) (f : β → β) (k : κ) : (m.map f).get? k = (m.get? k).map f := by
  simp only [get?, map, mapEntries, List.find?_map, Option.map_map]
  rfl

/-- The only value that a test accepts is the one it finds. -/
theorem find?_of_only {m : OrderedMap κ β} {p : β → Bool} {k : κ} {b : β} (hb : m.get? k = some b)
    (hp : p b = true) (only : ∀ k' b', k' ≠ k → m.get? k' = some b' → p b' = false) :
    m.find? p = some b := by
  obtain ⟨b', hfind⟩ := Option.isSome_iff_exists.mp (find?_isSome (mem_entries_iff.mpr hb) hp)
  obtain ⟨k', hmem, hp'⟩ := find?_sound hfind
  have hk : k' = k := by
    by_contra hk
    rw [only k' b' hk (mem_entries_iff.mp hmem)] at hp'
    cases hp'
  subst hk
  rw [hfind, ← hb, mem_entries_iff.mp hmem]

end

end OrderedMap

end Keyed
