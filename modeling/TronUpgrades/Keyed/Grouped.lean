import TronUpgrades.Keyed.OrderedMap
import TronUpgrades.Keyed.StableSort

/-!
# Grouping

A list read into a map, element by element, each under its key. `Groups` says
what the map then holds of the list, and `sortBy_eq_of_perm` that a group
sorted by a total order has forgotten in which order it came.
-/

namespace Keyed

open Std (TransCmp OrientedCmp LawfulEqCmp)

variable {α κ : Type}

/-- Two elements by a comparison of what `key` takes from them. -/
def comparing (cmp : κ → κ → Ordering) (key : α → κ) (a b : α) : Ordering := cmp (key a) (key b)

instance {cmp : κ → κ → Ordering} {key : α → κ} [TransCmp cmp] : TransCmp (comparing cmp key) where
  eq_swap {a b} := (OrientedCmp.eq_swap : cmp (key a) (key b) = (cmp (key b) (key a)).swap)
  isLE_trans {a b c} hab hbc := by
    have h : (cmp (key a) (key c)).isLE := TransCmp.isLE_trans hab hbc
    exact h

/-- Sorted by a total order, a list is known by its elements. -/
theorem sortBy_eq_of_perm {cmp : α → α → Ordering} [TransCmp cmp] [LawfulEqCmp cmp] {l l' : List α}
    (h : l'.Perm l) : sortBy cmp id l' = sortBy cmp id l := by
  have hperm : (sortBy cmp id l').Perm (sortBy cmp id l) :=
    sortBy_perm.trans (h.trans sortBy_perm.symm)
  refine hperm.eq_of_pairwise (fun a b _ _ hab hba => ?_) sortBy_sorted sortBy_sorted
  have heq : cmp a b = .eq := OrientedCmp.isLE_antisymm hab hba
  exact LawfulEqCmp.eq_of_compare heq

/-- Two strictly sorted lists of the same elements are one list. -/
theorem eq_of_strictly_sorted (cmp : α → α → Ordering) [OrientedCmp cmp] {l l' : List α}
    (hl : l.Pairwise fun a b => cmp a b = .lt) (hl' : l'.Pairwise fun a b => cmp a b = .lt)
    (h : ∀ a, a ∈ l ↔ a ∈ l') : l = l' := by
  have hne {l : List α} (hl : l.Pairwise fun a b => cmp a b = .lt) : l.Nodup := by
    refine hl.imp ?_
    rintro a b hab rfl
    have hself : cmp a a = .eq := Std.ReflCmp.compare_self
    rw [hself] at hab
    cases hab
  have hperm : l.Perm l' := (List.perm_ext_iff_of_nodup (hne hl) (hne hl')).mpr h
  refine hperm.eq_of_pairwise (fun a b _ _ hab hba => ?_) hl hl'
  rw [OrientedCmp.gt_of_lt hab] at hba
  cases hba

variable [DecidableEq κ]

/-- One more element under the key. -/
def OrderedMap.push (m : OrderedMap κ (List α)) (k : κ) (a : α) : OrderedMap κ (List α) :=
  m.upsert k fun
    | some group => group ++ [a]
    | none => [a]

/-- Under each key, the elements of the list that have it; and no empty group. -/
structure Groups (key : α → κ) (m : OrderedMap κ (List α)) (l : List α) : Prop where
  get? : ∀ k, (m.get? k).getD [] = l.filter (key · = k)
  ne_nil : ∀ k group, m.get? k = some group → group ≠ []

namespace Groups

variable {key : α → κ} {m : OrderedMap κ (List α)} {l l' : List α} {k : κ} {a : α}

theorem empty (key : α → κ) : Groups key .empty [] where
  get? _ := rfl
  ne_nil := by rintro _ _ ⟨⟩

theorem push (h : Groups key m l) (a : α) : Groups key (m.push (key a) a) (l ++ [a]) where
  get? k := by
    rw [List.filter_append, ← h.get? k, OrderedMap.push]
    by_cases hk : key a = k
    · subst hk
      rw [OrderedMap.get?_upsert_self]
      cases m.get? (key a) <;> simp
    · rw [OrderedMap.get?_upsert_of_ne _ _ (Ne.symm hk)]
      simp [hk]
  ne_nil k group hgroup := by
    rw [OrderedMap.push] at hgroup
    by_cases hk : k = key a
    · subst hk
      rw [OrderedMap.get?_upsert_self] at hgroup
      rw [← Option.some.inj hgroup]
      cases m.get? (key a) <;> simp
    · rw [OrderedMap.get?_upsert_of_ne _ _ hk] at hgroup
      exact h.ne_nil k group hgroup

theorem foldl (h : Groups key m l) (xs : List α) :
    Groups key (xs.foldl (fun m a => m.push (key a) a) m) (l ++ xs) := by
  induction xs generalizing m l with
  | nil => simpa using h
  | cons a xs ih =>
    rw [List.append_cons]
    exact ih (h.push a)

theorem mem_entries (h : Groups key m l) {group : List α} :
    (k, group) ∈ m.entries ↔ group = l.filter (key · = k) ∧ group ≠ [] := by
  rw [OrderedMap.mem_entries_iff]
  constructor
  · intro hgroup
    refine ⟨?_, h.ne_nil k group hgroup⟩
    rw [← h.get? k, hgroup]
    rfl
  · rintro ⟨rfl, hne⟩
    have hget := h.get? k
    cases hgroup : m.get? k with
    | none =>
      rw [hgroup] at hget
      exact absurd hget.symm hne
    | some group =>
      rw [hgroup] at hget
      exact congrArg some hget

end Groups

end Keyed
