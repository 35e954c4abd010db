import Mathlib.Data.List.Induction
import TronUpgrades.Keyed.OrderedMap

/-!
# Values by class

A map that is written for each value of a list keeps the last of each class
(`index_get?`). A scan that keeps the first, and stops at a value whose mark is
not that of the first of its class, stops iff two values of one class have
different marks, whatever their order (`foldlM_keepFirst`).
-/

namespace Keyed

variable {α κ β : Type}

theorem nodup_eraseDups [DecidableEq α] (l : List α) : l.eraseDups.Nodup := by
  generalize hlength : l.length = length
  induction length using Nat.strongRecOn generalizing l with
  | _ length ih =>
    cases l with
    | nil => exact List.nodup_nil
    | cons a l =>
      rw [List.eraseDups_cons]
      refine List.nodup_cons.mpr ⟨?_, ih _ ?_ _ rfl⟩
      · simp [List.mem_eraseDups]
      · have := List.length_filter_le (fun b => !b == a) l
        rw [List.length_cons] at hlength
        omega

-- ---------------------------------------------------------------------------
-- The last of each class
-- ---------------------------------------------------------------------------

/-- The last value of a class. -/
def Last (key : α → κ) (values : List α) (k : κ) (a : α) : Prop :=
  key a = k ∧ ∃ before after, values = before ++ a :: after ∧ ∀ later ∈ after, key later ≠ k

def index [DecidableEq κ] (key : α → κ) (values : List α) : OrderedMap κ α :=
  values.foldl (fun m a => m.upsert (key a) fun _ => a) .empty

theorem last_append {key : α → κ} {values : List α} {k : κ} {a b : α} :
    Last key (values ++ [b]) k a ↔ key b = k ∧ a = b ∨ key b ≠ k ∧ Last key values k a := by
  constructor
  · rintro ⟨hkey, before, after, hvalues, hafter⟩
    rcases List.eq_nil_or_concat' after with rfl | ⟨after, later, rfl⟩
    · obtain ⟨-, heq⟩ := List.append_inj' hvalues rfl
      cases heq
      exact .inl ⟨hkey, rfl⟩
    · have hvalues' : values ++ [b] = (before ++ a :: after) ++ [later] := by simpa using hvalues
      obtain ⟨heq, hb⟩ := List.append_inj' hvalues' rfl
      cases hb
      exact .inr ⟨hafter b (by simp), hkey, before, after, heq,
        fun later hlater => hafter later (by simp [hlater])⟩
  · rintro (⟨hkey, rfl⟩ | ⟨hb, hkey, before, after, rfl, hafter⟩)
    · exact ⟨hkey, values, [], rfl, by simp⟩
    · refine ⟨hkey, before, after ++ [b], by simp, fun later hlater => ?_⟩
      rcases List.mem_append.mp hlater with hlater | hlater
      · exact hafter later hlater
      · exact List.mem_singleton.mp hlater ▸ hb

theorem index_get? [DecidableEq κ] {key : α → κ} {values : List α} {k : κ} {a : α} :
    (index key values).get? k = some a ↔ Last key values k a := by
  induction values using List.reverseRecOn with
  | nil => simp [index, OrderedMap.get?, OrderedMap.empty, Last]
  | append_singleton values b ih =>
    rw [last_append, ← ih]
    simp only [index, List.foldl_append, List.foldl_cons, List.foldl_nil]
    by_cases hk : key b = k
    · subst hk
      simp [OrderedMap.get?_upsert_self, eq_comm]
    · simp [OrderedMap.get?_upsert_of_ne _ _ (Ne.symm hk), hk]

-- ---------------------------------------------------------------------------
-- The first of each class
-- ---------------------------------------------------------------------------

/-- Two values of one class that are marked differently. -/
structure Clash (key : α → κ) (mark : α → β) (values : List α) (first second : α) : Prop where
  first_mem : first ∈ values
  second_mem : second ∈ values
  key_eq : key first = key second
  mark_ne : mark first ≠ mark second

variable {key : α → κ} {mark : α → β} {values : List α}

theorem Clash.mono {values' : List α} {first second : α} (h : Clash key mark values first second)
    (hsub : ∀ a ∈ values, a ∈ values') : Clash key mark values' first second :=
  ⟨hsub _ h.first_mem, hsub _ h.second_mem, h.key_eq, h.mark_ne⟩

variable [DecidableEq κ]

def keepFirst [DecidableEq β] (key : α → κ) (mark : α → β)
    (firsts : OrderedMap κ α) (a : α) : Except (α × α) (OrderedMap κ α) :=
  match firsts.get? (key a) with
  | none => .ok (firsts.upsert (key a) fun _ => a)
  | some first => if mark first ≠ mark a then .error (first, a) else .ok firsts

section
variable {firsts firsts' : OrderedMap κ α} {seen : List α} {a : α} {clash : α × α}

/-- Each class that was seen has its first value kept, marked as all of it are. -/
structure Firsts (key : α → κ) (mark : α → β) (firsts : OrderedMap κ α) (seen : List α) : Prop where
  sound : ∀ k first, firsts.get? k = some first → first ∈ seen ∧ key first = k
  marked : ∀ a ∈ seen, ∃ first, firsts.get? (key a) = some first ∧ mark first = mark a

theorem Firsts.empty : Firsts key mark .empty [] where
  sound := by simp [OrderedMap.get?, OrderedMap.empty]
  marked := by simp

theorem Firsts.no_clash (h : Firsts key mark firsts seen) {first second : α}
    (hclash : Clash key mark seen first second) : False := by
  obtain ⟨kept, hkept, hfirst⟩ := h.marked first hclash.first_mem
  obtain ⟨kept', hkept', hsecond⟩ := h.marked second hclash.second_mem
  rw [← hclash.key_eq, hkept] at hkept'
  cases hkept'
  exact hclash.mark_ne (hfirst.symm.trans hsecond)

variable [DecidableEq β]

theorem Firsts.keepFirst_ok (h : Firsts key mark firsts seen) (hstep : keepFirst key mark firsts a = .ok firsts') :
    Firsts key mark firsts' (seen ++ [a]) := by
  unfold keepFirst at hstep
  split at hstep
  · rename_i hnone
    cases hstep
    have hself := OrderedMap.get?_upsert_self firsts (key a) fun _ => a
    refine ⟨fun k first hget => ?_, fun b hb => ?_⟩
    · by_cases hk : k = key a
      · subst hk
        rw [hself] at hget
        cases hget
        exact ⟨by simp, rfl⟩
      · rw [OrderedMap.get?_upsert_of_ne firsts _ hk] at hget
        obtain ⟨hmem, hkey⟩ := h.sound k first hget
        exact ⟨List.mem_append_left _ hmem, hkey⟩
    · rcases List.mem_append.mp hb with hb | hb
      · obtain ⟨first, hfirst, hmark⟩ := h.marked b hb
        have hk : key b ≠ key a := by
          intro hk
          rw [← hk, hfirst] at hnone
          cases hnone
        exact ⟨first, (OrderedMap.get?_upsert_of_ne firsts _ hk).trans hfirst, hmark⟩
      · rw [List.mem_singleton.mp hb]
        exact ⟨a, hself, rfl⟩
  · rename_i first hfirst
    split at hstep
    · cases hstep
    · rename_i hmark
      cases hstep
      refine ⟨fun k first hget => ?_, fun b hb => ?_⟩
      · obtain ⟨hmem, hkey⟩ := h.sound k first hget
        exact ⟨List.mem_append_left _ hmem, hkey⟩
      · rcases List.mem_append.mp hb with hb | hb
        · exact h.marked b hb
        · rw [List.mem_singleton.mp hb]
          exact ⟨first, hfirst, Decidable.not_not.mp hmark⟩

theorem Firsts.keepFirst_error (h : Firsts key mark firsts seen)
    (hstep : keepFirst key mark firsts a = .error clash) :
    Clash key mark (seen ++ [a]) clash.1 clash.2 := by
  unfold keepFirst at hstep
  split at hstep
  · cases hstep
  · rename_i first hfirst
    split at hstep
    · rename_i hmark
      cases hstep
      obtain ⟨hmem, hkey⟩ := h.sound _ _ hfirst
      exact ⟨List.mem_append_left _ hmem, by simp, hkey, hmark⟩
    · cases hstep

theorem Firsts.fold_ok (h : Firsts key mark firsts seen)
    (hfold : values.foldlM (keepFirst key mark) firsts = .ok firsts') :
    Firsts key mark firsts' (seen ++ values) := by
  induction values generalizing firsts seen with
  | nil =>
    cases hfold
    simpa using h
  | cons a values ih =>
    rw [List.foldlM_cons] at hfold
    cases hstep : keepFirst key mark firsts a with
    | error clash =>
      rw [hstep] at hfold
      cases hfold
    | ok firsts₁ =>
      rw [hstep] at hfold
      simpa using ih (h.keepFirst_ok hstep) hfold

theorem Firsts.fold_error (h : Firsts key mark firsts seen)
    (hfold : values.foldlM (keepFirst key mark) firsts = .error clash) :
    Clash key mark (seen ++ values) clash.1 clash.2 := by
  induction values generalizing firsts seen with
  | nil => cases hfold
  | cons a values ih =>
    rw [List.foldlM_cons] at hfold
    cases hstep : keepFirst key mark firsts a with
    | error clash' =>
      rw [hstep] at hfold
      cases hfold
      refine (h.keepFirst_error hstep).mono fun b hb => ?_
      rcases List.mem_append.mp hb with hb | hb
      · exact List.mem_append_left _ hb
      · simp [List.mem_singleton.mp hb]
    | ok firsts₁ =>
      rw [hstep] at hfold
      simpa using ih (h.keepFirst_ok hstep) hfold

/-- The scan stops iff there is a clash, and then with one. -/
theorem foldlM_keepFirst : (∃ clash, values.foldlM (keepFirst key mark) .empty = .error clash) ↔
    ∃ first second, Clash key mark values first second := by
  constructor
  · rintro ⟨clash, hfold⟩
    exact ⟨clash.1, clash.2, Firsts.empty.fold_error hfold⟩
  · rintro ⟨first, second, hclash⟩
    cases hfold : values.foldlM (keepFirst key mark) .empty with
    | error clash => exact ⟨clash, rfl⟩
    | ok firsts => exact ((Firsts.empty.fold_ok hfold).no_clash hclash).elim

end

end Keyed
