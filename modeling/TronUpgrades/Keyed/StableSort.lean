import Mathlib.Data.List.Nodup

/-!
# Stable sorting by a key

A list sorted by a comparison of keys that may hold different keys equal.
Elements of equal keys keep their order; all else about the order of a list is
forgotten by sorting it (`sortBy_congr`).
-/

namespace Keyed

open Std (TransCmp OrientedCmp)

variable {α κ : Type}

section
variable (cmp : κ → κ → Ordering) (key : α → κ)

def precedes (a b : α) : Bool := (cmp (key a) (key b)).isLE

def sortBy (l : List α) : List α := l.mergeSort (precedes cmp key)

/-- The elements whose keys compare equal to `k`. -/
def sameKey (k : κ) (l : List α) : List α := l.filter fun a => cmp (key a) k == .eq

end

variable {cmp : κ → κ → Ordering} {key : α → κ} {l l' : List α}

theorem sortBy_perm : (sortBy cmp key l).Perm l := List.mergeSort_perm l _

theorem mem_sortBy {a : α} : a ∈ sortBy cmp key l ↔ a ∈ l := List.mem_mergeSort

theorem sortBy_of_sorted (h : l.Pairwise fun a b => precedes cmp key a b = true) :
    sortBy cmp key l = l :=
  List.mergeSort_of_pairwise h

theorem mem_sameKey {a : α} {k : κ} : a ∈ sameKey cmp key k l ↔ a ∈ l ∧ cmp (key a) k = .eq := by
  simp [sameKey]

/-- Elements no two of which are out of order keep their order. -/
theorem filter_mergeSort {le : α → α → Bool} {p : α → Bool}
    (trans : ∀ a b c, le a b = true → le b c = true → le a c = true)
    (total : ∀ a b, (le a b || le b a) = true)
    (h : ∀ a, a ∈ l ∧ p a = true → ∀ b, b ∈ l ∧ p b = true → le a b = true) :
    (l.mergeSort le).filter p = l.filter p := by
  have hordered : (l.filter p).Pairwise fun a b => le a b = true := by
    refine List.pairwise_of_forall_mem_list fun a ha b hb => ?_
    exact h a (List.mem_filter.mp ha) b (List.mem_filter.mp hb)
  have hsub : (l.filter p).Sublist (l.mergeSort le) :=
    List.sublist_mergeSort trans total hordered List.filter_sublist
  have hsub' := hsub.filter p
  rw [List.filter_filter] at hsub'
  simp only [Bool.and_self] at hsub'
  exact (hsub'.eq_of_length ((List.mergeSort_perm l le).filter p).length_eq.symm).symm

section
variable [TransCmp cmp]

theorem precedes_trans (a b c : α) (hab : precedes cmp key a b = true)
    (hbc : precedes cmp key b c = true) : precedes cmp key a c = true :=
  TransCmp.isLE_trans hab hbc

theorem precedes_total (a b : α) : (precedes cmp key a b || precedes cmp key b a) = true := by
  have hswap : cmp (key b) (key a) = (cmp (key a) (key b)).swap := OrientedCmp.eq_swap
  unfold precedes
  rw [hswap]
  cases cmp (key a) (key b) <;> rfl

theorem precedes_of_sameKey {a b : α} {k : κ} (ha : cmp (key a) k = .eq)
    (hb : cmp (key b) k = .eq) : precedes cmp key a b = true := by
  have hab : cmp (key a) (key b) = .eq := TransCmp.eq_trans ha (OrientedCmp.eq_symm hb)
  simp [precedes, hab]

theorem sortBy_sorted : (sortBy cmp key l).Pairwise fun a b => precedes cmp key a b = true :=
  List.pairwise_mergeSort precedes_trans precedes_total l

/-- Sorting leaves elements of equal keys in their order. -/
theorem sameKey_sortBy (k : κ) : sameKey cmp key k (sortBy cmp key l) = sameKey cmp key k l := by
  refine filter_mergeSort precedes_trans precedes_total fun a ha b hb => ?_
  exact precedes_of_sameKey (mem_sameKey.mp (List.mem_filter.mpr ha)).2
    (mem_sameKey.mp (List.mem_filter.mpr hb)).2

theorem mem_of_sameKey (h : ∀ k, sameKey cmp key k l = sameKey cmp key k l') {a : α}
    (ha : a ∈ l) : a ∈ l' := by
  have hself : a ∈ sameKey cmp key (key a) l := mem_sameKey.mpr ⟨ha, Std.ReflCmp.compare_self⟩
  rw [h] at hself
  exact (mem_sameKey.mp hself).1

/-- The first elements of two sorted lists of the same elements. -/
theorem heads_sameKey {a b : α} (hl : (a :: l).Pairwise fun a b => precedes cmp key a b = true)
    (hl' : (b :: l').Pairwise fun a b => precedes cmp key a b = true) (ha : a ∈ b :: l')
    (hb : b ∈ a :: l) : cmp (key a) (key b) = .eq := by
  rcases List.mem_cons.mp ha with rfl | ha
  · exact Std.ReflCmp.compare_self
  · rcases List.mem_cons.mp hb with rfl | hb
    · exact Std.ReflCmp.compare_self
    · exact OrientedCmp.isLE_antisymm (List.rel_of_pairwise_cons hl hb)
        (List.rel_of_pairwise_cons hl' ha)

/-- A sorted list is known by the order in which elements of equal keys come. -/
theorem sorted_ext (hl : l.Pairwise fun a b => precedes cmp key a b = true)
    (hl' : l'.Pairwise fun a b => precedes cmp key a b = true)
    (h : ∀ k, sameKey cmp key k l = sameKey cmp key k l') : l = l' := by
  induction l generalizing l' with
  | nil =>
    cases l' with
    | nil => rfl
    | cons b l' => exact absurd (mem_of_sameKey (fun k => (h k).symm) List.mem_cons_self) (by simp)
  | cons a l ih =>
    cases l' with
    | nil => exact absurd (mem_of_sameKey h List.mem_cons_self) (by simp)
    | cons b l' =>
      have hab : cmp (key a) (key b) = .eq := heads_sameKey hl hl'
        (mem_of_sameKey h List.mem_cons_self)
        (mem_of_sameKey (fun k => (h k).symm) List.mem_cons_self)
      have hself : cmp (key b) (key b) = .eq := Std.ReflCmp.compare_self
      have hheads := h (key b)
      simp only [sameKey, List.filter_cons, hab, hself, beq_self_eq_true, if_true] at hheads
      obtain ⟨rfl, -⟩ := List.cons.inj hheads
      refine congrArg _ (ih hl.of_cons hl'.of_cons fun k => ?_)
      have hk := h k
      simp only [sameKey, List.filter_cons] at hk ⊢
      split at hk
      · exact (List.cons.inj hk).2
      · exact hk

/-- Only the order among elements of equal keys matters to sorting. -/
theorem sortBy_congr (h : ∀ k, sameKey cmp key k l = sameKey cmp key k l') :
    sortBy cmp key l = sortBy cmp key l' := by
  refine sorted_ext sortBy_sorted sortBy_sorted fun k => ?_
  rw [sameKey_sortBy, sameKey_sortBy, h]

end

end Keyed
